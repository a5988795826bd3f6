import GalvoCtrl.Stack.Cycle
import Mathlib.Logic.Relation

/-!
# Stack — AlMachine

What the state machine of the stack is for, without registers and mailboxes: a status, the
two parts of the application, and a trace of what is visible from outside. The status only
changes as the EtherCAT state machine allows, outputs are only set in `OP`, and they are
safe before another state is reported.
-/

namespace GalvoCtrl.Stack

open GalvoCtrl.Lib GalvoCtrl.Coe

variable {V : Type}

/-! ## States -/

/-- The state in a status. -/
def alState (status : BitVec 8) : BitVec 8 := status &&& escregAlErrackmask

/-- The state machine, with the return from `BOOT` that is only an error. -/
def stateChanges : List (BitVec 8 × BitVec 8) :=
  [(escInit, escInit), (escInit, escPreop), (escInit, escBoot),
    (escPreop, escInit), (escPreop, escPreop), (escPreop, escSafeop),
    (escBoot, escInit), (escBoot, escBoot), (escBoot, escPreop),
    (escSafeop, escInit), (escSafeop, escPreop), (escSafeop, escSafeop), (escSafeop, escOp),
    (escOp, escInit), (escOp, escPreop), (escOp, escSafeop), (escOp, escOp)]

/-- A status may follow another one. -/
structure Allowed (st st' : BitVec 8) : Prop where
  change : (alState st, alState st') ∈ stateChanges
  clean : alState st' = escOp → st' &&& escError = 0
  boot : alState st = escBoot → alState st' = escPreop → st' &&& escError ≠ 0

instance (st st' : BitVec 8) : Decidable (Allowed st st') :=
  decidable_of_iff ((alState st, alState st') ∈ stateChanges
      ∧ (alState st' = escOp → st' &&& escError = 0)
      ∧ (alState st = escBoot → alState st' = escPreop → st' &&& escError ≠ 0))
    ⟨fun h => ⟨h.1, h.2.1, h.2.2⟩, fun h => ⟨h.change, h.clean, h.boot⟩⟩

def IsState (state : BitVec 8) : Prop := state ∈ [escInit, escPreop, escBoot, escSafeop, escOp]

instance (state : BitVec 8) : Decidable (IsState state) :=
  inferInstanceAs (Decidable (state ∈ _))

/-- What is checked for every transition holds for all. -/
theorem forall_stateChanges {P : BitVec 8 × BitVec 8 → Prop} [DecidablePred P]
    (hall : (stateChanges.all fun p => decide (P p)) = true) {st st' : BitVec 8}
    (h : (st, st') ∈ stateChanges) : P (st, st') :=
  of_decide_eq_true (List.all_eq_true.mp hall _ h)

theorem Allowed.isState {st st' : BitVec 8} (h : Allowed st st') : IsState (alState st') :=
  @forall_stateChanges (fun p => IsState p.2) _ (by decide) _ _ h.change

/-! ## Traces -/

/-- The events that the state machine is about. -/
def EscEvent.visible : EscEvent V → Bool
  | .alStatus _ | .safeOutput | .setOutputs _ => true
  | _ => false

/-- The outputs have been set, and not been made safe since. -/
def armed : List (EscEvent V) → Bool
  | [] => false
  | .setOutputs _ :: _ => true
  | .safeOutput :: _ => false
  | _ :: log => armed log

/-- The last status that was reported. -/
def lastStatus : List (EscEvent V) → Option (BitVec 8)
  | [] => none
  | .alStatus st :: _ => some st
  | _ :: log => lastStatus log

/-- Outputs are only set in `OP`, they are safe when another state is reported, and every
status may follow the one before. -/
def WellTraced : List (EscEvent V) → Prop
  | [] => True
  | .alStatus st :: log =>
      (alState st ≠ escOp → armed log = false) ∧ (∀ st₀, lastStatus log = some st₀ → Allowed st₀ st)
        ∧ WellTraced log
  | .setOutputs _ :: log => (∃ st, lastStatus log = some st ∧ alState st = escOp) ∧ WellTraced log
  | _ :: log => WellTraced log

theorem armed_filter (log : List (EscEvent V)) :
    armed (log.filter EscEvent.visible) = armed log := by
  induction log with
  | nil => rfl
  | cons e log ih => cases e <;> first | rfl | exact ih

theorem lastStatus_filter (log : List (EscEvent V)) :
    lastStatus (log.filter EscEvent.visible) = lastStatus log := by
  induction log with
  | nil => rfl
  | cons e log ih => cases e <;> first | rfl | exact ih

theorem WellTraced.of_append {later earlier : List (EscEvent V)}
    (h : WellTraced (later ++ earlier)) : WellTraced earlier := by
  induction later with
  | nil => exact h
  | cons e later ih =>
      refine ih ?_
      cases e with
      | alStatus st => exact h.2.2
      | setOutputs mem => exact h.2
      | _ => exact h

/-! ## The machine -/

/-- The state of the machine. -/
structure Core (V : Type) where
  alStatus : BitVec 8
  output : Bool
  mbxRun : Bool
  trace : List (EscEvent V)

/-- What may happen on the way to a new status: the outputs are switched, and if they are
switched off they are made safe. -/
structure Changed (c : Core V) (an : BitVec 8) (c' : Core V) : Prop where
  allowed : Allowed c.alStatus an
  output : c'.output = true ↔ alState an = escOp
  running : c'.mbxRun = true ↔ alState an ≠ escInit
  trace : c'.trace = c.trace ∨ c'.trace = .safeOutput :: c.trace
  safe : c.output = true → c'.output = false → c'.trace = .safeOutput :: c.trace

/-- One step: a new status, or outputs that are set. -/
inductive Step : Core V → Core V → Prop where
  | status {c c' : Core V} {an : BitVec 8} : Changed c an c' →
      Step c { c' with alStatus := an, trace := .alStatus an :: c'.trace }
  | outputs {c : Core V} (mem : Memory V) : c.output = true →
      Step c { c with trace := .setOutputs mem :: c.trace }

/-- The invariant of the machine. -/
structure AlInv (c : Core V) : Prop where
  isState : IsState (alState c.alStatus)
  clean : alState c.alStatus = escOp → c.alStatus &&& escError = 0
  output : c.output = true ↔ alState c.alStatus = escOp
  running : c.mbxRun = true ↔ alState c.alStatus ≠ escInit
  last : lastStatus c.trace = some c.alStatus
  safe : armed c.trace = true → c.output = true
  traced : WellTraced c.trace

/-- The machine once the stack is initialised. -/
def Core.start : Core V := ⟨escInit, false, false, [.safeOutput, .alStatus escInit]⟩

theorem alInv_start : AlInv (Core.start : Core V) where
  isState := show IsState (alState escInit) by decide
  clean := fun _ => show escInit &&& escError = 0 by decide
  output := ⟨nofun, fun hop => absurd (show alState escInit = escOp from hop) (by decide)⟩
  running := ⟨nofun, fun hne => absurd (show alState escInit = escInit by decide) hne⟩
  last := rfl
  safe := nofun
  traced := ⟨fun _ => rfl, nofun, trivial⟩

theorem Allowed.congr {st x an : BitVec 8} (hst : alState st = alState x) (h : Allowed x an) :
    Allowed st an :=
  ⟨by rw [hst]; exact h.change, h.clean, by rw [hst]; exact h.boot⟩

section Changed

variable {c c' : Core V} {x an : BitVec 8}

/-- The state says whether the outputs are on, -/
theorem AlInv.output_eq (hinv : AlInv c) (hst : alState c.alStatus = x) :
    c.output = decide (x = escOp) := by
  rw [Bool.eq_iff_iff, hinv.output, hst, decide_eq_true_eq]

/-- and whether the mailboxes run. -/
theorem AlInv.running_eq (hinv : AlInv c) (hst : alState c.alStatus = x) :
    c.mbxRun = decide (x ≠ escInit) := by
  rw [Bool.eq_iff_iff, hinv.running, hst, decide_eq_true_eq]

/-- The way from state `x` to the status `an`. -/
theorem Changed.of_state (hinv : AlInv c) (hst : alState c.alStatus = x) (hx : alState x = x)
    (hallowed : Allowed x an) (houtput : c'.output = decide (alState an = escOp))
    (hrunning : c'.mbxRun = decide (alState an ≠ escInit))
    (htrace : c'.trace = .safeOutput :: c.trace
      ∨ c'.trace = c.trace ∧ (x ≠ escOp ∨ alState an = escOp)) : Changed c an c' where
  allowed := hallowed.congr (hst.trans hx.symm)
  output := by rw [houtput, decide_eq_true_eq]
  running := by rw [hrunning, decide_eq_true_eq]
  trace := htrace.symm.imp_left And.left
  safe := by
    intro hon hoff
    rcases htrace with h | ⟨_, hx' | han⟩
    · exact h
    · rw [hinv.output_eq hst, decide_eq_true_eq] at hon
      exact absurd hon hx'
    · rw [houtput, decide_eq_false_iff_not] at hoff
      exact absurd han hoff

end Changed

/-- With the outputs off, none are left set. -/
theorem Changed.armed_eq_false {c c' : Core V} {an : BitVec 8} (h : Changed c an c')
    (hinv : AlInv c) (hoff : c'.output = false) : armed c'.trace = false := by
  cases hon : c.output with
  | true =>
      rw [h.safe hon hoff]
      rfl
  | false =>
      have hsafe : armed c.trace = false := by
        by_contra harmed
        rw [Bool.not_eq_false] at harmed
        rw [hinv.safe harmed] at hon
        cases hon
      rcases h.trace with ht | ht
      · rw [ht, hsafe]
      · rw [ht]
        rfl

theorem Changed.traced {c c' : Core V} {an : BitVec 8} (h : Changed c an c') (hinv : AlInv c) :
    lastStatus c'.trace = some c.alStatus ∧ WellTraced c'.trace := by
  rcases h.trace with ht | ht
  · rw [ht]
    exact ⟨hinv.last, hinv.traced⟩
  · rw [ht]
    exact ⟨hinv.last, hinv.traced⟩

/-- **A step keeps the invariant.** -/
theorem Step.inv {c c' : Core V} (h : Step c c') (hinv : AlInv c) : AlInv c' := by
  cases h with
  | @status c₁ an hchanged =>
      obtain ⟨hlast, htraced⟩ := hchanged.traced hinv
      have hleave : alState an ≠ escOp → armed c₁.trace = false := by
        intro hne
        refine hchanged.armed_eq_false hinv ?_
        rwa [← Bool.not_eq_true, hchanged.output]
      refine ⟨hchanged.allowed.isState, hchanged.allowed.clean, hchanged.output, hchanged.running,
        rfl, ?_, hleave, ?_, htraced⟩
      · intro harmed
        by_contra hoff
        have hnone := hchanged.armed_eq_false hinv (Bool.eq_false_of_not_eq_true hoff)
        rw [show armed c₁.trace = true from harmed] at hnone
        cases hnone
      · intro st₀ hst₀
        rw [hlast] at hst₀
        obtain rfl := Option.some.inj hst₀
        exact hchanged.allowed
  | outputs mem hon =>
      exact ⟨hinv.isState, hinv.clean, hinv.output, hinv.running, hinv.last, fun _ => hon,
        ⟨c.alStatus, hinv.last, hinv.output.mp hon⟩, hinv.traced⟩

/-- One step or none. -/
abbrev StepOrNot : Core V → Core V → Prop := Relation.ReflGen Step

/-- Steps, any number of them. -/
abbrev Steps : Core V → Core V → Prop := Relation.ReflTransGen Step

theorem Steps.inv {c c' : Core V} (h : Steps c c') (hinv : AlInv c) : AlInv c' := by
  induction h with
  | refl => exact hinv
  | tail _ hstep ih => exact hstep.inv ih

end GalvoCtrl.Stack
