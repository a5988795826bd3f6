import Mathlib.Data.List.Induction

/-!
# EventRun — runs of a reactive machine

A reactive machine takes one event at a time: `step` is the next state and
`emit` what it puts out while taking the event. A *run* is a finite list of
events taken from the initial state.

Three rules carry every later induction over runs: `Machine.run_history`
(a fact that links the events so far to the state), `Machine.Feeds.run` /
`Machine.Feeds.trace` (a machine that hands every event on as a list of events
of an inner machine is, for the outside, the inner machine on the handed-on
events), and `Machine.Pads` (events that do nothing where they come may be put in
anywhere).
-/

namespace GalvoCtrl.Lib

universe u

/-- A reactive machine with states `σ`, events `ε` and outputs `ω`. `boot` is
what it puts out while it is initialised. -/
structure Machine (σ ε ω : Type u) where
  init : σ
  boot : List ω
  step : σ → ε → σ
  emit : σ → ε → List ω

namespace Machine

variable {σ τ ε δ ω : Type u} (M : Machine σ ε ω)

/-- The state after the events `evs`, taken from `s`. -/
def runFrom (s : σ) (evs : List ε) : σ := evs.foldl M.step s

/-- The state after the events `evs`, taken from the initial state. -/
def run (evs : List ε) : σ := M.runFrom M.init evs

/-- Everything put out while taking `evs` from `s`. -/
def traceFrom (s : σ) : List ε → List ω
  | [] => []
  | e :: evs => M.emit s e ++ traceFrom (M.step s e) evs

/-- Everything put out by a run, initialisation included. -/
def trace (evs : List ε) : List ω := M.boot ++ M.traceFrom M.init evs

/-- The events `evs`, each with what was put out while it was taken. -/
def logFrom (s : σ) : List ε → List (ε × List ω)
  | [] => []
  | e :: evs => (e, M.emit s e) :: logFrom (M.step s e) evs

/-- The log of a run. -/
def log (evs : List ε) : List (ε × List ω) := M.logFrom M.init evs

/-! ## Unfolding along the run -/

@[simp] theorem runFrom_cons (s : σ) (e : ε) (evs : List ε) :
    M.runFrom s (e :: evs) = M.runFrom (M.step s e) evs := rfl

theorem runFrom_append (s : σ) (a b : List ε) :
    M.runFrom s (a ++ b) = M.runFrom (M.runFrom s a) b := List.foldl_append

theorem run_append (a b : List ε) : M.run (a ++ b) = M.runFrom (M.run a) b :=
  M.runFrom_append M.init a b

@[simp] theorem run_snoc (evs : List ε) (e : ε) :
    M.run (evs ++ [e]) = M.step (M.run evs) e := M.run_append evs [e]

theorem traceFrom_append (s : σ) (a b : List ε) :
    M.traceFrom s (a ++ b) = M.traceFrom s a ++ M.traceFrom (M.runFrom s a) b := by
  induction a generalizing s with
  | nil => rfl
  | cons e a ih => simp [traceFrom, ih, List.append_assoc]

theorem trace_append (a b : List ε) :
    M.trace (a ++ b) = M.trace a ++ M.traceFrom (M.run a) b := by
  simp [trace, traceFrom_append, run, List.append_assoc]

/-! ## Invariants -/

/-- **History rule**: a fact linking the events taken so far to the state they
lead to holds of every run once it holds at the start and one more event
keeps it. -/
theorem run_history {P : List ε → σ → Prop} (hinit : P [] M.init)
    (hstep : ∀ evs s e, P evs s → P (evs ++ [e]) (M.step s e)) (evs : List ε) :
    P evs (M.run evs) := by
  induction evs using List.reverseRecOn with
  | nil => exact hinit
  | append_singleton evs e ih =>
      rw [run_snoc]
      exact hstep evs _ e ih

/-- A state predicate kept by every event is kept by every run. -/
theorem runFrom_invariant {I : σ → Prop} (hstep : ∀ s e, I s → I (M.step s e))
    {s : σ} (hs : I s) (evs : List ε) : I (M.runFrom s evs) := by
  induction evs generalizing s with
  | nil => exact hs
  | cons e evs ih => exact ih (hstep s e hs)

/-- A state predicate that holds initially and is kept by every event holds
after every run. -/
theorem run_invariant {I : σ → Prop} (hinit : I M.init)
    (hstep : ∀ s e, I s → I (M.step s e)) (evs : List ε) : I (M.run evs) :=
  M.runFrom_invariant hstep hinit evs

/-- **Simulation rule**: a relation that holds between the initial states of
two machines and is kept by every event, taken by both, holds after every run. -/
theorem run_simulation {ω' : Type u} {N : Machine τ ε ω'} {R : σ → τ → Prop}
    (hinit : R M.init N.init) (hstep : ∀ s t e, R s t → R (M.step s e) (N.step t e))
    (evs : List ε) : R (M.run evs) (N.run evs) := by
  induction evs using List.reverseRecOn with
  | nil => exact hinit
  | append_singleton evs e ih =>
      rw [run_snoc, run_snoc]
      exact hstep _ _ e ih

/-! ## A machine in front of another -/

/-- `M.Feeds N φ ψ π`: the `N`-part `φ s` of `M`'s state moves only through the
events `ψ s e` that `M` hands on, and what `M` puts out is, seen through `π`,
what `N` puts out. -/
structure Feeds {ω' : Type u} (M : Machine σ ε ω) (N : Machine τ δ ω') (φ : σ → τ)
    (ψ : σ → ε → List δ) (π : ω → Option ω') : Prop where
  init : φ M.init = N.init
  boot : M.boot.filterMap π = N.boot
  step : ∀ s e, φ (M.step s e) = N.runFrom (φ s) (ψ s e)
  emit : ∀ s e, (M.emit s e).filterMap π = N.traceFrom (φ s) (ψ s e)

/-- The events handed on along `evs`. -/
def fedFrom (ψ : σ → ε → List δ) (s : σ) : List ε → List δ
  | [] => []
  | e :: evs => ψ s e ++ fedFrom ψ (M.step s e) evs

/-- The events handed on along a run. -/
def fed (ψ : σ → ε → List δ) (evs : List ε) : List δ := M.fedFrom ψ M.init evs

section Feeds

variable {ω' : Type u} {M} {N : Machine τ δ ω'} {φ : σ → τ} {ψ : σ → ε → List δ}
  {π : ω → Option ω'}

theorem Feeds.runFrom (h : M.Feeds N φ ψ π) (s : σ) (evs : List ε) :
    φ (M.runFrom s evs) = N.runFrom (φ s) (M.fedFrom ψ s evs) := by
  induction evs generalizing s with
  | nil => rfl
  | cons e evs ih => rw [runFrom_cons, ih, h.step, fedFrom, runFrom_append]

theorem Feeds.traceFrom (h : M.Feeds N φ ψ π) (s : σ) (evs : List ε) :
    (M.traceFrom s evs).filterMap π = N.traceFrom (φ s) (M.fedFrom ψ s evs) := by
  induction evs generalizing s with
  | nil => rfl
  | cons e evs ih =>
      rw [Machine.traceFrom, List.filterMap_append, fedFrom, traceFrom_append, ← h.emit,
        ← h.step, ih]

/-- The inner state of a run is the inner machine's run on the fed events. -/
theorem Feeds.run (h : M.Feeds N φ ψ π) (evs : List ε) :
    φ (M.run evs) = N.run (M.fed ψ evs) := by
  rw [Machine.run, h.runFrom, h.init]
  rfl

/-- The output of a run is the inner machine's output on the fed events. -/
theorem Feeds.trace (h : M.Feeds N φ ψ π) (evs : List ε) :
    (M.trace evs).filterMap π = N.trace (M.fed ψ evs) := by
  rw [Machine.trace, List.filterMap_append, h.traceFrom, h.init, h.boot]
  rfl

end Feeds

/-! ## Events that do nothing -/

/-- `M.Pads pad s evs ext`: from `s` on, `ext` is `evs` with more events put in, all
of them of the kind `pad`, and each one without any effect where it comes. -/
inductive Pads (pad : ε → Bool) : σ → List ε → List ε → Prop where
  | nil (s : σ) : Pads pad s [] []
  | keep {s : σ} {e : ε} {evs ext : List ε} : Pads pad (M.step s e) evs ext →
      Pads pad s (e :: evs) (e :: ext)
  | insert {s : σ} {e : ε} {evs ext : List ε} : pad e = true → M.step s e = s →
      M.emit s e = [] → Pads pad s evs ext → Pads pad s evs (e :: ext)

section Pads

variable {M} {pad : ε → Bool} {s : σ} {evs ext : List ε}

theorem Pads.runFrom (h : M.Pads pad s evs ext) : M.runFrom s ext = M.runFrom s evs := by
  induction h with
  | nil s => rfl
  | keep _ ih => exact ih
  | insert _ hstep _ _ ih => rw [runFrom_cons, hstep, ih]

theorem Pads.traceFrom (h : M.Pads pad s evs ext) : M.traceFrom s ext = M.traceFrom s evs := by
  induction h with
  | nil s => rfl
  | keep _ ih => rw [Machine.traceFrom, Machine.traceFrom, ih]
  | insert _ hstep hemit _ ih => rw [Machine.traceFrom, hstep, hemit, ih, List.nil_append]

/-- **All other events put out what they did before.** -/
theorem Pads.logFrom (h : M.Pads pad s evs ext) :
    (M.logFrom s ext).filter (fun l => !pad l.1)
      = (M.logFrom s evs).filter fun l => !pad l.1 := by
  induction h with
  | nil s => rfl
  | keep _ ih => rw [Machine.logFrom, Machine.logFrom, List.filter_cons, List.filter_cons, ih]
  | insert hpad hstep _ _ ih =>
      rw [Machine.logFrom, hstep, List.filter_cons_of_neg (by simp [hpad]), ih]

end Pads

end Machine

end GalvoCtrl.Lib
