import GalvoCtrl.Slave.SscDevice

/-!
# Slave — Observable

What the master can observe of the slave, over whole runs. `spec` is an
abstract slave with unbounded counters: the latest command, the number of ticks,
the age in ticks of the latest change, and the two status bits of the latest
tick. The application refines it (`device_refines_spec`), and its components
are facts about the list of events alone (`latestRx`, `ticks`, `Changed`).
-/

namespace GalvoCtrl.Slave

open GalvoCtrl.Lib

/-! ## The history of a run -/

/-- The command before any RxPDO: the initial values 0, 0, 0, 0. -/
def Command.zero : Command := ⟨0, 0, 0, 0⟩

def SlaveEvent.command? : SlaveEvent → Option Command
  | .outputMapping pdo => some (RxPdo.command pdo)
  | _ => none

def SlaveEvent.isTick : SlaveEvent → Bool
  | .timerTick => true
  | _ => false

/-- The latest RxPDO, `Command.zero` if there was none. -/
def latestRx (evs : List SlaveEvent) : Command :=
  (evs.filterMap SlaveEvent.command?).getLastD Command.zero

/-- The number of timer ticks. -/
def ticks (evs : List SlaveEvent) : Nat := evs.countP SlaveEvent.isTick

/-- An RxPDO that differed from its predecessor came in, and `later` followed. -/
def Changed (evs later : List SlaveEvent) : Prop :=
  ∃ before pdo, evs = before ++ .outputMapping pdo :: later
    ∧ RxPdo.command pdo ≠ latestRx before

theorem latestRx_snoc (evs : List SlaveEvent) (e : SlaveEvent) :
    latestRx (evs ++ [e]) = e.command?.getD (latestRx evs) := by
  cases e <;> simp [latestRx, SlaveEvent.command?]

theorem ticks_append (a b : List SlaveEvent) : ticks (a ++ b) = ticks a + ticks b :=
  List.countP_append

/-- The latest event either is a change itself or follows an older one. -/
theorem changed_snoc {evs later : List SlaveEvent} {e : SlaveEvent} :
    Changed (evs ++ [e]) later ↔
      (later = [] ∧ ∃ pdo, e = .outputMapping pdo ∧ RxPdo.command pdo ≠ latestRx evs)
      ∨ ∃ rest, later = rest ++ [e] ∧ Changed evs rest := by
  constructor
  · rintro ⟨before, pdo, heq, hne⟩
    -- nothing follows the change, or the last event does
    rcases List.eq_nil_or_concat later with rfl | ⟨rest, e', rfl⟩
    · obtain ⟨rfl, he⟩ := List.append_inj' heq rfl
      exact .inl ⟨rfl, pdo, List.head_eq_of_cons_eq he, hne⟩
    · rw [List.concat_eq_append, ← List.cons_append, ← List.append_assoc] at heq
      obtain ⟨rfl, he⟩ := List.append_inj' heq rfl
      rw [List.concat_eq_append, ← List.head_eq_of_cons_eq he]
      exact .inr ⟨rest, rfl, before, pdo, rfl, hne⟩
  · rintro (⟨rfl, pdo, rfl, hne⟩ | ⟨rest, rfl, before, pdo, rfl, hne⟩)
    · exact ⟨evs, pdo, rfl, hne⟩
    · exact ⟨before, pdo, by simp, hne⟩

/-! ## The abstract slave -/

/-- The abstract slave. `sinceChange` counts the ticks since the latest RxPDO
that differed from its predecessor; `enabled` and `stale` are the status bits
of the latest tick. -/
structure Spec where
  latest : Command
  ticks : Nat
  sinceChange : Option Nat
  enabled : Bool
  stale : Bool
deriving DecidableEq, Repr

/-- A change is stale from the 501st tick on; no change at all is stale. -/
def staleAge (age : Option Nat) : Bool := age.all (501 ≤ ·)

def Spec.receive (c : Command) (t : Spec) : Spec :=
  if c = t.latest then t else { t with latest := c, sinceChange := some 0 }

def Spec.tick (t : Spec) : Spec :=
  let age := t.sinceChange.map (· + 1)
  { t with
    ticks := t.ticks + 1
    sinceChange := age
    enabled := t.latest.controlFlags.getLsbD 0
    stale := staleAge age }

/-- The abstract slave as a machine; it publishes nothing of its own. -/
def spec : Machine Spec SlaveEvent SlaveOut where
  init := ⟨Command.zero, 0, none, false, true⟩
  boot := []
  step t
    | .outputMapping pdo => t.receive (RxPdo.command pdo)
    | .timerTick => t.tick
    | .application => t
    | .inputMapping => t
  emit _ _ := []

/-- The status word with these two bits. -/
def statusWord (enabled stale : Bool) : BitVec 16 :=
  (if enabled then galvoStatusEnabled else 0) ||| (if stale then galvoStatusStale else 0)

/-- The driver state `s` is the abstract slave `t`, with the frame counter
wrapped to 16 bits and the age saturated at `XY2_STALE_FRAMES`. -/
structure Refines (s : GalvoState) (t : Spec) : Prop where
  stores : s.Stores t.latest
  frameCounter : s.frameCounter = BitVec.ofNat 16 t.ticks
  status : s.status = statusWord t.enabled t.stale
  age : s.framesSinceUpdate.toNat = t.sinceChange.elim 500 (min 500)

/-- The tick's test of `control_flags` is bit 0. -/
theorem GalvoState.enabled_eq (s : GalvoState) : s.enabled = s.controlFlags.getLsbD 0 := by
  have hand : s.controlFlags &&& galvoControlEnable
      = BitVec.setWidth 16 (BitVec.ofBool (s.controlFlags.getLsbD 0)) :=
    BitVec.and_one_eq_setWidth_ofBool_getLsbD
  rw [GalvoState.enabled, hand]
  cases s.controlFlags.getLsbD 0 <;> decide

theorem refines_init : Refines galvoXY2Init spec.init :=
  ⟨⟨by decide, by decide, rfl, rfl⟩, rfl, by decide, rfl⟩

theorem Refines.receive {s : GalvoState} {t : Spec} (h : Refines s t) (c : Command) :
    Refines (galvoXY2SetTarget c.xCode c.yCode c.sequence c.controlFlags s) (t.receive c) := by
  by_cases hc : c = t.latest
  · rw [Spec.receive, if_pos hc, hc, setTarget_same h.stores]
    exact h
  · rw [Spec.receive, if_neg hc, setTarget_ne h.stores hc]
    exact ⟨⟨rfl, rfl, rfl, rfl⟩, h.frameCounter, h.status, rfl⟩

/-- The stale test of the tick is the age test of the abstract slave. -/
private theorem stale_iff {s : GalvoState} {t : Spec} (h : Refines s t) :
    s.framesSinceUpdate < xy2StaleFrames ↔ staleAge (t.sinceChange.map (· + 1)) = false := by
  have hlt : s.framesSinceUpdate < xy2StaleFrames ↔ s.framesSinceUpdate.toNat < 500 :=
    BitVec.lt_def
  rw [hlt, h.age]
  cases t.sinceChange with
  | none => simp [staleAge]
  | some n =>
      simp only [staleAge, Option.elim_some, Option.map_some, Option.all_some,
        decide_eq_false_iff_not]
      omega

/-- Both status bits are rebuilt; the status before the tick does not matter. -/
private theorem tick_status {s : GalvoState} {t : Spec} (h : Refines s t) :
    (galvoXY2TimerTick s).1.status = statusWord t.tick.enabled t.tick.stale := by
  have hstale := stale_iff h
  rw [galvoXY2TimerTick_fst]
  show (if s.enabled then galvoStatusEnabled else 0)
      ||| (if s.framesSinceUpdate < xy2StaleFrames then 0 else galvoStatusStale)
    = statusWord (t.latest.controlFlags.getLsbD 0) (staleAge (t.sinceChange.map (· + 1)))
  rw [GalvoState.enabled_eq, h.stores.controlFlags]
  cases hst : staleAge (t.sinceChange.map (· + 1)) with
  | true =>
      have hold : ¬ s.framesSinceUpdate < xy2StaleFrames := by
        intro hf
        rw [hstale.mp hf] at hst
        cases hst
      rw [if_neg hold]
      rfl
  | false =>
      have hfresh : s.framesSinceUpdate < xy2StaleFrames := hstale.mpr hst
      rw [if_pos hfresh]
      rfl

/-- The counter of the driver stops where the abstract age is cut off. -/
private theorem tick_age {s : GalvoState} {t : Spec} (h : Refines s t) :
    (galvoXY2TimerTick s).1.framesSinceUpdate.toNat = t.tick.sinceChange.elim 500 (min 500) := by
  have hage := h.age
  have hlt : s.framesSinceUpdate < xy2StaleFrames ↔ s.framesSinceUpdate.toNat < 500 :=
    BitVec.lt_def
  rw [galvoXY2TimerTick_fst]
  show (if s.framesSinceUpdate < xy2StaleFrames then s.framesSinceUpdate + 1
      else s.framesSinceUpdate).toNat = (t.sinceChange.map (· + 1)).elim 500 (min 500)
  cases hc : t.sinceChange with
  | none =>
      rw [hc] at hage
      have hage' : s.framesSinceUpdate.toNat = 500 := hage
      rw [if_neg (by rw [hlt]; omega)]
      exact hage
  | some n =>
      rw [hc] at hage
      have hage' : s.framesSinceUpdate.toNat = min 500 n := hage
      show _ = min 500 (n + 1)
      split
      · next hf =>
          rw [BitVec.toNat_add]
          show (s.framesSinceUpdate.toNat + 1) % 2 ^ 16 = min 500 (n + 1)
          rw [hlt] at hf
          omega
      · next hf =>
          rw [hlt] at hf
          omega

theorem Refines.tick {s : GalvoState} {t : Spec} (h : Refines s t) :
    Refines (galvoXY2TimerTick s).1 t.tick := by
  refine ⟨timerTick_stores h.stores, ?_, tick_status h, tick_age h⟩
  rw [galvoXY2TimerTick_fst]
  show s.frameCounter + 1 = BitVec.ofNat 16 (t.ticks + 1)
  rw [h.frameCounter, BitVec.ofNat_add]
  rfl

/-- One event of the application is one event of the abstract slave. -/
theorem Refines.step {d : Device} {t : Spec} (h : Refines d.galvo t) (e : SlaveEvent) :
    Refines (device.step d e).galvo (spec.step t e) := by
  cases e with
  | outputMapping pdo =>
      show Refines (applOutputMapping (pdOutputWords pdo) d).1.galvo _
      rw [applOutputMapping_galvo]
      exact h.receive (RxPdo.command pdo)
  | timerTick => exact h.tick
  | application => exact h
  | inputMapping => exact h

/-- **The application refines the abstract slave**, over every run. -/
theorem device_refines_spec (evs : List SlaveEvent) :
    Refines (device.run evs).galvo (spec.run evs) :=
  device.run_simulation (R := fun d t => Refines d.galvo t) refines_init
    (fun _ _ e h => h.step e) evs

/-! ## The abstract slave is the history -/

/-- The components of the abstract slave, read off the events: `age` says that
`sinceChange` is the smallest age of a change. -/
structure Recounts (evs : List SlaveEvent) (t : Spec) : Prop where
  latest : t.latest = latestRx evs
  ticks : t.ticks = ticks evs
  age : ∀ k, (∀ later, Changed evs later → k ≤ Slave.ticks later)
    ↔ ∀ n ∈ t.sinceChange, k ≤ n

theorem recounts_init : Recounts [] spec.init :=
  ⟨rfl, rfl, fun k => by simp [Changed, spec]⟩

/-- An event that is neither a change nor a tick leaves all ages alone. -/
private theorem age_snoc_other {evs : List SlaveEvent} {e : SlaveEvent} {k : Nat}
    (hsame : ∀ pdo, e = .outputMapping pdo → RxPdo.command pdo = latestRx evs)
    (htick : ticks [e] = 0) :
    (∀ later, Changed (evs ++ [e]) later → k ≤ ticks later)
      ↔ ∀ later, Changed evs later → k ≤ ticks later := by
  constructor
  · intro h later hc
    have := h (later ++ [e]) (changed_snoc.mpr (.inr ⟨later, rfl, hc⟩))
    rwa [ticks_append, htick] at this
  · intro h later hc
    rcases changed_snoc.mp hc with ⟨_, pdo, he, hne⟩ | ⟨rest, rfl, hc'⟩
    · exact absurd (hsame pdo he) hne
    · rw [ticks_append, htick]
      exact h rest hc'

theorem Recounts.receive {evs : List SlaveEvent} {t : Spec} (h : Recounts evs t)
    (pdo : RxPdo) :
    Recounts (evs ++ [.outputMapping pdo]) (t.receive (RxPdo.command pdo)) := by
  by_cases hc : RxPdo.command pdo = t.latest
  · rw [Spec.receive, if_pos hc]
    refine ⟨?_, ?_, ?_⟩
    · rw [latestRx_snoc]
      exact hc.symm
    · rw [ticks_append, h.ticks]
      rfl
    · intro k
      rw [← h.age k, age_snoc_other ?_ rfl]
      intro p hp
      cases hp
      rw [hc, h.latest]
  · rw [Spec.receive, if_neg hc]
    refine ⟨?_, ?_, ?_⟩
    · rw [latestRx_snoc]
      rfl
    · rw [ticks_append]
      exact h.ticks
    · intro k
      -- the newest change has age 0, so only `k = 0` bounds them all
      have hnew : Changed (evs ++ [.outputMapping pdo]) [] :=
        changed_snoc.mpr (.inl ⟨rfl, pdo, rfl, by rwa [← h.latest]⟩)
      constructor
      · intro hk n hn
        obtain rfl : n = 0 := by simpa using hn.symm
        exact hk [] hnew
      · intro hk later _
        have : k ≤ 0 := hk 0 rfl
        omega

theorem Recounts.tick {evs : List SlaveEvent} {t : Spec} (h : Recounts evs t) :
    Recounts (evs ++ [.timerTick]) t.tick := by
  refine ⟨?_, ?_, ?_⟩
  · rw [latestRx_snoc]
    exact h.latest
  · rw [ticks_append]
    exact congrArg (· + 1) h.ticks
  · intro k
    -- all ages grow by one: `k` bounds them now if `k - 1` did before
    have hage := h.age (k - 1)
    have hone : Slave.ticks [SlaveEvent.timerTick] = 1 := rfl
    constructor
    · intro hk n hn
      obtain ⟨m, hm, rfl⟩ : ∃ m, t.sinceChange = some m ∧ m + 1 = n := by
        simpa [Spec.tick] using hn
      have := hage.mp ?_ m hm
      · omega
      · intro later hc
        have := hk (later ++ [.timerTick]) (changed_snoc.mpr (.inr ⟨later, rfl, hc⟩))
        rw [ticks_append, hone] at this
        omega
    · intro hk later hc
      rcases changed_snoc.mp hc with ⟨_, pdo, he, _⟩ | ⟨rest, rfl, hc'⟩
      · cases he
      · have := hage.mpr ?_ rest hc'
        · rw [ticks_append, hone]
          omega
        · intro n hn
          have := hk (n + 1) (by simpa [Spec.tick] using hn)
          omega

theorem spec_recounts (evs : List SlaveEvent) : Recounts evs (spec.run evs) := by
  refine spec.run_history recounts_init ?_ evs
  intro evs t e h
  cases e with
  | outputMapping pdo => exact h.receive pdo
  | timerTick => exact h.tick
  | application =>
      exact ⟨by rw [latestRx_snoc]; exact h.latest, by rw [ticks_append]; exact h.ticks,
        fun k => by rw [age_snoc_other (by simp) rfl]; exact h.age k⟩
  | inputMapping =>
      exact ⟨by rw [latestRx_snoc]; exact h.latest, by rw [ticks_append]; exact h.ticks,
        fun k => by rw [age_snoc_other (by simp) rfl]; exact h.age k⟩

/-! ## The observables -/

/-- The driver status moves only on ticks. -/
theorem status_of_no_tick {evs : List SlaveEvent} (h : ticks evs = 0) (d : Device) :
    (device.runFrom d evs).galvo.status = d.galvo.status := by
  induction evs generalizing d with
  | nil => rfl
  | cons e evs ih =>
      have hsplit : ticks [e] + ticks evs = 0 := by
        rw [← ticks_append]
        exact h
      rw [Machine.runFrom_cons, ih (by omega)]
      cases e with
      | outputMapping pdo =>
          show (applOutputMapping (pdOutputWords pdo) d).1.galvo.status = _
          rw [applOutputMapping_galvo]
          show (galvoXY2SetTarget ..).status = _
          unfold galvoXY2SetTarget
          split <;> rfl
      | timerTick => exact absurd hsplit (by simp [ticks, SlaveEvent.isTick])
      | application => rfl
      | inputMapping => rfl

/-- What `APPL_Application` and `APPL_InputMapping` publish: the driver's
status, sequence number and frame counter. -/
theorem published (d : Device) :
    (device.traceFrom d [.application, .inputMapping]).filterMap SlaveOut.txPdo? =
      [[d.galvo.status, d.galvo.sequence, d.galvo.frameCounter]] := rfl

theorem statusWord_enabled (e s : Bool) :
    statusWord e s &&& galvoStatusEnabled ≠ 0 ↔ e = true := by
  cases e <;> cases s <;> decide

theorem statusWord_stale (e s : Bool) :
    statusWord e s &&& galvoStatusStale ≠ 0 ↔ s = true := by
  cases e <;> cases s <;> decide

/-- **The slave as the master sees it**, after every run `evs`.

1. Whatever RxPDO comes next is stored whole, field by field.
2. The TxPDO published next carries the sequence number of the latest RxPDO,
   the number of ticks modulo 2^16, and the status of the latest tick, which is
   `STALE` alone before the first one.
3. The tick coming next reports `ENABLED` iff bit 0 of the latest control flags
   is set, and `STALE` iff every change of the RxPDO is at least 501 ticks old
   (or there was none). -/
theorem slave_observables (evs : List SlaveEvent) :
    (∀ pdo : RxPdo,
      let g := (device.run (evs ++ [.outputMapping pdo])).galvo
      g.targetX = (pdo 1 ++ pdo 0).toInt ∧ g.targetY = (pdo 3 ++ pdo 2).toInt
        ∧ g.sequence = pdo 5 ++ pdo 4 ∧ g.controlFlags = pdo 7 ++ pdo 6)
    ∧ (∃ status,
        (device.traceFrom (device.run evs) [.application, .inputMapping]).filterMap
            SlaveOut.txPdo?
          = [[status, (latestRx evs).sequence, BitVec.ofNat 16 (ticks evs)]]
        ∧ (ticks evs = 0 → status = galvoStatusStale)
        ∧ ∀ before later, evs = before ++ .timerTick :: later → ticks later = 0 →
            status = (device.run (before ++ [.timerTick])).galvo.status)
    ∧ (let status := (device.run (evs ++ [.timerTick])).galvo.status
      (status &&& galvoStatusEnabled ≠ 0 ↔ (latestRx evs).controlFlags.getLsbD 0 = true)
      ∧ (status &&& galvoStatusStale ≠ 0 ↔
          ∀ later, Changed (evs ++ [.timerTick]) later → 501 ≤ ticks later)) := by
  have href := device_refines_spec evs
  have hrec := spec_recounts evs
  refine ⟨?_, ⟨(device.run evs).galvo.status, ?_, ?_, ?_⟩, ?_, ?_⟩
  · intro pdo
    have hstores := setTarget_stores href.stores (RxPdo.command pdo)
    rw [Machine.run_snoc]
    show _ ∧ _
    simp only [device, applOutputMapping_galvo]
    exact ⟨hstores.targetX, hstores.targetY, hstores.sequence, hstores.controlFlags⟩
  · rw [published, href.stores.sequence, href.frameCounter, hrec.latest, hrec.ticks]
  · intro h0
    exact status_of_no_tick h0 device.init
  · rintro before later rfl h0
    -- no tick came after this one, so its status is still there
    rw [show before ++ SlaveEvent.timerTick :: later = before ++ [.timerTick] ++ later from by
      simp, Machine.run_append, status_of_no_tick h0]
  · rw [(device_refines_spec (evs ++ [SlaveEvent.timerTick])).status, statusWord_enabled,
      Machine.run_snoc]
    show (spec.run evs).latest.controlFlags.getLsbD 0 = true ↔ _
    rw [hrec.latest]
  · rw [(device_refines_spec (evs ++ [SlaveEvent.timerTick])).status, statusWord_stale,
      (spec_recounts (evs ++ [SlaveEvent.timerTick])).age 501, Machine.run_snoc]
    show staleAge ((spec.run evs).sinceChange.map (· + 1)) = true ↔
      ∀ n ∈ (spec.run evs).sinceChange.map (· + 1), 501 ≤ n
    cases (spec.run evs).sinceChange <;> simp [staleAge]

end GalvoCtrl.Slave
