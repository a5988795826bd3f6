import GalvoCtrl.Lib.Streak
import GalvoCtrl.Master.SendLoop

/-!
# Master — LostFrames

The counters of the send loop over a whole run of `run_trajectory`. The state after `n`
exchanges is a function of the working counters alone, whatever passes they fall into;
so the loop stops at the first row of `max_lost_frames` lost frames and nowhere else,
also where such a row begins in one pass and ends in the next.
-/

namespace GalvoCtrl.Master

open GalvoCtrl.Lib

/-! ## Watching the loop -/

section Loop

variable (opt : Options) (wkc : Nat → Int)

/-- The states of `sendPass` after each exchange. -/
def passStates : List (Sample ℚ) → LoopState → List LoopState
  | [], _ => []
  | sample :: rest, s =>
      let s := sendSample opt sample (wkc s.sent.length) s
      if s.stopped then [s] else s :: passStates rest s

/-- The states of `sendPasses` after each exchange. -/
def passesStates (samples : List (Sample ℚ)) : (fuel : Nat) → LoopState → List LoopState
  | 0, _ => []
  | fuel + 1, s =>
      let next := sendPass opt wkc samples s
      if next.stopped || !opt.repeatCsv then passStates opt wkc samples s
      else passStates opt wkc samples s ++ passesStates samples fuel next

/-- The state in which `sendPasses` returns, if it does so within `fuel` passes. -/
def sendPassesResult (samples : List (Sample ℚ)) : (fuel : Nat) → LoopState → Option LoopState
  | 0, _ => none
  | fuel + 1, s =>
      let s := sendPass opt wkc samples s
      if s.stopped || !opt.repeatCsv then some s else sendPassesResult samples fuel s

end Loop

/-- The states of `run_trajectory` after each exchange, in `fuel` passes. -/
def trajectoryStates (samples : List (Sample ℚ)) (opt : Options) (wkc : Nat → Int)
    (fuel : Nat) : List LoopState := passesStates opt wkc samples fuel .start

/-- The state in which `run_trajectory` returns, if it does so within `fuel` passes. -/
def trajectoryResult (samples : List (Sample ℚ)) (opt : Options) (wkc : Nat → Int)
    (fuel : Nat) : Option LoopState := sendPassesResult opt wkc samples fuel .start

/-! ## The state after `n` exchanges -/

/-- Exchange `n` got nothing back. -/
def Lost (wkc : Nat → Int) (n : Nat) : Prop := wkc n ≤ 0

instance (wkc : Nat → Int) : DecidablePred (Lost wkc) := fun n =>
  inferInstanceAs (Decidable (wkc n ≤ 0))

/-- How many of the first `n` exchanges got nothing back. -/
def lostAmong (wkc : Nat → Int) (n : Nat) : Nat := Nat.count (Lost wkc) n

/-- The exchanges up to `n` end in `max_lost_frames` lost ones. -/
def LossRow (opt : Options) (wkc : Nat → Int) (n : Nat) : Prop :=
  InRow (Lost wkc) opt.maxLostFrames.toNat n

/-- They do so at `n` for the first time. -/
def FirstLossRow (opt : Options) (wkc : Nat → Int) (n : Nat) : Prop :=
  FirstInRow (Lost wkc) opt.maxLostFrames.toNat n

/-- Everything about the state after `n` exchanges. -/
structure LoopAfter (samples : List (Sample ℚ)) (opt : Options) (wkc : Nat → Int) (n : Nat)
    (s : LoopState) : Prop where
  inOrder : SendsInOrder samples opt s
  length : s.sent.length = n
  lostInRow : s.lostInRow = streak (Lost wkc) n
  totalLost : s.totalLost = toInt32 (lostAmong wkc n)
  earlier : ∀ k, k + 1 < n → ¬LossRow opt wkc k
  stopped : s.stopped = true ↔ ∃ k, n = k + 1 ∧ LossRow opt wkc k

variable {samples : List (Sample ℚ)} {opt : Options} {wkc : Nat → Int}

theorem loopAfter_start : LoopAfter samples opt wkc 0 .start where
  inOrder := ⟨rfl, by simp [LoopState.start]⟩
  length := rfl
  lostInRow := rfl
  totalLost := by
    rw [lostAmong, Nat.count_zero]
    exact Int.zero_bmod.symm
  earlier k hk := absurd hk (Nat.not_lt_zero _)
  stopped := by simp [LoopState.start]

/-- What the loop body does with the working counter. -/
theorem sendSample_counters (opt : Options) (sample : Sample ℚ) (w : Int) {s : LoopState}
    (hgoing : s.stopped = false) :
    (sendSample opt sample w s).lostInRow = (if w ≤ 0 then s.lostInRow + 1 else 0)
      ∧ (sendSample opt sample w s).totalLost
        = (if w ≤ 0 then toInt32 (s.totalLost + 1) else s.totalLost)
      ∧ ((sendSample opt sample w s).stopped = true
        ↔ w ≤ 0 ∧ opt.maxLostFrames ≤ s.lostInRow + 1) := by
  unfold sendSample
  dsimp only
  by_cases hw : w ≤ 0
  · rw [if_pos hw, if_pos hw, if_pos hw]
    by_cases hmax : s.lostInRow + 1 ≥ opt.maxLostFrames
    · rw [if_pos hmax]
      exact ⟨rfl, rfl, fun _ => ⟨hw, hmax⟩, fun _ => rfl⟩
    · rw [if_neg hmax]
      refine ⟨rfl, rfl, ?_, fun h => absurd h.2 hmax⟩
      intro hstop
      rw [hgoing] at hstop
      cases hstop
  · rw [if_neg hw, if_neg hw, if_neg hw]
    refine ⟨rfl, rfl, ?_, fun h => absurd h.1 hw⟩
    intro hstop
    rw [hgoing] at hstop
    cases hstop

theorem toInt32_add_one (z : Int) : toInt32 (toInt32 z + 1) = toInt32 (z + 1) :=
  Int.bmod_add_bmod

/-- The loop is still going after `n` exchanges: no row of losses has been complete. -/
theorem LoopAfter.not_lossRow {n : Nat} {s : LoopState} (h : LoopAfter samples opt wkc n s)
    (hgoing : s.stopped = false) {k : Nat} (hk : k < n) : ¬LossRow opt wkc k := by
  rcases Nat.lt_or_ge (k + 1) n with hlt | hge
  · exact h.earlier k hlt
  · intro hrow
    rw [h.stopped.mpr ⟨k, by omega, hrow⟩] at hgoing
    cases hgoing

/-- **One exchange.** -/
theorem LoopAfter.sendSample (hmax : 0 < opt.maxLostFrames) {n : Nat} {s : LoopState}
    (h : LoopAfter samples opt wkc n s) (hgoing : s.stopped = false) {sample : Sample ℚ}
    (hnext : samples[n % samples.length]? = some sample) :
    LoopAfter samples opt wkc (n + 1) (sendSample opt sample (wkc s.sent.length) s) := by
  obtain ⟨hrow, htotal, hstop⟩ := sendSample_counters opt sample (wkc s.sent.length) hgoing
  have hlength := h.length
  rw [hlength] at hrow htotal hstop ⊢
  constructor
  · exact h.inOrder.sendSample (by rwa [hlength]) _
  · rw [(sendSample_sent ..).1, List.length_append, hlength]
    rfl
  · rw [hrow, h.lostInRow, streak]
    split_ifs with h₁ h₂ h₂
    · norm_cast
    · exact absurd h₁ h₂
    · exact absurd h₂ h₁
    · rfl
  · rw [htotal, h.totalLost, lostAmong, lostAmong, Nat.count_succ]
    split_ifs with h₁ h₂ h₂
    · exact toInt32_add_one _
    · exact absurd h₁ h₂
    · exact absurd h₂ h₁
    · rfl
  · intro k hk
    exact h.not_lossRow hgoing (by omega)
  · rw [hstop, h.lostInRow]
    constructor
    · intro ⟨hlost, hreach⟩
      refine ⟨n, rfl, inRow_iff.mpr ?_⟩
      rw [streak_succ_of (p := Lost wkc) hlost]
      omega
    · rintro ⟨k, hk, hlossRow⟩
      obtain rfl : n = k := by omega
      have hreach := inRow_iff.mp hlossRow
      by_cases hlost : Lost wkc n
      · rw [streak_succ_of hlost] at hreach
        exact ⟨hlost, by omega⟩
      · rw [streak_succ_of_not hlost] at hreach
        omega

/-! ## Runs -/

/-- With `n` exchanges behind it the loop goes through `states` and is left in `s`; there
are `m` more exchanges if nothing stops it. -/
structure StatesAfter (samples : List (Sample ℚ)) (opt : Options) (wkc : Nat → Int) (n : Nat)
    (states : List LoopState) (s : LoopState) (m : Nat) : Prop where
  each : ∀ (i : Nat) (t : LoopState), states[i]? = some t → LoopAfter samples opt wkc (n + i + 1) t
  last : LoopAfter samples opt wkc (n + states.length) s
  full : s.stopped = false → states.length = m

theorem LoopAfter.states_nil {n : Nat} {s : LoopState} (h : LoopAfter samples opt wkc n s) :
    StatesAfter samples opt wkc n [] s 0 where
  each i t ht := by cases ht
  last := h
  full _ := rfl

/-- An exchange that stops the loop. -/
theorem LoopAfter.states_stopped {n m : Nat} {s : LoopState}
    (h : LoopAfter samples opt wkc (n + 1) s) (hstop : s.stopped = true) :
    StatesAfter samples opt wkc n [s] s m where
  each i t ht := by
    cases i with
    | zero =>
        obtain rfl := Option.some.inj ht
        exact h
    | succ i => cases ht
  last := h
  full hgoing := by
    rw [hstop] at hgoing
    cases hgoing

/-- One exchange before the others. -/
theorem StatesAfter.cons {n m : Nat} {s s' : LoopState} {states : List LoopState}
    (h : LoopAfter samples opt wkc (n + 1) s)
    (hrest : StatesAfter samples opt wkc (n + 1) states s' m) :
    StatesAfter samples opt wkc n (s :: states) s' (m + 1) where
  each i t ht := by
    cases i with
    | zero =>
        obtain rfl := Option.some.inj ht
        exact h
    | succ i =>
        rw [← Nat.add_assoc, Nat.add_right_comm n i 1]
        exact hrest.each i t ht
  last := by
    rw [List.length_cons, Nat.add_comm states.length, ← Nat.add_assoc]
    exact hrest.last
  full hgoing := by rw [List.length_cons, hrest.full hgoing]

/-- A whole pass before the others. -/
theorem StatesAfter.append {n m m' : Nat} {s s' : LoopState} {states states' : List LoopState}
    (h : StatesAfter samples opt wkc n states s m) (hgoing : s.stopped = false)
    (hrest : StatesAfter samples opt wkc (n + m) states' s' m') :
    StatesAfter samples opt wkc n (states ++ states') s' (m + m') := by
  have hlength := h.full hgoing
  constructor
  · intro i t ht
    rcases Nat.lt_or_ge i states.length with hi | hi
    · rw [List.getElem?_append_left hi] at ht
      exact h.each i t ht
    · rw [List.getElem?_append_right hi, hlength] at ht
      have ht' := hrest.each _ t ht
      rwa [show n + m + (i - m) + 1 = n + i + 1 from by omega] at ht'
  · rw [List.length_append, hlength, ← Nat.add_assoc]
    exact hrest.last
  · intro hlast
    rw [List.length_append, hlength, hrest.full hlast]

/-- **The rest of a pass**, with `k` passes and the samples `done` behind it. -/
theorem LoopAfter.sendPass (hmax : 0 < opt.maxLostFrames) {k : Nat} {rest : List (Sample ℚ)} :
    ∀ (done : List (Sample ℚ)) (s : LoopState), samples = done ++ rest →
      LoopAfter samples opt wkc (k * samples.length + done.length) s → s.stopped = false →
      StatesAfter samples opt wkc (k * samples.length + done.length)
        (passStates opt wkc rest s) (Master.sendPass opt wkc rest s) rest.length := by
  induction rest with
  | nil =>
      intro done s _ h _
      exact h.states_nil
  | cons sample rest ih =>
      intro done s hsplit h hgoing
      have hlt : done.length < samples.length := by
        rw [hsplit, List.length_append, List.length_cons]
        omega
      have hnext : samples[(k * samples.length + done.length) % samples.length]?
          = some sample := by
        rw [Nat.mul_comm, Nat.mul_add_mod, Nat.mod_eq_of_lt hlt, hsplit,
          List.getElem?_append_right (Nat.le_refl _), Nat.sub_self]
        rfl
      have hstep := h.sendSample hmax hgoing hnext
      rw [passStates, Master.sendPass]
      by_cases hstop : (Master.sendSample opt sample (wkc s.sent.length) s).stopped = true
      · rw [if_pos hstop, if_pos hstop]
        exact hstep.states_stopped hstop
      · rw [if_neg hstop, if_neg hstop]
        rw [Bool.not_eq_true] at hstop
        have hdone : k * samples.length + (done ++ [sample]).length
            = k * samples.length + done.length + 1 := by
          rw [List.length_append]
          rfl
        have hrest := ih (done ++ [sample]) _ (by rw [hsplit]; simp) (by rwa [hdone]) hstop
        rw [hdone] at hrest
        exact hrest.cons hstep

/-- How many exchanges there are in `fuel` passes that nothing stops. -/
def exchangesIn (samples : List (Sample ℚ)) (opt : Options) (fuel : Nat) : Nat :=
  if opt.repeatCsv then fuel * samples.length else min fuel 1 * samples.length

/-- **Any number of passes**, `k` of them behind. -/
theorem LoopAfter.sendPasses (hmax : 0 < opt.maxLostFrames) (fuel : Nat) :
    ∀ (k : Nat) (s : LoopState), LoopAfter samples opt wkc (k * samples.length) s →
      s.stopped = false →
      StatesAfter samples opt wkc (k * samples.length) (passesStates opt wkc samples fuel s)
        (Master.sendPasses opt wkc samples fuel s) (exchangesIn samples opt fuel) := by
  induction fuel with
  | zero =>
      intro k s h _
      have hzero : exchangesIn samples opt 0 = 0 := by simp [exchangesIn]
      rw [hzero]
      exact h.states_nil
  | succ fuel ih =>
      intro k s h hgoing
      have hpass := LoopAfter.sendPass hmax [] s (List.nil_append samples).symm h hgoing
      rw [passesStates, Master.sendPasses]
      by_cases hend : ((Master.sendPass opt wkc samples s).stopped || !opt.repeatCsv) = true
      · rw [if_pos hend, if_pos hend]
        refine ⟨hpass.each, hpass.last, ?_⟩
        intro hstop
        rw [hstop, Bool.false_or, Bool.not_eq_true'] at hend
        rw [hpass.full hstop, exchangesIn, if_neg (by simp [hend]), Nat.min_eq_right (by omega),
          Nat.one_mul]
      · rw [if_neg hend, if_neg hend]
        rw [Bool.or_eq_true, not_or, Bool.not_eq_true, Bool.not_eq_true', Bool.not_eq_false]
          at hend
        have hlast := hpass.last
        rw [List.length_nil, Nat.add_zero, hpass.full hend.1, ← Nat.succ_mul] at hlast
        have hrest := ih (k + 1) _ hlast hend.1
        have hcount : exchangesIn samples opt (fuel + 1)
            = samples.length + exchangesIn samples opt fuel := by
          rw [exchangesIn, exchangesIn, if_pos hend.2, if_pos hend.2, Nat.succ_mul, Nat.add_comm]
        rw [Nat.succ_mul] at hrest
        rw [hcount]
        exact hpass.append hend.1 hrest

/-- The run watched state by state is the run. -/
theorem passStates_getLastD (opt : Options) (wkc : Nat → Int) (rest : List (Sample ℚ))
    (s : LoopState) : (passStates opt wkc rest s).getLastD s = Master.sendPass opt wkc rest s := by
  induction rest generalizing s with
  | nil => rfl
  | cons sample rest ih =>
      rw [passStates, Master.sendPass]
      split
      · rfl
      · rw [List.getLastD_cons, ih]

theorem passesStates_getLastD (samples : List (Sample ℚ)) (opt : Options) (wkc : Nat → Int)
    (fuel : Nat) (s : LoopState) :
    (passesStates opt wkc samples fuel s).getLastD s
      = Master.sendPasses opt wkc samples fuel s := by
  induction fuel generalizing s with
  | zero => rfl
  | succ fuel ih =>
      rw [passesStates, Master.sendPasses]
      split
      · exact passStates_getLastD opt wkc samples s
      · rw [List.getLastD_eq_getLast?, List.getLast?_append, Option.getD_or,
          ← List.getLastD_eq_getLast?, ← List.getLastD_eq_getLast?, passStates_getLastD, ih]

/-- **The loop returns** when it has been stopped or is not to repeat. -/
theorem sendPassesResult_eq (samples : List (Sample ℚ)) (opt : Options) (wkc : Nat → Int)
    (fuel : Nat) (s : LoopState) :
    sendPassesResult opt wkc samples (fuel + 1) s
      = if (Master.sendPasses opt wkc samples (fuel + 1) s).stopped || !opt.repeatCsv then
          some (Master.sendPasses opt wkc samples (fuel + 1) s)
        else none := by
  induction fuel generalizing s with
  | zero =>
      rw [sendPassesResult, Master.sendPasses]
      by_cases hend : ((Master.sendPass opt wkc samples s).stopped || !opt.repeatCsv) = true
      · rw [if_pos hend, if_pos hend, if_pos hend]
      · rw [if_neg hend, if_neg hend]
        exact (if_neg hend).symm
  | succ fuel ih =>
      rw [sendPassesResult, Master.sendPasses]
      by_cases hend : ((Master.sendPass opt wkc samples s).stopped || !opt.repeatCsv) = true
      · rw [if_pos hend, if_pos hend, if_pos hend]
      · rw [if_neg hend, if_neg hend, ih]

/-- `run_trajectory` returns in `s`, after `n` exchanges. -/
def Returns (samples : List (Sample ℚ)) (opt : Options) (wkc : Nat → Int) (n : Nat)
    (s : LoopState) : Prop :=
  ∃ fuel, trajectoryResult samples opt wkc fuel = some s
    ∧ (trajectoryStates samples opt wkc fuel).length = n
    ∧ (trajectoryStates samples opt wkc fuel).getLast? = some s

/-- **The whole run**, of `fuel` passes. -/
theorem trajectory_after (samples : List (Sample ℚ)) (wkc : Nat → Int)
    (hmax : 0 < opt.maxLostFrames) (fuel : Nat) :
    (∀ (n : Nat) (s : LoopState), (trajectoryStates samples opt wkc fuel)[n]? = some s →
        LoopAfter samples opt wkc (n + 1) s)
      ∧ LoopAfter samples opt wkc (trajectoryStates samples opt wkc fuel).length
          (runTrajectory samples opt wkc fuel)
      ∧ ((runTrajectory samples opt wkc fuel).stopped = false →
        (trajectoryStates samples opt wkc fuel).length = exchangesIn samples opt fuel) := by
  have hstart : LoopAfter samples opt wkc (0 * samples.length) .start := by
    rw [Nat.zero_mul]
    exact loopAfter_start
  obtain ⟨heach, hlast, hfull⟩ := LoopAfter.sendPasses hmax fuel 0 .start hstart rfl
  simp only [Nat.zero_mul, Nat.zero_add] at heach hlast
  exact ⟨heach, hlast, hfull⟩

/-- What has stopped it. -/
theorem LoopAfter.exists_firstLossRow {n : Nat} {s : LoopState}
    (h : LoopAfter samples opt wkc n s) (hstop : s.stopped = true) :
    ∃ k, n = k + 1 ∧ FirstLossRow opt wkc k := by
  obtain ⟨k, hk, hrow⟩ := h.stopped.mp hstop
  exact ⟨k, hk, hrow, fun j hj => h.earlier j (by omega)⟩

/-- A loop that has ended returns. -/
theorem returns_of_ended {fuel : Nat}
    (hend : (runTrajectory samples opt wkc (fuel + 1)).stopped = true ∨ opt.repeatCsv = false)
    (hne : trajectoryStates samples opt wkc (fuel + 1) ≠ []) :
    Returns samples opt wkc (trajectoryStates samples opt wkc (fuel + 1)).length
      (runTrajectory samples opt wkc (fuel + 1)) := by
  refine ⟨fuel + 1, ?_, rfl, ?_⟩
  · rw [trajectoryResult, sendPassesResult_eq]
    refine if_pos ?_
    rcases hend with hstop | hrepeat
    · rw [runTrajectory] at hstop
      rw [hstop, Bool.true_or]
    · rw [hrepeat, Bool.not_false, Bool.or_true]
  · have hlast := passesStates_getLastD samples opt wkc (fuel + 1) .start
    rw [← trajectoryStates, List.getLastD_eq_getLast?, List.getLast?_eq_some_getLast hne,
      Option.getD_some] at hlast
    rw [List.getLast?_eq_some_getLast hne, hlast]
    rfl

/-- A row of losses within reach of `fuel` passes stops the loop there. -/
theorem stopped_of_firstLossRow (hmax : 0 < opt.maxLostFrames) {fuel n : Nat}
    (hfirst : FirstLossRow opt wkc n) (hn : n < exchangesIn samples opt fuel) :
    (runTrajectory samples opt wkc fuel).stopped = true
      ∧ (trajectoryStates samples opt wkc fuel).length = n + 1 := by
  obtain ⟨_, hlast, hfull⟩ := trajectory_after samples wkc hmax fuel
  by_cases hstop : (runTrajectory samples opt wkc fuel).stopped = true
  · obtain ⟨k, hk, hfirst'⟩ := hlast.exists_firstLossRow hstop
    rw [hfirst.unique hfirst']
    exact ⟨hstop, hk⟩
  · rw [Bool.not_eq_true] at hstop
    rw [hfull hstop] at hlast
    exact absurd hfirst.1 (hlast.not_lossRow hstop hn)

theorem LoopAfter.firstLossRow_iff {n : Nat} {s : LoopState}
    (h : LoopAfter samples opt wkc (n + 1) s) : s.stopped = true ↔ FirstLossRow opt wkc n := by
  constructor
  · intro hstop
    obtain ⟨k, hk, hfirst⟩ := h.exists_firstLossRow hstop
    obtain rfl : n = k := by omega
    exact hfirst
  · intro hfirst
    exact h.stopped.mpr ⟨n, rfl, hfirst.1⟩

/-- An `int` holds a count up to its largest value. -/
theorem toInt32_natCast_iff (n : Nat) : toInt32 n = n ↔ n < 2 ^ 31 := by
  constructor
  · intro h
    have hlt : toInt32 n < ((2 ^ 32 : Nat) + 1) / 2 := Int.bmod_lt (by decide)
    rw [h] at hlt
    norm_num at hlt
    omega
  · intro h
    refine Int.bmod_eq_of_le ?_ ?_
    · norm_num
    · norm_num
      omega

theorem length_passStates_le (opt : Options) (wkc : Nat → Int) (rest : List (Sample ℚ))
    (s : LoopState) : (passStates opt wkc rest s).length ≤ rest.length := by
  induction rest generalizing s with
  | nil => exact Nat.le_refl 0
  | cons sample rest ih =>
      rw [passStates]
      split
      · simp
      · rw [List.length_cons, List.length_cons]
        exact Nat.succ_le_succ (ih _)

/-- Without repetition there is one pass. -/
theorem trajectoryStates_one (samples : List (Sample ℚ)) (opt : Options) (wkc : Nat → Int) :
    trajectoryStates samples opt wkc 1 = passStates opt wkc samples .start := by
  rw [trajectoryStates, passesStates]
  split
  · rfl
  · exact List.append_nil _

theorem exchangesIn_pos (hne : samples ≠ []) {n : Nat}
    (hn : opt.repeatCsv = true ∨ n < samples.length) : n < exchangesIn samples opt (n + 1) := by
  have hlength := List.length_pos_iff.mpr hne
  unfold exchangesIn
  split
  · calc n < (n + 1) * 1 := by omega
      _ ≤ (n + 1) * samples.length := Nat.mul_le_mul_left _ hlength
  · next hrepeat =>
      rw [Nat.min_eq_right (by omega), Nat.one_mul]
      exact hn.resolve_left hrepeat

/-- The loop returns behind the row that stops it, -/
theorem returns_of_firstLossRow (hmax : 0 < opt.maxLostFrames) {n : Nat}
    (hfirst : FirstLossRow opt wkc n) (hn : n < exchangesIn samples opt (n + 1)) :
    ∃ s, Returns samples opt wkc (n + 1) s ∧ s.stopped = true := by
  obtain ⟨hstop, hlength⟩ := stopped_of_firstLossRow hmax hfirst hn
  have hsome : trajectoryStates samples opt wkc (n + 1) ≠ [] := by
    rw [← List.length_pos_iff, hlength]
    omega
  have hreturns := returns_of_ended (Or.inl hstop) hsome
  rw [hlength] at hreturns
  exact ⟨_, hreturns, hstop⟩

/-- behind its only pass, -/
theorem returns_of_one_pass (hne : samples ≠ []) (hmax : 0 < opt.maxLostFrames)
    (hrepeat : opt.repeatCsv = false) (hnone : ∀ n < samples.length, ¬FirstLossRow opt wkc n) :
    ∃ s, Returns samples opt wkc samples.length s ∧ s.stopped = false := by
  obtain ⟨_, hlast, hfull⟩ := trajectory_after samples wkc hmax 1
  have hgoing : (runTrajectory samples opt wkc 1).stopped = false := by
    rw [← Bool.not_eq_true]
    intro hstop
    obtain ⟨k, hk, hfirst⟩ := hlast.exists_firstLossRow hstop
    have hle := length_passStates_le opt wkc samples .start
    rw [← trajectoryStates_one, hk] at hle
    exact hnone k hle hfirst
  have hlength : (trajectoryStates samples opt wkc 1).length = samples.length := by
    rw [hfull hgoing, exchangesIn, if_neg (by simp [hrepeat]), Nat.min_self, Nat.one_mul]
  have hsome : trajectoryStates samples opt wkc (0 + 1) ≠ [] := by
    rw [← List.length_pos_iff, hlength]
    exact List.length_pos_iff.mpr hne
  have hreturns := returns_of_ended (Or.inr hrepeat) hsome
  rw [hlength] at hreturns
  exact ⟨_, hreturns, hgoing⟩

/-- or never. -/
theorem not_returns_of_repeat (hmax : 0 < opt.maxLostFrames) (hrepeat : opt.repeatCsv = true)
    (hnone : ∀ n, ¬FirstLossRow opt wkc n) (n : Nat) (s : LoopState) :
    ¬Returns samples opt wkc n s := by
  rintro ⟨fuel, hresult, _⟩
  cases fuel with
  | zero => cases hresult
  | succ fuel =>
      rw [trajectoryResult, sendPassesResult_eq, hrepeat, Bool.not_true, Bool.or_false] at hresult
      split at hresult
      · next hstop =>
          obtain ⟨_, hlast, _⟩ := trajectory_after samples wkc hmax (fuel + 1)
          obtain ⟨k, _, hfirst⟩ := hlast.exists_firstLossRow hstop
          exact hnone k hfirst
      · cases hresult

/-- **The send loop, exchange by exchange.** It sends the samples round and round under
consecutive numbers; it stops right behind the first row of `max_lost_frames` lost
frames, and otherwise at the end of the only pass or never; and it counts its losses
rightly exactly as long as there are fewer than `2 ^ 31`. -/
theorem runTrajectory_exchanges (samples : List (Sample ℚ)) (opt : Options) (wkc : Nat → Int)
    (hne : samples ≠ []) (hmax : 0 < opt.maxLostFrames) :
    (∀ (fuel n : Nat) (s : LoopState), (trajectoryStates samples opt wkc fuel)[n]? = some s →
        SendsInOrder samples opt s ∧ s.sent.length = n + 1
          ∧ (s.stopped = true ↔ FirstLossRow opt wkc n)
          ∧ (s.stopped = true → (trajectoryStates samples opt wkc fuel).length = n + 1)
          ∧ (s.totalLost = lostAmong wkc (n + 1) ↔ lostAmong wkc (n + 1) < 2 ^ 31))
      ∧ (∀ n, FirstLossRow opt wkc n → opt.repeatCsv = true ∨ n < samples.length →
          ∃ s, Returns samples opt wkc (n + 1) s ∧ s.stopped = true)
      ∧ (opt.repeatCsv = false → (∀ n < samples.length, ¬FirstLossRow opt wkc n) →
          ∃ s, Returns samples opt wkc samples.length s ∧ s.stopped = false)
      ∧ (opt.repeatCsv = true → (∀ n, ¬FirstLossRow opt wkc n) →
          ∀ n s, ¬Returns samples opt wkc n s) := by
  refine ⟨?_, ?_, ?_, ?_⟩
  · intro fuel n s hs
    obtain ⟨hstates, _⟩ := trajectory_after samples wkc hmax fuel
    have hafter := hstates n s hs
    refine ⟨hafter.inOrder, hafter.length, hafter.firstLossRow_iff, ?_, ?_⟩
    · intro hstop
      have hlt : n < (trajectoryStates samples opt wkc fuel).length :=
        (List.getElem?_eq_some_iff.mp hs).1
      by_contra hmore
      -- another exchange behind a complete row of losses
      have hnext := hstates (n + 1) _ (List.getElem?_eq_getElem (by omega))
      exact hnext.earlier n (by omega) (hafter.firstLossRow_iff.mp hstop).1
    · rw [hafter.totalLost]
      exact toInt32_natCast_iff _
  · intro n hfirst hreach
    exact returns_of_firstLossRow hmax hfirst (exchangesIn_pos hne hreach)
  · intro hrepeat hnone
    exact returns_of_one_pass hne hmax hrepeat hnone
  · intro hrepeat hnone n s
    exact not_returns_of_repeat hmax hrepeat hnone n s

/-- Two losses in a row, the last sample of one pass and the first one of the next. -/
theorem runTrajectory_exchanges_twoLost :
    ∃ s, Returns [⟨0, 0, 0, true⟩, ⟨1 / 1000, 1, 0, true⟩] ⟨11, 0, 0, 2, true⟩
      (fun n => if n = 0 then 3 else 0) 3 s ∧ s.stopped = true := by
  refine (runTrajectory_exchanges _ ⟨11, 0, 0, 2, true⟩ _ (by simp) (by decide)).2.1 2 ?_
    (Or.inl rfl)
  constructor
  · refine ⟨by decide, ?_⟩
    intro i hi
    have hi' : i < 2 := hi
    exact le_of_eq (if_neg (by omega))
  · intro k hk hrow
    have hlength : 2 ≤ k + 1 := hrow.1
    obtain rfl : k = 1 := by omega
    exact absurd (hrow.2 1 (by decide)) (by decide)

/-! ## A long run -/

/-- Every other frame is lost. -/
def alternate (n : Nat) : Int := (n % 2 : Nat)

theorem lost_alternate_iff (n : Nat) : Lost alternate n ↔ n % 2 = 0 := by
  rw [Lost, alternate]
  omega

theorem lostAmong_alternate (m : Nat) : lostAmong alternate (2 * m) = m := by
  induction m with
  | zero => rfl
  | succ m ih =>
      have heven : Lost alternate (2 * m) := (lost_alternate_iff _).mpr (by omega)
      have hodd : ¬Lost alternate (2 * m + 1) := by
        rw [lost_alternate_iff]
        omega
      rw [lostAmong] at ih ⊢
      rw [show 2 * (m + 1) = 2 * m + 1 + 1 from by omega, Nat.count_succ, if_neg hodd,
        Nat.count_succ, if_pos heven, ih]

/-- One sample, over and over. -/
def endless : Options := ⟨11, 0, 0, 2, true⟩

theorem not_lossRow_alternate (n : Nat) : ¬LossRow endless alternate n := by
  intro ⟨hlength, hlost⟩
  have hlength' : 2 ≤ n + 1 := hlength
  have h₀ := (lost_alternate_iff _).mp (hlost 0 (by decide))
  have h₁ := (lost_alternate_iff _).mp (hlost 1 (by decide))
  omega

/-- After `2 * m` exchanges the counter holds what an `int` keeps of `m`. -/
theorem alternate_totalLost {m : Nat} (hm : 0 < m) :
    ∃ s, (trajectoryStates [⟨0, 0, 0, true⟩] endless alternate (2 * m))[2 * m - 1]? = some s
      ∧ s.totalLost = toInt32 m := by
  obtain ⟨hstates, hlast, hfull⟩ := trajectory_after [⟨0, 0, 0, true⟩] alternate
    (show 0 < endless.maxLostFrames by decide) (2 * m)
  have hgoing : (runTrajectory [⟨0, 0, 0, true⟩] endless alternate (2 * m)).stopped = false := by
    rw [← Bool.not_eq_true]
    intro hstop
    obtain ⟨k, _, hrow⟩ := hlast.stopped.mp hstop
    exact not_lossRow_alternate k hrow
  have hlength : (trajectoryStates [⟨0, 0, 0, true⟩] endless alternate (2 * m)).length
      = 2 * m := by
    rw [hfull hgoing, exchangesIn, if_pos (show endless.repeatCsv = true from rfl),
      List.length_singleton, Nat.mul_one]
  refine ⟨_, List.getElem?_eq_getElem (by omega), ?_⟩
  have hafter := hstates (2 * m - 1) _ (List.getElem?_eq_getElem (by omega))
  rw [hafter.totalLost, show 2 * m - 1 + 1 = 2 * m from by omega, lostAmong_alternate]

/-- Some time into an endless job, `total_lost` is no longer the number of losses. -/
theorem not_totalLost_counts : ∃ (fuel n : Nat) (s : LoopState),
    (trajectoryStates [⟨0, 0, 0, true⟩] endless alternate fuel)[n]? = some s
      ∧ s.totalLost ≠ lostAmong alternate (n + 1) := by
  obtain ⟨s, hs, htotal⟩ := alternate_totalLost (m := 2 ^ 31) (by decide)
  refine ⟨_, _, s, hs, ?_⟩
  rw [htotal, show 2 * 2 ^ 31 - 1 + 1 = 2 * 2 ^ 31 from by decide, lostAmong_alternate, ne_eq,
    toInt32_natCast_iff]
  decide

end GalvoCtrl.Master
