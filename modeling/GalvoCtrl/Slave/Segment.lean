import GalvoCtrl.Slave.SscDevice

/-!
# Slave — Segment

The interpolation as a whole. Between two accepted commands the driver is on a
*segment*: the positions after the ticks are the truncated steps from where the
command found it to the target, and then the target. A new command may come at
any step and opens the next segment there.
-/

namespace GalvoCtrl.Slave

open GalvoCtrl.Lib

/-! ## Accepted commands -/

/-- The test of `GalvoXY2_SetTarget`. -/
def GalvoState.Accepts (s : GalvoState) (c : Command) : Prop :=
  c.sequence ≠ s.sequence ∨ c.xCode ≠ BitVec.ofInt 16 s.targetX
    ∨ c.yCode ≠ BitVec.ofInt 16 s.targetY ∨ c.controlFlags ≠ s.controlFlags

instance (s : GalvoState) (c : Command) : Decidable (s.Accepts c) :=
  inferInstanceAs (Decidable (_ ∨ _))

theorem setTarget_ignored {s : GalvoState} {c : Command} (h : ¬s.Accepts c) :
    galvoXY2SetTarget c.xCode c.yCode c.sequence c.controlFlags s = s := if_neg h

/-- No command among `cmds` is accepted, from `s` on. -/
def GalvoState.Ignores (s : GalvoState) : List GalvoCmd → Prop
  | [] => True
  | .setTarget x y q f :: cmds => ¬s.Accepts ⟨x, y, q, f⟩ ∧ Ignores s cmds
  | .timerTick :: cmds => Ignores (galvoXY2TimerTick s).1 cmds

def GalvoCmd.isTick : GalvoCmd → Bool
  | .timerTick => true
  | _ => false

/-- The number of ticks. -/
def galvoTicks (cmds : List GalvoCmd) : Nat := cmds.countP GalvoCmd.isTick

/-! ## Segments -/

/-- `s` is `k` ticks on the way from `(x₀, y₀)` to `(x₁, y₁)`. -/
structure GalvoState.Segment (s : GalvoState) (x₀ y₀ x₁ y₁ : Int) (k : Nat) : Prop where
  startX : s.startX = x₀
  startY : s.startY = y₀
  targetX : s.targetX = x₁
  targetY : s.targetY = y₁
  currentX : s.currentX = along x₀ x₁ xy2InterpFrames k
  currentY : s.currentY = along y₀ y₁ xy2InterpFrames k
  interpIndex : s.interpIndex.toNat = min k xy2InterpFrames

theorem segment_init : galvoXY2Init.Segment 0 0 0 0 10 := by
  constructor <;> decide

/-- An accepted command opens a segment at the current position. -/
theorem segment_setTarget {s : GalvoState} {c : Command} (h : s.Accepts c) :
    (galvo.step s c.setTarget).Segment s.currentX s.currentY c.xCode.toInt c.yCode.toInt 0 := by
  have hstep : galvo.step s c.setTarget = _ := if_pos h
  rw [hstep]
  exact ⟨rfl, rfl, rfl, rfl, (along_zero _ _ _).symm, (along_zero _ _ _).symm, rfl⟩

/-- **A tick is a step**: the position part of the tick, whatever its branch. -/
theorem advance_along (s : GalvoState) :
    s.advance.currentX = along s.startX s.targetX xy2InterpFrames (s.interpIndex.toNat + 1)
      ∧ s.advance.currentY
        = along s.startY s.targetY xy2InterpFrames (s.interpIndex.toNat + 1) := by
  unfold GalvoState.advance
  split
  · next hlt =>
      have hstep : ((min (s.interpIndex.toNat + 1) xy2InterpFrames : Nat) : Int)
          = s.interpIndex.toNat + 1 := by
        rw [Nat.min_eq_left hlt]
        norm_cast
      simp only [along, hstep]
      exact ⟨rfl, rfl⟩
  · next hge =>
      have hend : xy2InterpFrames ≤ s.interpIndex.toNat + 1 := by omega
      rw [along_of_le (by decide) hend, along_of_le (by decide) hend]
      exact ⟨rfl, rfl⟩

theorem advance_interpIndex (s : GalvoState) :
    s.advance.interpIndex.toNat
      = if s.interpIndex.toNat < xy2InterpFrames then s.interpIndex.toNat + 1
        else s.interpIndex.toNat := by
  unfold GalvoState.advance
  split
  · next hlt =>
      have hlt' : s.interpIndex.toNat < 10 := hlt
      show (s.interpIndex + 1).toNat = s.interpIndex.toNat + 1
      rw [BitVec.toNat_add]
      show (s.interpIndex.toNat + 1) % 2 ^ 8 = s.interpIndex.toNat + 1
      omega
  · rfl

theorem GalvoState.Segment.timerTick {s : GalvoState} {x₀ y₀ x₁ y₁ : Int} {k : Nat}
    (h : s.Segment x₀ y₀ x₁ y₁ k) : (galvoXY2TimerTick s).1.Segment x₀ y₀ x₁ y₁ (k + 1) := by
  obtain ⟨hx₀, hy₀, hx₁, hy₁, _, _, hidx⟩ := h
  obtain ⟨hx, hy⟩ := advance_along s
  -- past the last step the position does not depend on the index any more
  have hsame : ∀ a b : Int, along a b xy2InterpFrames (s.interpIndex.toNat + 1)
      = along a b xy2InterpFrames (k + 1) := by
    intro a b
    rw [along, along, hidx]
    congr 3
    omega
  rw [galvoXY2TimerTick_fst]
  refine ⟨by simpa using hx₀, by simpa using hy₀, by simpa using hx₁, by simpa using hy₁, ?_, ?_,
    ?_⟩
  · rw [← hx₀, ← hx₁, ← hsame]
    exact hx
  · rw [← hy₀, ← hy₁, ← hsame]
    exact hy
  · show s.advance.interpIndex.toNat = _
    rw [advance_interpIndex, hidx]
    split <;> omega

/-- **A stretch without an accepted command** moves on along the segment. -/
theorem GalvoState.Segment.runFrom {s : GalvoState} {x₀ y₀ x₁ y₁ : Int} {k : Nat}
    (h : s.Segment x₀ y₀ x₁ y₁ k) {cmds : List GalvoCmd} (hignores : s.Ignores cmds) :
    (galvo.runFrom s cmds).Segment x₀ y₀ x₁ y₁ (k + galvoTicks cmds) := by
  induction cmds generalizing s k with
  | nil => exact h
  | cons c cmds ih =>
      rw [Machine.runFrom_cons]
      cases c with
      | setTarget x y q f =>
          have hsame : galvo.step s (.setTarget x y q f) = s := setTarget_ignored hignores.1
          rw [hsame]
          exact ih h hignores.2
      | timerTick =>
          have hticks : galvoTicks (.timerTick :: cmds) = galvoTicks cmds + 1 :=
            List.countP_cons_of_pos rfl
          rw [hticks, show k + (galvoTicks cmds + 1) = k + 1 + galvoTicks cmds from by omega]
          exact ih h.timerTick hignores

/-- Ticks alone. -/
theorem GalvoState.Segment.runFrom_ticks {s : GalvoState} {x₀ y₀ x₁ y₁ : Int} {k : Nat}
    (h : s.Segment x₀ y₀ x₁ y₁ k) (n : Nat) :
    (galvo.runFrom s (List.replicate n .timerTick)).Segment x₀ y₀ x₁ y₁ (k + n) := by
  induction n generalizing s k with
  | zero => exact h
  | succ n ih =>
      rw [show k + (n + 1) = k + 1 + n from by omega]
      exact ih h.timerTick

/-- A command that is ignored has the stored codes. -/
theorem codes_of_ignored {s : GalvoState} {c : Command} (hr : s.InRange) (h : ¬s.Accepts c) :
    c.xCode.toInt = s.targetX ∧ c.yCode.toInt = s.targetY := by
  simp only [GalvoState.Accepts, not_or, ne_eq, not_not] at h
  obtain ⟨_, hx, hy, _⟩ := h
  rw [hx, hy]
  exact ⟨toInt_ofInt_of_range hr.targetX, toInt_ofInt_of_range hr.targetY⟩

/-- `s` is on some segment. -/
def GalvoState.OnSegment (s : GalvoState) : Prop := ∃ x₀ y₀ x₁ y₁ k, s.Segment x₀ y₀ x₁ y₁ k

theorem GalvoState.OnSegment.step {s : GalvoState} (h : s.OnSegment) (c : GalvoCmd) :
    (galvo.step s c).OnSegment := by
  obtain ⟨x₀, y₀, x₁, y₁, k, h⟩ := h
  cases c with
  | setTarget x y q f =>
      by_cases haccepts : s.Accepts ⟨x, y, q, f⟩
      · exact ⟨_, _, _, _, _, segment_setTarget haccepts⟩
      · have hsame : galvo.step s (.setTarget x y q f) = s := setTarget_ignored haccepts
        rw [hsame]
        exact ⟨_, _, _, _, _, h⟩
  | timerTick => exact ⟨_, _, _, _, _, h.timerTick⟩

/-- **Every reachable state is on a segment.** -/
theorem galvo_onSegment (cmds : List GalvoCmd) : (galvo.run cmds).OnSegment :=
  galvo.run_invariant ⟨_, _, _, _, _, segment_init⟩ (fun _ c h => h.step c) cmds

/-- **A command and its ticks**: the driver is as far on the way to the codes, or
further if it ignored the command. -/
theorem GalvoState.OnSegment.command {s : GalvoState} (hr : s.InRange) (h : s.OnSegment)
    (c : Command) (n : Nat) : ∃ x₀ y₀ k, n ≤ k
      ∧ (galvo.runFrom s (c.setTarget :: List.replicate n .timerTick)).Segment x₀ y₀
          c.xCode.toInt c.yCode.toInt k := by
  rw [Machine.runFrom_cons]
  by_cases haccepts : s.Accepts c
  · exact ⟨_, _, 0 + n, by omega, (segment_setTarget haccepts).runFrom_ticks n⟩
  · have hsame : galvo.step s c.setTarget = s := setTarget_ignored haccepts
    obtain ⟨x₀, y₀, x₁, y₁, k, hsegment⟩ := h
    obtain ⟨hx, hy⟩ := codes_of_ignored hr haccepts
    rw [hsame, hx, hy, hsegment.targetX, hsegment.targetY]
    exact ⟨x₀, y₀, k + n, by omega, hsegment.runFrom_ticks n⟩

/-! ## The arithmetic of a tick -/

/-- The values of `int32_t`. -/
def Int32Range (z : Int) : Prop := -2147483648 ≤ z ∧ z ≤ 2147483647

/-- Every intermediate of the interpolation expression, the result included. -/
def interpolateTerms (start target step : Int) : List Int :=
  [step, target - start, (target - start) * step,
    ((target - start) * step).tdiv xy2InterpFrames, interpolate start target step]

/-- The intermediates of the tick in `s`. -/
def GalvoState.tickTerms (s : GalvoState) : List Int :=
  if s.interpIndex.toNat < xy2InterpFrames then
    interpolateTerms s.startX s.targetX (s.interpIndex.toNat + 1)
      ++ interpolateTerms s.startY s.targetY (s.interpIndex.toNat + 1)
  else []

/-- Sixteen bits, a tenth step and a sum stay far within thirty-two bits. -/
theorem interpolateTerms_range {a b k : Int} (ha : Int16Range a) (hb : Int16Range b)
    (hk : 0 ≤ k) (hk10 : k ≤ 10) : ∀ z ∈ interpolateTerms a b k, Int32Range z := by
  obtain ⟨hi1, hi2⟩ := int16Range_interpolate ha hb hk hk10
  obtain ⟨ha1, ha2⟩ := ha
  obtain ⟨hb1, hb2⟩ := hb
  have hmul : -655350 ≤ (b - a) * k ∧ (b - a) * k ≤ 655350 := by
    constructor <;> nlinarith
  have hdiv : interpolate a b k = a + ((b - a) * k).tdiv xy2InterpFrames := rfl
  intro z hz
  simp only [interpolateTerms, List.mem_cons, List.not_mem_nil, or_false] at hz
  rw [Int32Range]
  rcases hz with rfl | rfl | rfl | rfl | rfl <;> omega

theorem GalvoState.InRange.tickTerms {s : GalvoState} (h : s.InRange) :
    ∀ z ∈ s.tickTerms, Int32Range z := by
  unfold GalvoState.tickTerms
  split
  · next hlt =>
      have hlt' : s.interpIndex.toNat < 10 := hlt
      exact List.forall_mem_append.mpr
        ⟨interpolateTerms_range h.startX h.targetX (by omega) (by omega),
          interpolateTerms_range h.startY h.targetY (by omega) (by omega)⟩
  · simp

/-- The six positions of the record. -/
def GalvoState.positions (s : GalvoState) : List Int :=
  [s.currentX, s.currentY, s.startX, s.startY, s.targetX, s.targetY]

theorem GalvoState.InRange.positions {s : GalvoState} (h : s.InRange) :
    ∀ z ∈ s.positions, Int16Range z := by
  intro z hz
  simp only [GalvoState.positions, List.mem_cons, List.not_mem_nil, or_false] at hz
  rcases hz with rfl | rfl | rfl | rfl | rfl | rfl
  · exact h.currentX
  · exact h.currentY
  · exact h.startX
  · exact h.startY
  · exact h.targetX
  · exact h.targetY

/-! ## The shape of a segment -/

/-- The positions `p 0, p 1, …` of one axis on the way from `start` to `target`. -/
structure Approaches (p : Nat → Int) (start target : Int) : Prop where
  starts : p 0 = start
  /-- Monotone, and never past the target. -/
  toward : ∀ j k, j ≤ k → p k ∈ Set.uIcc (p j) target
  arrives : ∀ k, 10 ≤ k → p k = target
  slew : ∀ k, (p (k + 1) - p k).natAbs ≤ (target - start).natAbs ⌈/⌉ 10

theorem along_approaches (a b : Int) : Approaches (along a b xy2InterpFrames) a b where
  starts := along_zero a b _
  toward _ _ := along_toward
  arrives _ := along_of_le (by decide)
  slew := along_step a b (by decide)

/-- **Arithmetic and shape of the interpolation**, after every run and for every
command accepted next. The positions `x k` and `y k` are those after `k` more
ticks, as long as no other command is accepted. -/
theorem interpolation_shape (cmds : List GalvoCmd) :
    let s := galvo.run cmds
    s.interpIndex.toNat ≤ 10
      ∧ (∀ z ∈ s.positions, Int16Range z ∧ (BitVec.ofInt 16 z).toInt = z)
      ∧ (∀ z ∈ s.tickTerms, Int32Range z)
      ∧ (let t := (galvoXY2TimerTick s).1
        t.interpIndex = 10 → t.currentX = t.targetX ∧ t.currentY = t.targetY)
      ∧ ∀ c, s.Accepts c → ∃ x y : Nat → Int,
          (∀ later, (galvo.step s c.setTarget).Ignores later →
            (galvo.run (cmds ++ c.setTarget :: later)).currentX = x (galvoTicks later)
              ∧ (galvo.run (cmds ++ c.setTarget :: later)).currentY = y (galvoTicks later))
            ∧ Approaches x s.currentX c.xCode.toInt ∧ Approaches y s.currentY c.yCode.toInt := by
  have hr := galvo_inRange cmds
  refine ⟨hr.interpIndex, ?_, hr.tickTerms, ?_, ?_⟩
  · intro z hz
    exact ⟨hr.positions z hz, toInt_ofInt_of_range (hr.positions z hz)⟩
  · obtain ⟨x₀, y₀, x₁, y₁, k, hsegment⟩ := galvo_onSegment cmds
    obtain ⟨_, _, hx₁, hy₁, hx, hy, hidx⟩ := hsegment.timerTick
    intro t hten
    have hten' : (galvoXY2TimerTick (galvo.run cmds)).1.interpIndex = 10 := hten
    rw [hten'] at hidx
    have hk : xy2InterpFrames ≤ k + 1 := by
      have : (10 : BitVec 8).toNat = 10 := rfl
      have : xy2InterpFrames = 10 := rfl
      omega
    exact ⟨(hx.trans (along_of_le (by decide) hk)).trans hx₁.symm,
      (hy.trans (along_of_le (by decide) hk)).trans hy₁.symm⟩
  · intro c haccepts
    refine ⟨_, _, ?_, along_approaches _ _, along_approaches _ _⟩
    intro later hignores
    have hsegment := (segment_setTarget haccepts).runFrom hignores
    rw [Machine.run_append, Machine.runFrom_cons]
    rw [Nat.zero_add] at hsegment
    exact ⟨hsegment.currentX, hsegment.currentY⟩

end GalvoCtrl.Slave
