import GalvoCtrl.Slave.GalvoXy2

/-!
# Slave — Reach

What holds of the driver state after every run: all positions fit 16 bits, so
the casts to `int16_t` keep their value, and the interpolation index never
passes its end. From it, the specification of the two driver functions that
every later module cites.
-/

namespace GalvoCtrl.Slave

open GalvoCtrl.Lib

/-- The values of `int16_t`. -/
def Int16Range (z : Int) : Prop := -32768 ≤ z ∧ z ≤ 32767

instance (z : Int) : Decidable (Int16Range z) := inferInstanceAs (Decidable (_ ∧ _))

theorem int16Range_toInt (c : BitVec 16) : Int16Range c.toInt := by
  have hlow := BitVec.le_toInt c
  have hhigh := BitVec.toInt_lt (x := c)
  constructor <;> omega

/-- The cast `(int16_t)z` keeps an in-range value. -/
theorem toInt_ofInt_of_range {z : Int} (h : Int16Range z) :
    (BitVec.ofInt 16 z).toInt = z :=
  BitVec.toInt_ofInt_eq_self (by decide) h.1 (by have := h.2; omega)

theorem int16Range_interpolate {a b k : Int} (ha : Int16Range a) (hb : Int16Range b)
    (hk : 0 ≤ k) (hk10 : k ≤ 10) : Int16Range (interpolate a b k) := by
  obtain ⟨hlow, hhigh⟩ := add_stepOf_between (a := a) (b := b) hk hk10 (by decide)
  obtain ⟨ha1, ha2⟩ := ha
  obtain ⟨hb1, hb2⟩ := hb
  have h : interpolate a b k = a + stepOf (b - a) k 10 := rfl
  rw [Int16Range, h]
  omega

/-! ## The range invariant -/

/-- Every position fits `int16_t`, and the index is at most its end value. -/
structure GalvoState.InRange (s : GalvoState) : Prop where
  currentX : Int16Range s.currentX
  currentY : Int16Range s.currentY
  startX : Int16Range s.startX
  startY : Int16Range s.startY
  targetX : Int16Range s.targetX
  targetY : Int16Range s.targetY
  interpIndex : s.interpIndex.toNat ≤ 10

theorem inRange_init : galvoXY2Init.InRange := by
  constructor <;> decide

theorem GalvoState.InRange.advance {s : GalvoState} (h : s.InRange) : s.advance.InRange := by
  unfold GalvoState.advance
  split
  · -- a step of the interpolation lies between start and target
    rename_i hidx
    have hidx' : s.interpIndex.toNat < 10 := hidx
    refine ⟨int16Range_interpolate h.startX h.targetX (by omega) (by omega),
      int16Range_interpolate h.startY h.targetY (by omega) (by omega),
      h.startX, h.startY, h.targetX, h.targetY, ?_⟩
    show (s.interpIndex + 1).toNat ≤ 10
    rw [BitVec.toNat_add]
    show (s.interpIndex.toNat + 1) % 2 ^ 8 ≤ 10
    omega
  · exact ⟨h.targetX, h.targetY, h.startX, h.startY, h.targetX, h.targetY, h.interpIndex⟩

theorem GalvoState.InRange.timerTick {s : GalvoState} (h : s.InRange) :
    (galvoXY2TimerTick s).1.InRange := by
  rw [galvoXY2TimerTick_fst]
  obtain ⟨h1, h2, h3, h4, h5, h6, h7⟩ := h.advance
  exact ⟨h1, h2, h3, h4, h5, h6, h7⟩

theorem GalvoState.InRange.setTarget {s : GalvoState} (h : s.InRange)
    (x y q f : BitVec 16) : (galvoXY2SetTarget x y q f s).InRange := by
  unfold galvoXY2SetTarget
  split
  · exact ⟨h.currentX, h.currentY, h.currentX, h.currentY, int16Range_toInt x,
      int16Range_toInt y, Nat.zero_le _⟩
  · exact h

theorem GalvoState.InRange.step {s : GalvoState} (h : s.InRange) (c : GalvoCmd) :
    (galvo.step s c).InRange := by
  cases c with
  | setTarget x y q f => exact h.setTarget x y q f
  | timerTick => exact h.timerTick

/-- **Every reachable driver state is in range.** -/
theorem galvo_inRange (cmds : List GalvoCmd) : (galvo.run cmds).InRange :=
  galvo.run_invariant inRange_init (fun _ c h => h.step c) cmds

/-! ## The specification of a command -/

/-- The stored command: target, sequence number and flags. -/
structure Command where
  xCode : BitVec 16
  yCode : BitVec 16
  sequence : BitVec 16
  controlFlags : BitVec 16
deriving DecidableEq, Repr

/-- `s` stores the command `c`. -/
structure GalvoState.Stores (s : GalvoState) (c : Command) : Prop where
  targetX : s.targetX = c.xCode.toInt
  targetY : s.targetY = c.yCode.toInt
  sequence : s.sequence = c.sequence
  controlFlags : s.controlFlags = c.controlFlags

/-- A command equal to the stored one is ignored. -/
theorem setTarget_same {s : GalvoState} {c : Command} (h : s.Stores c) :
    galvoXY2SetTarget c.xCode c.yCode c.sequence c.controlFlags s = s := by
  obtain ⟨hx, hy, hq, hf⟩ := h
  have hx' : c.xCode = BitVec.ofInt 16 s.targetX := by rw [hx, BitVec.ofInt_toInt]
  have hy' : c.yCode = BitVec.ofInt 16 s.targetY := by rw [hy, BitVec.ofInt_toInt]
  unfold galvoXY2SetTarget
  rw [if_neg]
  simp [← hx', ← hy', hq, hf]

/-- A command that differs from the stored one is taken over whole, and starts
the interpolation at the current position. -/
theorem setTarget_ne {s : GalvoState} {c d : Command} (h : s.Stores c) (hne : d ≠ c) :
    galvoXY2SetTarget d.xCode d.yCode d.sequence d.controlFlags s =
      { s with
        startX := s.currentX
        startY := s.currentY
        targetX := d.xCode.toInt
        targetY := d.yCode.toInt
        sequence := d.sequence
        controlFlags := d.controlFlags
        framesSinceUpdate := 0
        interpIndex := 0 } := by
  obtain ⟨hx, hy, hq, hf⟩ := h
  unfold galvoXY2SetTarget
  rw [if_pos]
  rw [hx, hy, hq, hf, BitVec.ofInt_toInt, BitVec.ofInt_toInt]
  -- four equal fields would make the commands equal
  by_contra hall
  simp only [ne_eq, not_or, not_not] at hall
  obtain ⟨h1, h2, h3, h4⟩ := hall
  cases c
  cases d
  simp_all

/-- Either way the command is stored afterwards. -/
theorem setTarget_stores {s : GalvoState} {c : Command} (h : s.Stores c) (d : Command) :
    (galvoXY2SetTarget d.xCode d.yCode d.sequence d.controlFlags s).Stores d := by
  by_cases hne : d = c
  · rw [hne, setTarget_same h]
    exact h
  · rw [setTarget_ne h hne]
    exact ⟨rfl, rfl, rfl, rfl⟩

/-- A tick does not touch the stored command. -/
theorem timerTick_stores {s : GalvoState} {c : Command} (h : s.Stores c) :
    (galvoXY2TimerTick s).1.Stores c := by
  obtain ⟨hx, hy, hq, hf⟩ := h
  rw [galvoXY2TimerTick_fst]
  exact ⟨by simpa using hx, by simpa using hy, by simpa using hq, by simpa using hf⟩

end GalvoCtrl.Slave
