import Mathlib.Algebra.Order.Floor.Ring
import Mathlib.Algebra.Order.Field.Basic
import Mathlib.Tactic.Linarith

/-!
# Rounding — to integers, and clamping

The three conversions fixed-point code is made of: rounding half away from
zero, truncation towards zero, and `std::clamp`. All three respect integer
bounds, which is what makes a saturating conversion lossless inside its range.
-/

namespace GalvoCtrl.Lib

section Clamp

variable {α : Type*} [LinearOrder α]

/-- The value cut to `[lo, hi]`, by the two tests of `std::clamp`. -/
def stdClamp (v lo hi : α) : α := if v < lo then lo else if hi < v then hi else v

theorem stdClamp_mem {v lo hi : α} (h : lo ≤ hi) :
    lo ≤ stdClamp v lo hi ∧ stdClamp v lo hi ≤ hi := by
  unfold stdClamp
  split_ifs with h1 h2
  · exact ⟨le_rfl, h⟩
  · exact ⟨h, le_rfl⟩
  · exact ⟨not_lt.mp h1, not_lt.mp h2⟩

theorem stdClamp_of_mem {v lo hi : α} (h1 : lo ≤ v) (h2 : v ≤ hi) : stdClamp v lo hi = v := by
  rw [stdClamp, if_neg (not_lt.mpr h1), if_neg (not_lt.mpr h2)]

end Clamp

variable {α : Type*} [Field α] [LinearOrder α] [FloorRing α]

/-- The nearest integer, halves away from zero. -/
def roundHalfAway (x : α) : ℤ := if 0 ≤ x then ⌊x + 0.5⌋ else -⌊-x + 0.5⌋

/-- The integer part, towards zero. -/
def truncZ (x : α) : ℤ := if 0 ≤ x then ⌊x⌋ else -⌊-x⌋

variable [IsStrictOrderedRing α]

@[simp] theorem truncZ_intCast (n : ℤ) : truncZ (n : α) = n := by
  unfold truncZ
  split_ifs with h
  · exact Int.floor_intCast n
  · rw [← Int.cast_neg, Int.floor_intCast, neg_neg]

private theorem abs_floor_add_half_sub_le (x : α) : |(⌊x + 0.5⌋ : α) - x| ≤ 1 / 2 := by
  have hhalf : (0.5 : α) = 1 / 2 := by norm_num
  have h1 := Int.floor_le (x + 0.5)
  have h2 := Int.lt_floor_add_one (x + 0.5)
  rw [hhalf] at h1 h2 ⊢
  rw [abs_le]
  constructor <;> linarith

/-- **Rounding moves a value by at most one half.** -/
theorem abs_roundHalfAway_sub_le (x : α) : |(roundHalfAway x : α) - x| ≤ 1 / 2 := by
  unfold roundHalfAway
  by_cases h : 0 ≤ x
  · rw [if_pos h]
    exact abs_floor_add_half_sub_le x
  · rw [if_neg h]
    have hneg := abs_floor_add_half_sub_le (-x)
    calc |((-⌊-x + 0.5⌋ : ℤ) : α) - x| = |-((⌊-x + 0.5⌋ : α) - -x)| := by
          rw [Int.cast_neg, neg_sub, sub_eq_add_neg, sub_eq_add_neg, add_comm]
      _ ≤ 1 / 2 := by rwa [abs_neg]

/-- Rounding does not pass an integer bound. -/
theorem roundHalfAway_mem {x : α} {m n : ℤ} (hm : (m : α) ≤ x) (hn : x ≤ n) :
    m ≤ roundHalfAway x ∧ roundHalfAway x ≤ n := by
  have h := abs_le.mp (abs_roundHalfAway_sub_le x)
  have hlow : ((m - 1 : ℤ) : α) < (roundHalfAway x : α) := by
    push_cast
    linarith [h.1]
  have hhigh : (roundHalfAway x : α) < ((n + 1 : ℤ) : α) := by
    push_cast
    linarith [h.2]
  have h1 := Int.cast_lt.mp hlow
  have h2 := Int.cast_lt.mp hhigh
  omega

end GalvoCtrl.Lib
