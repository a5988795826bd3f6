import Mathlib.Analysis.Real.Sqrt

/-!
# Hypot — the length of a plane vector
-/

namespace GalvoCtrl.Lib

/-- `math.hypot`, exact. -/
noncomputable def hypot (x y : ℝ) : ℝ := √(x ^ 2 + y ^ 2)

theorem hypot_pos_iff {x y : ℝ} : 0 < hypot x y ↔ x ≠ 0 ∨ y ≠ 0 := by
  rw [hypot, Real.sqrt_pos]
  constructor
  · intro h
    by_contra hzero
    rw [not_or, not_not, not_not] at hzero
    rw [hzero.1, hzero.2] at h
    simp at h
  · rintro (hx | hy)
    · have := sq_nonneg y
      have := pow_pos (abs_pos.mpr hx) 2
      rw [sq_abs] at this
      linarith
    · have := sq_nonneg x
      have := pow_pos (abs_pos.mpr hy) 2
      rw [sq_abs] at this
      linarith

theorem hypot_zero_right (x : ℝ) : hypot x 0 = |x| := by
  rw [hypot, zero_pow two_ne_zero, add_zero, Real.sqrt_sq_eq_abs]

theorem hypot_mul {a : ℝ} (ha : 0 ≤ a) (x y : ℝ) : hypot (a * x) (a * y) = a * hypot x y := by
  rw [hypot, mul_pow, mul_pow, ← mul_add, Real.sqrt_mul (sq_nonneg a), Real.sqrt_sq ha, hypot]

/-- On rational vectors the length test can be computed. -/
instance decidableHypotPos (x y : ℚ) : Decidable (0 < hypot x y) :=
  decidable_of_iff (x ≠ 0 ∨ y ≠ 0) (by
    rw [hypot_pos_iff, Rat.cast_ne_zero, Rat.cast_ne_zero])

end GalvoCtrl.Lib
