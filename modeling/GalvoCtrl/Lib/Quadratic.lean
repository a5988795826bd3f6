import Mathlib.LinearAlgebra.Matrix.PosDef
import Mathlib.Algebra.Order.Star.Real

/-!
# Lib — Quadratic

Quadratic functions of a vector, as sums of weighted squares, and their minimum:
where the Hessian is positive definite, the solution of the normal equations and no
other point.
-/

namespace GalvoCtrl.Lib

open Matrix

variable {ι κ : Type*}

/-- The function `u ↦ u·Hu - 2 b·u + c`. -/
structure Quadratic (ι : Type*) where
  H : Matrix ι ι ℝ
  b : ι → ℝ
  c : ℝ

namespace Quadratic

instance : Add (Quadratic ι) := ⟨fun p q => ⟨p.H + q.H, p.b + q.b, p.c + q.c⟩⟩

@[simp] theorem add_b (p q : Quadratic ι) : (p + q).b = p.b + q.b := rfl

/-- The weighted square `w |u|²`. -/
def square [DecidableEq ι] (w : ℝ) : Quadratic ι := ⟨w • 1, 0, 0⟩

theorem square_posSemidef [DecidableEq ι] {w : ℝ} (hw : 0 ≤ w) :
    (square (ι := ι) w).H.PosSemidef :=
  PosSemidef.one.smul hw

theorem square_posDef [DecidableEq ι] {w : ℝ} (hw : 0 < w) : (square (ι := ι) w).H.PosDef :=
  PosDef.one.smul hw

section Fintype

variable [Fintype ι]

def eval (q : Quadratic ι) (u : ι → ℝ) : ℝ := u ⬝ᵥ q.H *ᵥ u - 2 • (q.b ⬝ᵥ u) + q.c

theorem eval_add (p q : Quadratic ι) (u : ι → ℝ) : (p + q).eval u = p.eval u + q.eval u := by
  show u ⬝ᵥ (p.H + q.H) *ᵥ u - 2 • ((p.b + q.b) ⬝ᵥ u) + (p.c + q.c) = _
  rw [add_mulVec, dotProduct_add, add_dotProduct, eval, eval]
  ring

/-! ## Weighted squares -/

theorem eval_square [DecidableEq ι] (w : ℝ) (u : ι → ℝ) : (square w).eval u = w * (u ⬝ᵥ u) := by
  show u ⬝ᵥ (w • (1 : Matrix ι ι ℝ)) *ᵥ u - 2 • ((0 : ι → ℝ) ⬝ᵥ u) + 0 = _
  rw [smul_mulVec, one_mulVec, dotProduct_smul, zero_dotProduct, smul_eq_mul]
  ring

/-- The weighted square of one linear residual, `w (r - a·u)²`. -/
def single (w r : ℝ) (a : ι → ℝ) : Quadratic ι := ⟨w • vecMulVec a a, (w * r) • a, w * r ^ 2⟩

theorem eval_single (w r : ℝ) (a u : ι → ℝ) : (single w r a).eval u = w * (r - a ⬝ᵥ u) ^ 2 := by
  show u ⬝ᵥ (w • vecMulVec a a) *ᵥ u - 2 • (((w * r) • a) ⬝ᵥ u) + w * r ^ 2 = _
  rw [smul_mulVec, vecMulVec_mulVec, dotProduct_smul, smul_dotProduct]
  simp only [op_smul_eq_smul, dotProduct_smul, smul_eq_mul, dotProduct_comm u a]
  ring

theorem single_posSemidef {w : ℝ} (hw : 0 ≤ w) (r : ℝ) (a : ι → ℝ) :
    (single w r a).H.PosSemidef := by
  have h := (posSemidef_vecMulVec_self_star a).smul hw
  rwa [star_trivial] at h

/-- The weighted square of a linear residual, `w |r - A u|²`. -/
def residual [Fintype κ] (w : ℝ) (r : κ → ℝ) (A : Matrix κ ι ℝ) : Quadratic ι :=
  ⟨w • (Aᵀ * A), w • (Aᵀ *ᵥ r), w * (r ⬝ᵥ r)⟩

section Residual

variable [Fintype κ]

theorem eval_residual (w : ℝ) (r : κ → ℝ) (A : Matrix κ ι ℝ) (u : ι → ℝ) :
    (residual w r A).eval u = w * ((r - A *ᵥ u) ⬝ᵥ (r - A *ᵥ u)) := by
  show u ⬝ᵥ (w • (Aᵀ * A)) *ᵥ u - 2 • ((w • (Aᵀ *ᵥ r)) ⬝ᵥ u) + w * (r ⬝ᵥ r) = _
  have hquad : u ⬝ᵥ (Aᵀ * A) *ᵥ u = A *ᵥ u ⬝ᵥ A *ᵥ u := by
    rw [← mulVec_mulVec, dotProduct_mulVec, vecMul_transpose]
  have hlin : Aᵀ *ᵥ r ⬝ᵥ u = r ⬝ᵥ A *ᵥ u := by
    rw [mulVec_transpose, dotProduct_mulVec]
  rw [smul_mulVec, dotProduct_smul, smul_dotProduct, hquad, hlin, sub_dotProduct,
    dotProduct_sub, dotProduct_sub, dotProduct_comm (A *ᵥ u) r, smul_eq_mul, smul_eq_mul]
  ring

theorem residual_posSemidef {w : ℝ} (hw : 0 ≤ w) (r : κ → ℝ) (A : Matrix κ ι ℝ) :
    (residual w r A).H.PosSemidef := by
  have h := (posSemidef_conjTranspose_mul_self A).smul hw
  rwa [conjTranspose_eq_transpose_of_trivial] at h

end Residual

/-! ## The minimum -/

/-- From a solution of the normal equations, the function rises by its quadratic part. -/
theorem eval_eq_add {q : Quadratic ι} (hH : q.H.IsSymm) {u : ι → ℝ} (hu : q.H *ᵥ u = q.b)
    (v : ι → ℝ) : q.eval v = q.eval u + (v - u) ⬝ᵥ q.H *ᵥ (v - u) := by
  have hsymm : u ⬝ᵥ q.H *ᵥ v = q.b ⬝ᵥ v := by
    rw [dotProduct_mulVec, ← mulVec_transpose, hH.eq, hu]
  rw [eval, eval, mulVec_sub, sub_dotProduct, dotProduct_sub, dotProduct_sub, hu, hsymm,
    dotProduct_comm v q.b, dotProduct_comm u q.b]
  ring

/-- **The solution of the normal equations is the only minimum.** -/
theorem eval_lt_eval {q : Quadratic ι} (hH : q.H.PosDef) {u v : ι → ℝ} (hu : q.H *ᵥ u = q.b)
    (hv : v ≠ u) : q.eval u < q.eval v := by
  have hsymm : q.H.IsSymm := by
    have h := hH.isHermitian
    rwa [IsHermitian, conjTranspose_eq_transpose_of_trivial] at h
  have hpos := hH.dotProduct_mulVec_pos (sub_ne_zero.mpr hv)
  rw [star_trivial] at hpos
  rw [eval_eq_add hsymm hu v]
  exact lt_add_of_pos_right _ hpos

end Fintype

end Quadratic

end GalvoCtrl.Lib
