import GalvoCtrl.Lib.Quadratic
import GalvoCtrl.Split.Simulate

/-!
# Split — Mpc

`prediction_matrices` and `solve_joint_mpc`, in exact arithmetic, and what the solve
stands for: `H` and `b` are those of a sum of eight weighted squares, and the solution
is its only minimum.
-/

namespace GalvoCtrl.Split

open GalvoCtrl.Lib Matrix

noncomputable section

/-! ## The source -/

/-- `Mx`, `Mv` and `D`. -/
structure Prediction (Np : ℕ) where
  Mx : Matrix (Fin Np) (Fin Np) ℝ
  Mv : Matrix (Fin Np) (Fin Np) ℝ
  D : Matrix (Fin (Np - 1)) (Fin Np) ℝ

/-- `prediction_matrices`. Row `r` is filled in the pass `i = r + 1`. -/
def predictionMatrices (Np : ℕ) (Ts : ℝ) : Prediction Np where
  Mx := of fun r j => if j.val < r.val + 1 then Ts * Ts * ((r.val + 1 : ℕ) - j.val - 0.5) else 0
  Mv := of fun r j => if j.val < r.val + 1 then Ts else 0
  D := of fun i j => if j.val = i.val + 1 then 1 else if j.val = i.val then -1 else 0

/-- The index `-1` of an array over the horizon. -/
def Config.last (cfg : Config ℝ) : Fin cfg.Np := ⟨cfg.Np - 1, Nat.sub_lt cfg.Np_pos one_pos⟩

section Solve

variable (cfg : Config ℝ) (P : Prediction cfg.Np) (refX refVx : Fin cfg.Np → ℝ) (xNow vNow : ℝ)

/-- `x_now + idx * cfg.Ts * v_now` -/
def baseX : Fin cfg.Np → ℝ := fun i => xNow + (i.val + 1 : ℕ) * cfg.Ts * vNow

/-- `np.full(Np, v_now)` -/
def baseV : Fin cfg.Np → ℝ := fun _ => vNow

/-- `H` -/
def jointH : Matrix (Fin cfg.Np) (Fin cfg.Np) ℝ :=
  cfg.wGalvoPos • (P.Mxᵀ * P.Mx)
    + cfg.wGalvoVel • (P.Mvᵀ * P.Mv)
    + cfg.wAxisVel • (P.Mvᵀ * P.Mv)
    + cfg.wAxisAccel • 1
    + cfg.wAxisJerk • (P.Dᵀ * P.D)
    + cfg.wTerminalPos • vecMulVec (P.Mx cfg.last) (P.Mx cfg.last)
    + cfg.wTerminalVel • vecMulVec (P.Mv cfg.last) (P.Mv cfg.last)
    + cfg.reg • 1

/-- `b` -/
def jointB : Fin cfg.Np → ℝ :=
  cfg.wGalvoPos • (P.Mxᵀ *ᵥ (refX - baseX cfg xNow vNow))
    + cfg.wGalvoVel • (P.Mvᵀ *ᵥ (refVx - baseV cfg vNow))
    - cfg.wAxisVel • (P.Mvᵀ *ᵥ baseV cfg vNow)
    + (fun j => cfg.wTerminalPos * P.Mx cfg.last j
        * (refX cfg.last - baseX cfg xNow vNow cfg.last))
    + (fun j => cfg.wTerminalVel * P.Mv cfg.last j
        * (refVx cfg.last - baseV cfg vNow cfg.last))

open Classical in
/-- `np.linalg.solve`, exact. -/
def linalgSolve {n : ℕ} (H : Matrix (Fin n) (Fin n) ℝ) (b : Fin n → ℝ) :
    Except String (Fin n → ℝ) :=
  if IsUnit H then .ok (H⁻¹ *ᵥ b) else .error "Singular matrix"

/-- `solve_joint_mpc` -/
def solveJointMpc : Except String (Fin cfg.Np → ℝ) :=
  linalgSolve (jointH cfg P) (jointB cfg P refX refVx xNow vNow)

/-- The solution as a solver for the loop of `simulate`. -/
def jointMpc : MpcSolve cfg.Np := fun _ refX refVx xNow vNow =>
  let P := predictionMatrices cfg.Np cfg.Ts
  (jointH cfg P)⁻¹ *ᵥ jointB cfg P refX refVx xNow vNow

/-! ## What it stands for -/

/-- `|u|²` -/
def sqNorm {n : ℕ} (u : Fin n → ℝ) : ℝ := u ⬝ᵥ u

/-- The differences of successive accelerations. -/
def accelDiff {n : ℕ} (U : Fin n → ℝ) : Fin (n - 1) → ℝ := fun i =>
  U ⟨i + 1, by omega⟩ - U ⟨i, by omega⟩

/-- The objective, of the accelerations over the horizon. -/
def jointCost (U : Fin cfg.Np → ℝ) : ℝ :=
  let x := baseX cfg xNow vNow + P.Mx *ᵥ U
  let v := baseV cfg vNow + P.Mv *ᵥ U
  cfg.wGalvoPos * sqNorm (refX - x)
    + cfg.wGalvoVel * sqNorm (refVx - v)
    + cfg.wAxisVel * sqNorm v
    + cfg.wAxisAccel * sqNorm U
    + cfg.wAxisJerk * sqNorm (accelDiff U)
    + cfg.wTerminalPos * (refX - x) cfg.last ^ 2
    + cfg.wTerminalVel * (refVx - v) cfg.last ^ 2
    + cfg.reg * sqNorm U

/-- No weight is negative. -/
structure Config.NonnegWeights (cfg : Config ℝ) : Prop where
  galvoPos : 0 ≤ cfg.wGalvoPos
  galvoVel : 0 ≤ cfg.wGalvoVel
  axisVel : 0 ≤ cfg.wAxisVel
  axisAccel : 0 ≤ cfg.wAxisAccel
  axisJerk : 0 ≤ cfg.wAxisJerk
  terminalPos : 0 ≤ cfg.wTerminalPos
  terminalVel : 0 ≤ cfg.wTerminalVel

theorem Config.nonnegWeights_defaults : (Config.defaults ℝ).NonnegWeights := by
  constructor <;> norm_num [Config.defaults]

/-! ## The solve as a minimisation -/

/-- The terms of the objective, in the order of the code. -/
def jointQuadratic : Quadratic (Fin cfg.Np) :=
  .residual cfg.wGalvoPos (refX - baseX cfg xNow vNow) P.Mx
    + .residual cfg.wGalvoVel (refVx - baseV cfg vNow) P.Mv
    + .residual cfg.wAxisVel (-baseV cfg vNow) P.Mv
    + .square cfg.wAxisAccel
    + .residual cfg.wAxisJerk 0 P.D
    + .single cfg.wTerminalPos ((refX - baseX cfg xNow vNow) cfg.last) (P.Mx cfg.last)
    + .single cfg.wTerminalVel ((refVx - baseV cfg vNow) cfg.last) (P.Mv cfg.last)
    + .square cfg.reg

theorem jointQuadratic_H : (jointQuadratic cfg P refX refVx xNow vNow).H = jointH cfg P := rfl

theorem jointQuadratic_b :
    (jointQuadratic cfg P refX refVx xNow vNow).b = jointB cfg P refX refVx xNow vNow := by
  simp only [jointQuadratic, Quadratic.add_b, Quadratic.residual, Quadratic.square,
    Quadratic.single, jointB, mulVec_neg, mulVec_zero, smul_neg, smul_zero, add_zero]
  rw [← sub_eq_add_neg]
  congr 1
  · congr 1
    funext j
    simp only [Pi.smul_apply, Pi.sub_apply, smul_eq_mul]
    ring
  · funext j
    simp only [Pi.smul_apply, Pi.sub_apply, smul_eq_mul]
    ring

/-- `H` is positive definite, for the regularisation is. -/
theorem jointH_posDef {cfg : Config ℝ} (hw : cfg.NonnegWeights) (hreg : 0 < cfg.reg)
    (P : Prediction cfg.Np) : (jointH cfg P).PosDef := by
  rw [← jointQuadratic_H cfg P 0 0 0 0]
  refine PosDef.posSemidef_add ?_ (Quadratic.square_posDef hreg)
  refine (((((PosSemidef.add ?_ ?_).add ?_).add ?_).add ?_).add ?_).add ?_
  · exact Quadratic.residual_posSemidef hw.galvoPos _ _
  · exact Quadratic.residual_posSemidef hw.galvoVel _ _
  · exact Quadratic.residual_posSemidef hw.axisVel _ _
  · exact Quadratic.square_posSemidef hw.axisAccel
  · exact Quadratic.residual_posSemidef hw.axisJerk _ _
  · exact Quadratic.single_posSemidef hw.terminalPos _ _
  · exact Quadratic.single_posSemidef hw.terminalVel _ _

/-- A row of `D` takes one entry from the next. -/
theorem predictionMatrices_D (Np : ℕ) (Ts : ℝ) (U : Fin Np → ℝ) :
    (predictionMatrices Np Ts).D *ᵥ U = accelDiff U := by
  funext i
  have hrow : (predictionMatrices Np Ts).D i
      = Pi.single (⟨i + 1, by omega⟩ : Fin Np) 1 - Pi.single (⟨i, by omega⟩ : Fin Np) 1 := by
    funext j
    simp only [predictionMatrices, of_apply, Pi.sub_apply, Pi.single_apply, Fin.ext_iff]
    split_ifs <;> first | omega | norm_num
  show (predictionMatrices Np Ts).D i ⬝ᵥ U = _
  rw [hrow, sub_dotProduct, single_dotProduct, single_dotProduct, one_mul, one_mul, accelDiff]

theorem eval_jointQuadratic (U : Fin cfg.Np → ℝ) :
    (jointQuadratic cfg (predictionMatrices cfg.Np cfg.Ts) refX refVx xNow vNow).eval U
      = jointCost cfg (predictionMatrices cfg.Np cfg.Ts) refX refVx xNow vNow U := by
  have hneg (u w : Fin cfg.Np → ℝ) : (-u - w) ⬝ᵥ (-u - w) = (u + w) ⬝ᵥ (u + w) := by
    rw [← neg_add', neg_dotProduct_neg]
  have hzero (u : Fin (cfg.Np - 1) → ℝ) : (0 - u) ⬝ᵥ (0 - u) = u ⬝ᵥ u := by
    rw [zero_sub, neg_dotProduct_neg]
  rw [jointQuadratic]
  simp only [Quadratic.eval_add, Quadratic.eval_residual, Quadratic.eval_square,
    Quadratic.eval_single]
  rw [predictionMatrices_D, hneg, hzero]
  simp only [jointCost, sqNorm, sub_sub, Pi.sub_apply, Pi.add_apply]
  rfl

/-- **The solve**, where `H` is positive definite. -/
theorem solveJointMpc_ok {cfg : Config ℝ} {P : Prediction cfg.Np} (hH : (jointH cfg P).PosDef)
    (refX refVx : Fin cfg.Np → ℝ) (xNow vNow : ℝ) :
    ∃ U, solveJointMpc cfg P refX refVx xNow vNow = .ok U
      ∧ jointH cfg P *ᵥ U = jointB cfg P refX refVx xNow vNow := by
  refine ⟨_, if_pos hH.isUnit, ?_⟩
  rw [mulVec_mulVec, mul_nonsing_inv _ ((isUnit_iff_isUnit_det _).mp hH.isUnit), one_mulVec]

end Solve

/-- The matrix is the same in every cycle, and so is whether the system can be solved. -/
theorem solveJointMpc_eq_jointMpc {cfg : Config ℝ}
    (hH : IsUnit (jointH cfg (predictionMatrices cfg.Np cfg.Ts))) (k : ℕ)
    (refX refVx : Fin cfg.Np → ℝ) (xNow vNow : ℝ) :
    solveJointMpc cfg (predictionMatrices cfg.Np cfg.Ts) refX refVx xNow vNow
      = .ok (jointMpc cfg k refX refVx xNow vNow) := if_pos hH

/-- **The step of the controller solves its optimisation**: the system is symmetric and
positive definite, and the solution costs less than any other accelerations. -/
theorem solveJointMpc_minimises (cfg : Config ℝ) (refX refVx : Fin cfg.Np → ℝ) (xNow vNow : ℝ)
    (hw : cfg.NonnegWeights) (hreg : 0 < cfg.reg) :
    let P := predictionMatrices cfg.Np cfg.Ts
    (jointH cfg P).IsSymm ∧ (jointH cfg P).PosDef
      ∧ ∃ U, solveJointMpc cfg P refX refVx xNow vNow = .ok U
        ∧ ∀ V, V ≠ U → jointCost cfg P refX refVx xNow vNow U
          < jointCost cfg P refX refVx xNow vNow V := by
  intro P
  have hH := jointH_posDef hw hreg P
  obtain ⟨U, hsolve, hU⟩ := solveJointMpc_ok hH refX refVx xNow vNow
  refine ⟨?_, hH, U, hsolve, ?_⟩
  · have h := hH.isHermitian
    rwa [IsHermitian, conjTranspose_eq_transpose_of_trivial] at h
  · intro V hV
    rw [← jointQuadratic_H cfg P refX refVx xNow vNow] at hH hU
    rw [← jointQuadratic_b] at hU
    rw [← eval_jointQuadratic, ← eval_jointQuadratic]
    exact Quadratic.eval_lt_eval hH hU hV

/-- At the default configuration. -/
theorem solveJointMpc_minimises_defaults :
    ∃ U, solveJointMpc (Config.defaults ℝ) (predictionMatrices 60 (1 / 1000)) (fun _ => 1)
        (fun _ => 65) 0 65 = .ok U
      ∧ ∀ V, V ≠ U → jointCost (Config.defaults ℝ) (predictionMatrices 60 (1 / 1000)) (fun _ => 1)
          (fun _ => 65) 0 65 U
        < jointCost (Config.defaults ℝ) (predictionMatrices 60 (1 / 1000)) (fun _ => 1)
          (fun _ => 65) 0 65 V := by
  exact (solveJointMpc_minimises (Config.defaults ℝ) (fun _ => 1) (fun _ => 65) 0 65
    Config.nonnegWeights_defaults (by norm_num [Config.defaults])).2.2

end

end GalvoCtrl.Split
