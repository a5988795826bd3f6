import GalvoCtrl.Split.Mpc

/-!
# Split — Loop

The loop of `simulate` with `solve_joint_mpc` called in it. The system has the same
matrix in every cycle, so either no call fails or the first one does; if none fails the
loop fills the arrays that `simulateTarget` reads off the states of the axis.
-/

namespace GalvoCtrl.Split

open GalvoCtrl.Lib GalvoCtrl.Nc Matrix

noncomputable section

/-- One pass of the loop: the command after the clamps, and the entries it writes. -/
structure Pass where
  command : AxisCommand
  entry : Cycle

section Loop

variable (cfg : Config ℝ) (target : Target)

/-- The body of the loop, from `x_now` and `v_now` to the next. -/
def loopPass (P : Prediction cfg.Np) (refX refVx : Fin cfg.Np → ℝ) (row : TargetRow)
    (s : AxisState) : Except String (Pass × AxisState) :=
  match solveJointMpc cfg P refX refVx s.x s.v with
  | .error message => .error message
  | .ok U =>
      let c := limitAxis cfg s.v (U ⟨0, cfg.Np_pos⟩)
      .ok (⟨c, cycle cfg s c row⟩,
        ⟨s.x + s.v * cfg.Ts + 0.5 * c.aCmd * cfg.Ts * cfg.Ts, c.nextV⟩)

/-- The loop for the indices `ks`, from `x_now` and `v_now` on. -/
def simulateFrom (P : Prediction cfg.Np) :
    (ks : List (Fin target.K)) → AxisState → Except String (List Pass)
  | [], _ => .ok []
  | k :: ks, s =>
      match loopPass cfg P (fun i => (target.row (target.future k i)).x)
          (fun i => (target.row (target.future k i)).vx) (target.row k) s with
      | .error message => .error message
      | .ok (pass, next) =>
          match simulateFrom P ks next with
          | .error message => .error message
          | .ok passes => .ok (pass :: passes)

/-- The loop of `simulate`, `for k in range(K)`. -/
def simulateLoop : Except String (List Pass) :=
  simulateFrom cfg target (predictionMatrices cfg.Np cfg.Ts) (List.finRange target.K)
    ⟨(target.row target.first).x, (target.row target.first).vx⟩

/-- The pass of cycle `k`, read off the state of the axis. -/
def passAt (k : Fin target.K) : Pass :=
  ⟨axisCommand cfg (jointMpc cfg) target k (axisState cfg (jointMpc cfg) target k),
    cycleAt cfg (jointMpc cfg) target k⟩

variable {cfg}

/-- The indices left before cycle `n`. -/
theorem finRange_drop {K n : ℕ} (hn : n < K) :
    (List.finRange K).drop n = ⟨n, hn⟩ :: (List.finRange K).drop (n + 1) := by
  rw [List.drop_eq_getElem_cons (by rwa [List.length_finRange]), List.getElem_finRange]
  rfl

/-- **One cycle**, where the system can be solved. -/
theorem loopPass_eq (hH : IsUnit (jointH cfg (predictionMatrices cfg.Np cfg.Ts)))
    (k : Fin target.K) :
    loopPass cfg (predictionMatrices cfg.Np cfg.Ts) (fun i => (target.row (target.future k i)).x)
        (fun i => (target.row (target.future k i)).vx) (target.row k)
        (axisState cfg (jointMpc cfg) target k)
      = .ok (passAt cfg target k, axisState cfg (jointMpc cfg) target (k + 1)) := by
  rw [loopPass, solveJointMpc_eq_jointMpc hH k]
  rfl

/-- **From cycle `n` on.** -/
theorem simulateFrom_eq (hH : IsUnit (jointH cfg (predictionMatrices cfg.Np cfg.Ts))) (n : ℕ) :
    simulateFrom cfg target (predictionMatrices cfg.Np cfg.Ts)
        ((List.finRange target.K).drop n) (axisState cfg (jointMpc cfg) target n)
      = .ok (((List.finRange target.K).drop n).map (passAt cfg target)) := by
  induction hd : target.K - n generalizing n with
  | zero =>
      rw [List.drop_eq_nil_of_le (by rw [List.length_finRange]; omega)]
      rfl
  | succ d ih =>
      have hn : n < target.K := by omega
      have hpass := loopPass_eq target hH ⟨n, hn⟩
      rw [finRange_drop hn, simulateFrom, hpass, List.map_cons]
      dsimp only
      rw [ih (n + 1) (by omega)]

/-- **The loop**: all its passes, if the matrix of the system is not singular. -/
theorem simulateLoop_eq (hH : IsUnit (jointH cfg (predictionMatrices cfg.Np cfg.Ts))) :
    simulateLoop cfg target
      = .ok ((List.finRange target.K).map (passAt cfg target)) := simulateFrom_eq target hH 0

/-- Else the first cycle fails. -/
theorem simulateLoop_singular
    (hH : ¬IsUnit (jointH cfg (predictionMatrices cfg.Np cfg.Ts))) :
    simulateLoop cfg target = .error "Singular matrix" := by
  have hsolve (refX refVx : Fin cfg.Np → ℝ) (x v : ℝ) :
      solveJointMpc cfg (predictionMatrices cfg.Np cfg.Ts) refX refVx x v
        = .error "Singular matrix" := if_neg hH
  rw [simulateLoop, ← List.drop_zero (l := List.finRange target.K), finRange_drop target.K_pos,
    simulateFrom, loopPass, hsolve]

/-- The arrays of a loop that did not fail are those of `simulateTarget`. -/
theorem simulateLoop_entry {passes : List Pass} (h : simulateLoop cfg target = .ok passes)
    (k : Fin target.K) : passes[k.val]? = some (passAt cfg target k) := by
  by_cases hH : IsUnit (jointH cfg (predictionMatrices cfg.Np cfg.Ts))
  · rw [simulateLoop_eq target hH] at h
    obtain rfl := Except.ok.inj h
    rw [List.getElem?_map, List.getElem?_eq_getElem (by simp), List.getElem_finRange]
    rfl
  · rw [simulateLoop_singular target hH] at h
    cases h

end Loop

end

end GalvoCtrl.Split
