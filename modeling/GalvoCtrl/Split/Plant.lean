import GalvoCtrl.Split.Mpc

/-!
# Split — Plant

The long axis as a plant: position and velocity under an acceleration that is held for
a cycle. The prediction of `solve_joint_mpc` is a run of this plant, and so is what
`simulate` records, whichever of the clamps is active.
-/

namespace GalvoCtrl.Split

open GalvoCtrl.Lib GalvoCtrl.Nc Matrix

noncomputable section

/-- One cycle under the acceleration `a`. -/
def plantStep (Ts : ℝ) (s : AxisState) (a : ℝ) : AxisState :=
  ⟨s.x + s.v * Ts + a * Ts ^ 2 / 2, s.v + a * Ts⟩

def plantRun (Ts : ℝ) (s : AxisState) (as : List ℝ) : AxisState := as.foldl (plantStep Ts) s

/-- One step more. -/
theorem plantRun_take_succ (Ts : ℝ) (s : AxisState) {as : List ℝ} {i : ℕ} (h : i < as.length) :
    plantRun Ts s (as.take (i + 1)) = plantStep Ts (plantRun Ts s (as.take i)) as[i] := by
  rw [plantRun, List.take_succ_eq_append_getElem h, List.foldl_append]
  rfl

/-! ## The prediction -/

/-- The entries of `base_x + Mx @ U` and `base_v + Mv @ U` at an index. -/
def predictedState (cfg : Config ℝ) (xNow vNow : ℝ) (U : Fin cfg.Np → ℝ) (i : Fin cfg.Np) :
    AxisState :=
  let P := predictionMatrices cfg.Np cfg.Ts
  ⟨(baseX cfg xNow vNow + P.Mx *ᵥ U) i, (baseV cfg vNow + P.Mv *ᵥ U) i⟩

section Rows

variable (Np : ℕ) (Ts : ℝ)

/-- A row of `Mv` is the one before it with the next acceleration. -/
theorem predictionMatrices_Mv_succ {i i' : Fin Np} (hi : i'.val = i.val + 1) :
    (predictionMatrices Np Ts).Mv i' = (predictionMatrices Np Ts).Mv i + Pi.single i' Ts := by
  funext j
  simp only [predictionMatrices, of_apply, Pi.add_apply, Pi.single_apply, Fin.ext_iff, hi]
  split_ifs <;> first | omega | ring

/-- A row of `Mx` is the one before it, carried on by the velocities there. -/
theorem predictionMatrices_Mx_succ {i i' : Fin Np} (hi : i'.val = i.val + 1) :
    (predictionMatrices Np Ts).Mx i' = (predictionMatrices Np Ts).Mx i
      + Ts • (predictionMatrices Np Ts).Mv i + (Pi.single i' (Ts ^ 2 / 2) : Fin Np → ℝ) := by
  funext j
  simp only [predictionMatrices, of_apply, Pi.add_apply, Pi.smul_apply, Pi.single_apply,
    Fin.ext_iff, hi, smul_eq_mul]
  by_cases hj : j.val < i.val + 1
  · rw [if_pos (by omega), if_pos hj, if_pos hj, if_neg (by omega)]
    push_cast
    ring
  · by_cases hlast : j.val = i.val + 1
    · rw [if_pos (by omega), if_neg hj, if_neg hj, if_pos hlast, hlast]
      push_cast
      ring
    · rw [if_neg (by omega), if_neg hj, if_neg hj, if_neg hlast]
      ring

theorem predictionMatrices_Mv_first {i : Fin Np} (hi : i.val = 0) :
    (predictionMatrices Np Ts).Mv i = Pi.single i Ts := by
  funext j
  simp only [predictionMatrices, of_apply, Pi.single_apply, Fin.ext_iff, hi]
  split_ifs <;> first | omega | rfl

theorem predictionMatrices_Mx_first {i : Fin Np} (hi : i.val = 0) :
    (predictionMatrices Np Ts).Mx i = Pi.single i (Ts ^ 2 / 2) := by
  funext j
  simp only [predictionMatrices, of_apply, Pi.single_apply, Fin.ext_iff, hi]
  split_ifs with hj hj'
  · rw [hj']
    push_cast
    ring
  · omega
  · omega
  · rfl

end Rows

section Prediction

variable (cfg : Config ℝ) (xNow vNow : ℝ) (U : Fin cfg.Np → ℝ)

theorem predictedState_eq (i : Fin cfg.Np) :
    predictedState cfg xNow vNow U i
      = ⟨xNow + (i.val + 1 : ℕ) * cfg.Ts * vNow
            + (predictionMatrices cfg.Np cfg.Ts).Mx i ⬝ᵥ U,
          vNow + (predictionMatrices cfg.Np cfg.Ts).Mv i ⬝ᵥ U⟩ := rfl

theorem predictedState_first {i : Fin cfg.Np} (hi : i.val = 0) :
    predictedState cfg xNow vNow U i = plantStep cfg.Ts ⟨xNow, vNow⟩ (U i) := by
  rw [predictedState_eq, predictionMatrices_Mx_first _ _ hi, predictionMatrices_Mv_first _ _ hi,
    single_dotProduct, single_dotProduct, hi, plantStep]
  congr 1
  · push_cast
    ring
  · ring

theorem predictedState_succ {i i' : Fin cfg.Np} (hi : i'.val = i.val + 1) :
    predictedState cfg xNow vNow U i'
      = plantStep cfg.Ts (predictedState cfg xNow vNow U i) (U i') := by
  rw [predictedState_eq, predictedState_eq, predictionMatrices_Mx_succ _ _ hi,
    predictionMatrices_Mv_succ _ _ hi, hi, plantStep]
  simp only [add_dotProduct, smul_dotProduct, single_dotProduct, smul_eq_mul]
  congr 1
  · push_cast
    ring
  · ring

/-- **The prediction is a run of the plant**, by induction on the horizon. -/
theorem predictedState_eq_plantRun (i : Fin cfg.Np) :
    predictedState cfg xNow vNow U i
      = plantRun cfg.Ts ⟨xNow, vNow⟩ ((List.ofFn U).take (i + 1)) := by
  obtain ⟨i, hi⟩ := i
  induction i with
  | zero =>
      rw [predictedState_first cfg xNow vNow U rfl, plantRun_take_succ _ _ (by simpa using hi),
        List.getElem_ofFn]
      rfl
  | succ i ih =>
      have hi' : i < cfg.Np := by omega
      rw [predictedState_succ cfg xNow vNow U (i := ⟨i, hi'⟩) rfl, ih hi',
        plantRun_take_succ _ _ (i := i + 1) (by simpa using hi), List.getElem_ofFn]

end Prediction

/-! ## The simulation -/

/-- In each branch of the clamps, the velocity is what the acceleration makes of it. -/
theorem limitAxis_nextV {cfg : Config ℝ} (hTs : cfg.Ts ≠ 0) (v aRaw : ℝ) :
    (limitAxis cfg v aRaw).nextV = v + (limitAxis cfg v aRaw).aCmd * cfg.Ts := by
  unfold limitAxis
  dsimp only
  split_ifs
  · rw [div_mul_cancel₀ _ hTs]
    ring
  · rw [div_mul_cancel₀ _ hTs]
    ring
  · rfl

section Simulation

variable {cfg : Config ℝ} (solve : MpcSolve cfg.Np) (target : Target)

theorem axisState_succ (hTs : cfg.Ts ≠ 0) (k : ℕ) :
    axisState cfg solve target (k + 1) = plantStep cfg.Ts (axisState cfg solve target k)
      (axisCommand cfg solve target k (axisState cfg solve target k)).aCmd := by
  rw [axisState, plantStep, axisCommand, limitAxis_nextV hTs]
  congr 1
  ring

end Simulation

/-- The long axis of `data` runs as the plant does, from the first target position. -/
structure IsPlantRun (Ts : ℝ) (data : SimData ℝ) : Prop where
  start : ∀ k : Fin data.K, k.val = 0 → data.axisX k = data.targetX k
  step : ∀ k k' : Fin data.K, k'.val = k.val + 1 →
    data.axisX k' = data.axisX k + data.axisVx k * Ts + data.axisA k * Ts ^ 2 / 2
      ∧ data.axisVx k' = data.axisVx k + data.axisA k * Ts

theorem simulateTarget_isPlantRun {cfg : Config ℝ} (hTs : cfg.Ts ≠ 0) (solve : MpcSolve cfg.Np)
    (target : Target) : IsPlantRun cfg.Ts (simulateTarget cfg solve target) where
  start k hk := by
    have hfirst : k = target.first := Fin.ext hk
    subst hfirst
    rfl
  step k k' hk' := by
    have h := axisState_succ solve target hTs k
    rw [← hk'] at h
    exact ⟨congrArg AxisState.x h, congrArg AxisState.v h⟩

/-- The recorded state of any cycle, from the first and the recorded accelerations. -/
theorem IsPlantRun.run {Ts : ℝ} {data : SimData ℝ} (h : IsPlantRun Ts data) (hK : 0 < data.K)
    (k : Fin data.K) : (⟨data.axisX k, data.axisVx k⟩ : AxisState)
      = plantRun Ts ⟨data.targetX ⟨0, hK⟩, data.axisVx ⟨0, hK⟩⟩
          ((List.ofFn data.axisA).take k) := by
  obtain ⟨k, hk⟩ := k
  induction k with
  | zero =>
      rw [h.start ⟨0, hK⟩ rfl]
      rfl
  | succ k ih =>
      have hk' : k < data.K := by omega
      obtain ⟨hx, hv⟩ := h.step ⟨k, hk'⟩ ⟨k + 1, hk⟩ rfl
      rw [plantRun_take_succ _ _ (by simpa using hk'), ← ih hk', List.getElem_ofFn, plantStep, hx,
        hv]

/-- **The prediction model is the plant that `simulate` advances.** -/
theorem prediction_and_simulation_run_plant (cfg : Config ℝ) (hTs : 0 < cfg.Ts) :
    (∀ (xNow vNow : ℝ) (U : Fin cfg.Np → ℝ) (i : Fin cfg.Np), predictedState cfg xNow vNow U i
        = plantRun cfg.Ts ⟨xNow, vNow⟩ ((List.ofFn U).take (i + 1)))
      ∧ ∀ (solve : MpcSolve cfg.Np) (path : String) (text : List Char)
          (moves : List (LinearMove ℝ)), parseNcFile path text cfg = .ok moves →
        ∃ data, simulate cfg solve path text = .ok data
          ∧ data.K = 1 + (moves.map fun move => max 1 ⌈move.length / (move.usedFeed * cfg.Ts)⌉₊).sum
          ∧ IsPlantRun cfg.Ts data := by
  refine ⟨predictedState_eq_plantRun cfg, ?_⟩
  intro solve path text moves hparse
  obtain ⟨target, hrows, hrun⟩ := simulate_of_parse cfg solve hparse
  exact ⟨_, hrun, hrows.K_eq, simulateTarget_isPlantRun hTs.ne' solve target⟩

/-- At the default configuration, a job under its own solver. -/
theorem prediction_and_simulation_run_plant_defaults :
    (∀ U i, predictedState (Config.defaults ℝ) 0 65 U i
        = plantRun (1 / 1000) ⟨0, 65⟩ ((List.ofFn U).take (i + 1)))
      ∧ ∃ data, simulate (Config.defaults ℝ) (jointMpc _) "part.nc" "G1 X10".toList = .ok data
        ∧ data.K = 155 ∧ IsPlantRun (1 / 1000) data := by
  obtain ⟨hpredict, hsimulate⟩ := prediction_and_simulation_run_plant (Config.defaults ℝ)
    (by norm_num [Config.defaults])
  have hparse := parseNcFile_defaults (by decide +kernel :
    parseNcFile "part.nc" "G1 X10".toList (Config.defaults ℚ) = .ok [⟨0, 0, 10, 0, 65, 0, false⟩])
  obtain ⟨data, hrun, hK, hplant⟩ := hsimulate (jointMpc _) "part.nc" "G1 X10".toList _ hparse
  refine ⟨hpredict 0 65, data, hrun, hK.trans ?_, hplant⟩
  have hceil : ⌈(2000 / 13 : ℝ)⌉₊ = 154 := (Nat.ceil_eq_iff (by decide)).mpr (by norm_num)
  norm_num [LinearMove.mapFeed, LinearMove.dx, LinearMove.dy, LinearMove.length,
    LinearMove.usedFeed, hypot_zero_right, Config.defaults, hceil]

end

end GalvoCtrl.Split
