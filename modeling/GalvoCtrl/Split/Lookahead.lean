import GalvoCtrl.Split.Stream

/-!
# Split — Lookahead

How far ahead the loop looks: a cycle reads its own sample and the `Np` after it, and
of these the plan of the axis depends on the positions and velocities alone. So two
targets that agree up to a sample get the same plan up to `Np` cycles before it. And the
samples need not be known beforehand: a planner that holds `Np` of them does what the
loop does.
-/

namespace GalvoCtrl.Split

open GalvoCtrl.Lib Matrix

noncomputable section

/-! ## Targets that agree -/

/-- The samples up to `m`, which both have, ask for the same along x. -/
structure Target.AgreeTo (target₁ target₂ : Target) (m : ℕ) : Prop where
  lt₁ : m < target₁.K
  lt₂ : m < target₂.K
  x (i : ℕ) (hi : i ≤ m) :
    (target₁.row ⟨i, hi.trans_lt lt₁⟩).x = (target₂.row ⟨i, hi.trans_lt lt₂⟩).x
  vx (i : ℕ) (hi : i ≤ m) :
    (target₁.row ⟨i, hi.trans_lt lt₁⟩).vx = (target₂.row ⟨i, hi.trans_lt lt₂⟩).vx

/-- An index that is not clipped. -/
theorem Target.future_eq {target : Target} {k i : ℕ} (h : k + 1 + i < target.K) :
    target.future k i = ⟨k + 1 + i, h⟩ :=
  Fin.ext (min_eq_left (by omega))

/-- A reference that is taken from what they share. -/
theorem Target.AgreeTo.future {target₁ target₂ : Target} {m : ℕ} (h : target₁.AgreeTo target₂ m)
    {k i : ℕ} (hi : k + 1 + i ≤ m) :
    (target₁.row (target₁.future k i)).x = (target₂.row (target₂.future k i)).x
      ∧ (target₁.row (target₁.future k i)).vx = (target₂.row (target₂.future k i)).vx := by
  rw [Target.future_eq (hi.trans_lt h.lt₁), Target.future_eq (hi.trans_lt h.lt₂)]
  exact ⟨h.x _ hi, h.vx _ hi⟩

section Agree

variable {cfg : Config ℝ} {target₁ target₂ : Target} {m : ℕ} (h : target₁.AgreeTo target₂ m)
  (solve : MpcSolve cfg.Np)

include h

/-- **One cycle**: whose horizon ends at `m`, or before. -/
theorem axisCommand_agree {k : ℕ} (hk : k + cfg.Np ≤ m) (s : AxisState) :
    axisCommand cfg solve target₁ k s = axisCommand cfg solve target₂ k s := by
  have hx : (fun i : Fin cfg.Np => (target₁.row (target₁.future k i)).x)
      = fun i : Fin cfg.Np => (target₂.row (target₂.future k i)).x := by
    funext i
    exact (h.future (by omega)).1
  have hvx : (fun i : Fin cfg.Np => (target₁.row (target₁.future k i)).vx)
      = fun i : Fin cfg.Np => (target₂.row (target₂.future k i)).vx := by
    funext i
    exact (h.future (by omega)).2
  rw [axisCommand, axisCommand, rawAcceleration, rawAcceleration, hx, hvx]

/-- **All cycles up to it**: the state of the axis, one cycle further. -/
theorem axisState_agree {k : ℕ} (hk : k + cfg.Np ≤ m + 1) :
    axisState cfg solve target₁ k = axisState cfg solve target₂ k := by
  induction k with
  | zero => exact congrArg₂ AxisState.mk (h.x 0 (Nat.zero_le m)) (h.vx 0 (Nat.zero_le m))
  | succ k ih =>
      rw [axisState, axisState, ih (by omega), axisCommand_agree h solve (by omega)]

end Agree

/-- What a pass does to the axis is the same. -/
structure Pass.SameAxis (p₁ p₂ : Pass) : Prop where
  axisX : p₁.entry.axisX = p₂.entry.axisX
  axisVx : p₁.entry.axisVx = p₂.entry.axisVx
  axisA : p₁.entry.axisA = p₂.entry.axisA
  limited : p₁.command.limited = p₂.command.limited
  axisOk : p₁.entry.axisOk = p₂.entry.axisOk

theorem passAt_sameAxis {cfg : Config ℝ} {target₁ target₂ : Target} {m : ℕ}
    (h : target₁.AgreeTo target₂ m) {k : ℕ} (hk : k + cfg.Np ≤ m) (hk₁ : k < target₁.K)
    (hk₂ : k < target₂.K) :
    (passAt cfg target₁ ⟨k, hk₁⟩).SameAxis (passAt cfg target₂ ⟨k, hk₂⟩) := by
  have hstate := axisState_agree h (jointMpc cfg) (k := k) (by omega)
  have hcommand := axisCommand_agree h (jointMpc cfg) hk
  constructor <;> simp only [passAt, cycleAt, cycle, hstate, hcommand]

/-- **The loop looks `Np` samples ahead.** On targets that agree up to `m` it runs to the
end, and plans the same for every cycle whose horizon ends there; it only fails where the
matrix of the system is singular, and then on both. And sent one after the other, with `Np`
of them held, the samples give the same passes. -/
theorem simulateLoop_lookahead (cfg : Config ℝ) (target₁ target₂ : Target) (m : ℕ)
    (h : target₁.AgreeTo target₂ m) :
    (IsUnit (jointH cfg (predictionMatrices cfg.Np cfg.Ts)) →
        ∃ passes₁ passes₂, simulateLoop cfg target₁ = .ok passes₁ ∧ passes₁.length = target₁.K
          ∧ simulateLoop cfg target₂ = .ok passes₂ ∧ passes₂.length = target₂.K
          ∧ ∀ k, k + cfg.Np ≤ m → ∃ p₁ p₂, passes₁[k]? = some p₁ ∧ passes₂[k]? = some p₂
            ∧ p₁.SameAxis p₂)
      ∧ (¬IsUnit (jointH cfg (predictionMatrices cfg.Np cfg.Ts)) →
        simulateLoop cfg target₁ = .error "Singular matrix"
          ∧ simulateLoop cfg target₂ = .error "Singular matrix")
      ∧ Planner.idle.feed (predictionMatrices cfg.Np cfg.Ts) (List.ofFn target₁.row
            ++ List.replicate cfg.Np (target₁.clipped target₁.K))
          = simulateLoop cfg target₁ := by
  refine ⟨fun hH => ?_, fun hH => ?_, Planner.feed_idle target₁ _⟩
  · have hloop₁ := simulateLoop_eq target₁ hH
    have hloop₂ := simulateLoop_eq target₂ hH
    have hlength (target : Target) :
        ((List.finRange target.K).map (passAt cfg target)).length = target.K := by
      rw [List.length_map, List.length_finRange]
    refine ⟨_, _, hloop₁, hlength target₁, hloop₂, hlength target₂, ?_⟩
    intro k hk
    have hk₁ : k < target₁.K := by have := h.lt₁; omega
    have hk₂ : k < target₂.K := by have := h.lt₂; omega
    exact ⟨_, _, simulateLoop_entry target₁ hloop₁ ⟨k, hk₁⟩,
      simulateLoop_entry target₂ hloop₂ ⟨k, hk₂⟩, passAt_sameAxis h hk hk₁ hk₂⟩
  · exact ⟨simulateLoop_singular target₁ hH, simulateLoop_singular target₂ hH⟩

/-- One sample ahead, and a second target that goes on after the first has ended. -/
theorem simulateLoop_lookahead_longer :
    let cfg := { Config.defaults ℝ with Np := 1, Np_pos := one_pos }
    let row₀ : TargetRow := ⟨0, 0, 1, 65, 0, 1⟩
    let row₁ : TargetRow := ⟨1 / 1000, 65 / 1000, 1, 65, 0, 1⟩
    let target₁ := Target.ofRows [row₀] row₁
    let target₂ := Target.ofRows [row₀, row₁] ⟨2 / 1000, 9, 1, -80, 0, 0⟩
    (∃ passes₁ passes₂, simulateLoop cfg target₁ = .ok passes₁ ∧ passes₁.length = 2
        ∧ simulateLoop cfg target₂ = .ok passes₂ ∧ passes₂.length = 3
        ∧ ∃ p₁ p₂, passes₁[0]? = some p₁ ∧ passes₂[0]? = some p₂ ∧ p₁.SameAxis p₂)
      ∧ Planner.idle.feed (predictionMatrices cfg.Np cfg.Ts) (List.ofFn target₁.row ++ [row₁])
          = simulateLoop cfg target₁ := by
  intro cfg row₀ row₁ target₁ target₂
  have h : target₁.AgreeTo target₂ 1 := by
    refine ⟨by decide, by decide, ?_, ?_⟩
    · intro i hi
      interval_cases i <;> rfl
    · intro i hi
      interval_cases i <;> rfl
  have hweights : cfg.NonnegWeights := by
    constructor <;> norm_num [cfg, Config.defaults]
  have hreg : 0 < cfg.reg := by norm_num [cfg, Config.defaults]
  have hH := (jointH_posDef hweights hreg (predictionMatrices cfg.Np cfg.Ts)).isUnit
  obtain ⟨hruns, _, hfeed⟩ := simulateLoop_lookahead cfg target₁ target₂ 1 h
  obtain ⟨passes₁, passes₂, hloop₁, hlength₁, hloop₂, hlength₂, hsame⟩ := hruns hH
  exact ⟨⟨passes₁, passes₂, hloop₁, hlength₁, hloop₂, hlength₂, hsame 0 le_rfl⟩, hfeed⟩

/-! ## No shorter horizon -/

/-- The controller weighs the position at the end of its horizon, and nothing else. -/
structure Config.TerminalOnly (cfg : Config ℝ) : Prop where
  galvoPos : cfg.wGalvoPos = 0
  galvoVel : cfg.wGalvoVel = 0
  axisVel : cfg.wAxisVel = 0
  axisAccel : cfg.wAxisAccel = 0
  axisJerk : cfg.wAxisJerk = 0
  terminalPos : cfg.wTerminalPos = 1
  terminalVel : cfg.wTerminalVel = 0
  reg : cfg.reg = 1

section Terminal

variable {cfg : Config ℝ} (h : cfg.TerminalOnly) (P : Prediction cfg.Np)

include h

theorem jointH_terminal :
    jointH cfg P = vecMulVec (P.Mx cfg.last) (P.Mx cfg.last) + 1 := by
  rw [jointH, h.galvoPos, h.galvoVel, h.axisVel, h.axisAccel, h.axisJerk, h.terminalPos,
    h.terminalVel, h.reg]
  simp only [zero_smul, one_smul, zero_add, add_zero]

theorem jointB_terminal (refX refVx : Fin cfg.Np → ℝ) :
    jointB cfg P refX refVx 0 0 = refX cfg.last • P.Mx cfg.last := by
  funext j
  simp only [jointB, h.galvoPos, h.galvoVel, h.axisVel, h.terminalPos, h.terminalVel, baseX]
  simp only [zero_smul, zero_mul, one_mul, mul_zero, add_zero, sub_zero, zero_add, Pi.add_apply,
    Pi.smul_apply, smul_eq_mul]
  exact mul_comm _ _

omit P in
theorem Config.TerminalOnly.nonnegWeights : cfg.NonnegWeights := by
  constructor <;> linarith [h.galvoPos, h.galvoVel, h.axisVel, h.axisAccel, h.axisJerk,
    h.terminalPos, h.terminalVel]

/-- The solution is a multiple of the last row of `Mx`, by the last reference. -/
theorem jointMpc_terminal :
    let m := (predictionMatrices cfg.Np cfg.Ts).Mx cfg.last
    ∃ gain, 0 < gain ∧ ∀ k refX refVx, jointMpc cfg k refX refVx 0 0
      = (gain * refX cfg.last) • m := by
  intro m
  have hH := (jointH_posDef h.nonnegWeights (by rw [h.reg]; exact one_pos)
    (predictionMatrices cfg.Np cfg.Ts)).isUnit
  have hpos : 0 < m ⬝ᵥ m + 1 := by
    have := dotProduct_star_self_nonneg m
    rw [star_trivial] at this
    linarith
  refine ⟨(m ⬝ᵥ m + 1)⁻¹, inv_pos.mpr hpos, ?_⟩
  intro k refX refVx
  have hsolves : jointH cfg (predictionMatrices cfg.Np cfg.Ts)
        *ᵥ (((m ⬝ᵥ m + 1)⁻¹ * refX cfg.last) • m)
      = jointB cfg (predictionMatrices cfg.Np cfg.Ts) refX refVx 0 0 := by
    have hm : (predictionMatrices cfg.Np cfg.Ts).Mx cfg.last = m := rfl
    rw [jointH_terminal h, jointB_terminal h, mulVec_smul, add_mulVec, one_mulVec,
      vecMulVec_mulVec, op_smul_eq_smul]
    funext j
    simp only [hm, Pi.smul_apply, Pi.add_apply, smul_eq_mul]
    field_simp
  simp only [jointMpc]
  rw [← hsolves, mulVec_mulVec, nonsing_inv_mul _ ((isUnit_iff_isUnit_det _).mp hH), one_mulVec]

end Terminal

/-- A target that stands at 0, but for its last sample, sample `n`. -/
def Target.standing (n : ℕ) (x : ℝ) : Target :=
  Target.ofRows (List.replicate n ⟨0, 0, 0, 0, 0, 0⟩) ⟨0, x, 0, 0, 0, 0⟩

theorem Target.standing_K (n : ℕ) (x : ℝ) : (Target.standing n x).K = n + 1 :=
  congrArg (· + 1) List.length_replicate

theorem Target.standing_row {n : ℕ} {x : ℝ} (i : Fin (Target.standing n x).K) :
    (Target.standing n x).row i = if i.val < n then ⟨0, 0, 0, 0, 0, 0⟩ else ⟨0, x, 0, 0, 0, 0⟩ := by
  simp only [Target.standing, Target.ofRows, List.length_replicate, List.getElem_replicate]
  split_ifs <;> rfl

theorem Target.standing_agreeTo {n : ℕ} (hn : 0 < n) (x₁ x₂ : ℝ) :
    (Target.standing n x₁).AgreeTo (Target.standing n x₂) (n - 1) := by
  refine ⟨by rw [standing_K]; omega, by rw [standing_K]; omega, ?_, ?_⟩
  · intro i hi
    have hi : i < n := by omega
    simp only [standing_row, if_pos hi]
  · intro i hi
    have hi : i < n := by omega
    simp only [standing_row, if_pos hi]

/-- The first entry of that row. -/
theorem predictionMatrices_last_pos (cfg : Config ℝ) (hTs : 0 < cfg.Ts) :
    0 < (predictionMatrices cfg.Np cfg.Ts).Mx cfg.last ⟨0, cfg.Np_pos⟩ := by
  have hNp : (1 : ℝ) ≤ cfg.Np := by exact_mod_cast cfg.Np_pos
  have hlast : cfg.Np - 1 + 1 = cfg.Np := Nat.sub_add_cancel cfg.Np_pos
  simp only [predictionMatrices, Config.last, of_apply]
  rw [if_pos (Nat.succ_pos _), hlast]
  have : (0 : ℝ) < (cfg.Np : ℝ) - (0 : ℕ) - 0.5 := by norm_num; linarith
  positivity

/-- The clamps let through some of an acceleration from standstill. -/
theorem limitAxis_pos {cfg : Config ℝ} (hTs : 0 < cfg.Ts) (hvmax : 0 < cfg.axisVmax)
    (hamax : 0 < cfg.axisAmax) {aRaw : ℝ} (ha : 0 < aRaw) : 0 < (limitAxis cfg 0 aRaw).aCmd := by
  have hclamp : 0 < clampA cfg aRaw := lt_max_of_lt_right (lt_min hamax ha)
  have hnext : 0 < 0 + clampA cfg aRaw * cfg.Ts := by positivity
  simp only [limitAxis]
  split_ifs with habove hbelow
  · exact div_pos (by linarith) hTs
  · linarith
  · exact hclamp

theorem limitAxis_zero {cfg : Config ℝ} (hvmax : 0 < cfg.axisVmax) (hamax : 0 < cfg.axisAmax) :
    (limitAxis cfg 0 0).aCmd = 0 := by
  have hclamp : clampA cfg 0 = 0 := by
    rw [clampA, min_eq_right hamax.le, max_eq_right (by linarith)]
  have hnext : (0 : ℝ) + 0 * cfg.Ts = 0 := by ring
  simp only [limitAxis, hclamp, hnext]
  rw [if_neg (by linarith), if_neg (by linarith)]

/-- The first command, for a target that stands for one horizon. -/
theorem axisCommand_standing {cfg : Config ℝ} (h : cfg.TerminalOnly) (hTs : 0 < cfg.Ts) :
    ∃ gain, 0 < gain ∧ ∀ x, axisCommand cfg (jointMpc cfg) (Target.standing cfg.Np x) 0 ⟨0, 0⟩
      = limitAxis cfg 0 (gain * x) := by
  obtain ⟨gain, hgain, hsolve⟩ := jointMpc_terminal h
  refine ⟨_, mul_pos hgain (predictionMatrices_last_pos cfg hTs), ?_⟩
  intro x
  have hfuture : ((Target.standing cfg.Np x).row
      ((Target.standing cfg.Np x).future 0 cfg.last)).x = x := by
    have hval : ((Target.standing cfg.Np x).future 0 cfg.last).val = cfg.Np := by
      have := cfg.Np_pos
      simp only [Target.future, Config.last, Target.standing_K]
      omega
    rw [Target.standing_row, hval, if_neg (lt_irrefl _)]
  rw [axisCommand, rawAcceleration, hsolve, hfuture, Pi.smul_apply, smul_eq_mul,
    mul_right_comm]

/-- **No sample of the horizon is too many**: for every `Np` the last one can make a
difference. -/
theorem lookahead_sharp (Np : ℕ) (hNp : 0 < Np) :
    ∃ (cfg : Config ℝ) (target₁ target₂ : Target), cfg.Np = Np
      ∧ target₁.AgreeTo target₂ (Np - 1)
      ∧ ∃ passes₁ passes₂ p₁ p₂, simulateLoop cfg target₁ = .ok passes₁
        ∧ simulateLoop cfg target₂ = .ok passes₂ ∧ passes₁[0]? = some p₁ ∧ passes₂[0]? = some p₂
        ∧ p₁.entry.axisA ≠ p₂.entry.axisA := by
  let cfg : Config ℝ := { Config.defaults ℝ with
    Np, Np_pos := hNp, wGalvoPos := 0, wGalvoVel := 0, wAxisVel := 0, wAxisAccel := 0
    wAxisJerk := 0, wTerminalPos := 1, wTerminalVel := 0, reg := 1 }
  have h : cfg.TerminalOnly := ⟨rfl, rfl, rfl, rfl, rfl, rfl, rfl, rfl⟩
  have hTs : 0 < cfg.Ts := by norm_num [cfg, Config.defaults]
  have hvmax : 0 < cfg.axisVmax := by norm_num [cfg, Config.defaults]
  have hamax : 0 < cfg.axisAmax := by norm_num [cfg, Config.defaults]
  have hH := (jointH_posDef h.nonnegWeights (by rw [h.reg]; exact one_pos)
    (predictionMatrices cfg.Np cfg.Ts)).isUnit
  have hloop (x : ℝ) := simulateLoop_eq (Target.standing Np x) hH
  have hentry (x : ℝ) := simulateLoop_entry (Target.standing Np x) (hloop x)
    (Target.standing Np x).first
  have hstart (x : ℝ) : axisState cfg (jointMpc cfg) (Target.standing Np x) 0 = ⟨0, 0⟩ := by
    rw [axisState, Target.standing_row, if_pos (by exact hNp)]
  have haxisA (x : ℝ) : (passAt cfg (Target.standing Np x) (Target.standing Np x).first).entry.axisA
      = (axisCommand cfg (jointMpc cfg) (Target.standing Np x) 0 ⟨0, 0⟩).aCmd := by
    rw [← hstart x]
    rfl
  refine ⟨cfg, Target.standing Np 0, Target.standing Np 1, rfl, Target.standing_agreeTo hNp 0 1,
    _, _, _, _, hloop 0, hloop 1, hentry 0, hentry 1, ?_⟩
  obtain ⟨gain, hgain, hcommand⟩ := axisCommand_standing h hTs
  rw [haxisA, haxisA, hcommand 0, hcommand 1, mul_zero, mul_one, limitAxis_zero hvmax hamax]
  exact (limitAxis_pos hTs hvmax hamax hgain).ne

theorem lookahead_sharp_twenty :
    ∃ (cfg : Config ℝ) (target₁ target₂ : Target), cfg.Np = 20 ∧ target₁.AgreeTo target₂ 19
      ∧ ∃ passes₁ passes₂ p₁ p₂, simulateLoop cfg target₁ = .ok passes₁
        ∧ simulateLoop cfg target₂ = .ok passes₂ ∧ passes₁[0]? = some p₁ ∧ passes₂[0]? = some p₂
        ∧ p₁.entry.axisA ≠ p₂.entry.axisA :=
  lookahead_sharp 20 (by decide)

end

end GalvoCtrl.Split
