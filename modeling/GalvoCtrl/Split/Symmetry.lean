import GalvoCtrl.Split.Loop

/-!
# Split — Symmetry

The split of a job that is shifted along the long axis, or mirrored. No quantity of the
loop is an absolute position except the position of the axis itself, and all of the loop
is odd: the right side of the system, the clamps and the step of the axis. A `sign` is
`1` or `-1`.
-/

namespace GalvoCtrl.Split

open GalvoCtrl.Lib Matrix

noncomputable section

/-! ## The moved job -/

def TargetRow.moved (sign shift : ℝ) (row : TargetRow) : TargetRow :=
  { row with x := sign * row.x + shift, vx := sign * row.vx }

/-- The target mirrored with `sign` and then shifted, all else as it was. -/
def Target.moved (sign shift : ℝ) (target : Target) : Target :=
  ⟨target.K, target.K_pos, fun k => (target.row k).moved sign shift⟩

def AxisState.moved (sign shift : ℝ) (s : AxisState) : AxisState :=
  ⟨sign * s.x + shift, sign * s.v⟩

def AxisCommand.mirrored (sign : ℝ) (c : AxisCommand) : AxisCommand :=
  ⟨sign * c.aCmd, sign * c.nextV, c.limited⟩

/-- What becomes of the entries of the arrays. -/
def Cycle.moved (sign shift : ℝ) (e : Cycle) : Cycle :=
  { e with
    axisX := sign * e.axisX + shift
    axisVx := sign * e.axisVx
    axisA := sign * e.axisA
    galvoX := sign * e.galvoX
    galvoVx := sign * e.galvoVx
    synthX := sign * e.synthX + shift
    synthVx := sign * e.synthVx
    errorX := sign * e.errorX
    errorVx := sign * e.errorVx }

def Pass.moved (sign shift : ℝ) (p : Pass) : Pass :=
  ⟨p.command.mirrored sign, p.entry.moved sign shift⟩

variable {sign : ℝ}

theorem abs_sign (hsign : sign = 1 ∨ sign = -1) : |sign| = 1 := by
  rcases hsign with rfl | rfl
  · exact abs_one
  · rw [abs_neg, abs_one]

theorem abs_sign_mul (hsign : sign = 1 ∨ sign = -1) (a : ℝ) : |sign * a| = |a| := by
  rw [abs_mul, abs_sign hsign, one_mul]

/-! ## The solve -/

section Solve

variable (cfg : Config ℝ) (sign shift : ℝ)

/-- The reference relative to where the axis would coast to. -/
theorem sub_baseX_moved (refX : Fin cfg.Np → ℝ) (xNow vNow : ℝ) :
    (fun i => sign * refX i + shift) - baseX cfg (sign * xNow + shift) (sign * vNow)
      = sign • (refX - baseX cfg xNow vNow) := by
  funext i
  simp only [Pi.sub_apply, Pi.smul_apply, smul_eq_mul, baseX]
  ring

theorem baseV_mirrored (vNow : ℝ) : baseV cfg (sign * vNow) = sign • baseV cfg vNow := rfl

theorem sub_baseV_mirrored (refVx : Fin cfg.Np → ℝ) (vNow : ℝ) :
    (fun i => sign * refVx i) - baseV cfg (sign * vNow) = sign • (refVx - baseV cfg vNow) := by
  rw [baseV_mirrored, smul_sub]
  rfl

/-- `b` is odd, and knows no absolute position. -/
theorem jointB_moved (P : Prediction cfg.Np) (refX refVx : Fin cfg.Np → ℝ) (xNow vNow : ℝ) :
    jointB cfg P (fun i => sign * refX i + shift) (fun i => sign * refVx i)
        (sign * xNow + shift) (sign * vNow)
      = sign • jointB cfg P refX refVx xNow vNow := by
  have hx := sub_baseX_moved cfg sign shift refX xNow vNow
  have hv := sub_baseV_mirrored cfg sign refVx vNow
  have hxlast := congrFun hx cfg.last
  have hvlast := congrFun hv cfg.last
  simp only [Pi.sub_apply, Pi.smul_apply, smul_eq_mul] at hxlast hvlast
  rw [jointB, hx, hv, hxlast, hvlast, baseV_mirrored, mulVec_smul, mulVec_smul, mulVec_smul]
  funext j
  simp only [jointB, Pi.add_apply, Pi.sub_apply, Pi.smul_apply, smul_eq_mul]
  ring

/-- So the accelerations are mirrored with the job. -/
theorem jointMpc_moved (k : ℕ) (refX refVx : Fin cfg.Np → ℝ) (xNow vNow : ℝ) :
    jointMpc cfg k (fun i => sign * refX i + shift) (fun i => sign * refVx i)
        (sign * xNow + shift) (sign * vNow)
      = sign • jointMpc cfg k refX refVx xNow vNow := by
  simp only [jointMpc]
  rw [jointB_moved, mulVec_smul]

end Solve

/-! ## The clamps -/

section Clamps

variable {cfg : Config ℝ}

theorem clampA_mirrored (hsign : sign = 1 ∨ sign = -1) (hamax : 0 < cfg.axisAmax) (aRaw : ℝ) :
    clampA cfg (sign * aRaw) = sign * clampA cfg aRaw := by
  rcases hsign with rfl | rfl
  · rw [one_mul, one_mul]
  · have horder : -cfg.axisAmax ≤ cfg.axisAmax := by linarith
    rw [neg_one_mul, neg_one_mul, clampA, clampA, ← min_neg_neg, ← max_neg_neg, neg_neg,
      max_min_distrib_left, max_eq_right horder]

/-- **The clamps are odd.** Above the limit becomes below it, and no velocity is both. -/
theorem limitAxis_mirrored (hsign : sign = 1 ∨ sign = -1) (hvmax : 0 < cfg.axisVmax)
    (hamax : 0 < cfg.axisAmax) (vNow aRaw : ℝ) :
    limitAxis cfg (sign * vNow) (sign * aRaw) = (limitAxis cfg vNow aRaw).mirrored sign := by
  have hclamp := clampA_mirrored hsign hamax aRaw
  have hlimited : |sign * clampA cfg aRaw - sign * aRaw| = |clampA cfg aRaw - aRaw| := by
    rw [← mul_sub, abs_sign_mul hsign]
  have hnext : sign * vNow + sign * clampA cfg aRaw * cfg.Ts
      = sign * (vNow + clampA cfg aRaw * cfg.Ts) := by ring
  simp only [limitAxis]
  rw [hclamp, hlimited, hnext]
  generalize hv : vNow + clampA cfg aRaw * cfg.Ts = nextV
  rcases hsign with rfl | rfl
  · simp only [one_mul]
    split_ifs <;> simp only [AxisCommand.mirrored, one_mul]
  · simp only [neg_one_mul]
    by_cases habove : nextV > cfg.axisVmax
    · rw [if_neg (by linarith), if_pos (by linarith), if_pos habove, AxisCommand.mirrored]
      simp only [neg_one_mul, AxisCommand.mk.injEq, and_true]
      ring
    · by_cases hbelow : nextV < -cfg.axisVmax
      · rw [if_pos (by linarith), if_neg habove, if_pos hbelow, AxisCommand.mirrored]
        simp only [neg_one_mul, AxisCommand.mk.injEq, and_true, neg_neg]
        ring
      · rw [if_neg (by linarith), if_neg (by linarith), if_neg habove, if_neg hbelow,
          AxisCommand.mirrored, neg_one_mul, neg_one_mul]

end Clamps

/-! ## The loop -/

section Loop

variable {cfg : Config ℝ} (target : Target) (shift : ℝ)

/-- **One cycle**: the command. -/
theorem axisCommand_moved (hsign : sign = 1 ∨ sign = -1) (hvmax : 0 < cfg.axisVmax)
    (hamax : 0 < cfg.axisAmax) (k : ℕ) (s : AxisState) :
    axisCommand cfg (jointMpc cfg) (target.moved sign shift) k (s.moved sign shift)
      = (axisCommand cfg (jointMpc cfg) target k s).mirrored sign := by
  have hraw : rawAcceleration cfg (jointMpc cfg) (target.moved sign shift) k (s.moved sign shift)
      = sign * rawAcceleration cfg (jointMpc cfg) target k s :=
    congrFun (jointMpc_moved cfg sign shift k _ _ s.x s.v) ⟨0, cfg.Np_pos⟩
  rw [axisCommand, hraw]
  exact limitAxis_mirrored hsign hvmax hamax s.v _

/-- **All cycles**: the axis itself. -/
theorem axisState_moved (hsign : sign = 1 ∨ sign = -1) (hvmax : 0 < cfg.axisVmax)
    (hamax : 0 < cfg.axisAmax) (k : ℕ) :
    axisState cfg (jointMpc cfg) (target.moved sign shift) k
      = (axisState cfg (jointMpc cfg) target k).moved sign shift := by
  induction k with
  | zero => rfl
  | succ k ih =>
      rw [axisState, ih, axisCommand_moved target shift hsign hvmax hamax]
      simp only [axisState, AxisState.moved, AxisCommand.mirrored, AxisState.mk.injEq, and_true]
      ring

/-- The entries of the arrays. The speed of the galvo and the tests are even. -/
theorem cycle_moved (hsign : sign = 1 ∨ sign = -1) (s : AxisState) (c : AxisCommand)
    (row : TargetRow) :
    cycle cfg (s.moved sign shift) (c.mirrored sign) (row.moved sign shift)
      = (cycle cfg s c row).moved sign shift := by
  have hgalvoX : sign * row.x + shift - (sign * s.x + shift) = sign * (row.x - s.x) := by ring
  have hgalvoVx : sign * row.vx - sign * s.v = sign * (row.vx - s.v) := by ring
  have hspeed : hypot (sign * (row.vx - s.v)) (row.vy - 0) = hypot (row.vx - s.v) (row.vy - 0) := by
    rw [hypot, mul_pow, ← sq_abs sign, abs_sign hsign, one_pow, one_mul, hypot]
  simp only [cycle, Cycle.moved, AxisState.moved, AxisCommand.mirrored, TargetRow.moved, hgalvoX,
    hgalvoVx, hspeed, abs_sign_mul hsign, Cycle.mk.injEq, true_and, and_true]
  exact ⟨by ring, by ring, by ring, by ring⟩

theorem passAt_moved (hsign : sign = 1 ∨ sign = -1) (hvmax : 0 < cfg.axisVmax)
    (hamax : 0 < cfg.axisAmax) (k : Fin target.K) :
    passAt cfg (target.moved sign shift) k = (passAt cfg target k).moved sign shift := by
  have hstate := axisState_moved target shift hsign hvmax hamax k
  have hcommand := axisCommand_moved target shift hsign hvmax hamax k
    (axisState cfg (jointMpc cfg) target k)
  simp only [passAt, cycleAt]
  rw [hstate, hcommand]
  exact congrArg (Pass.mk _) (cycle_moved shift hsign _ _ _)

/-- **The split commutes with moving the job.** -/
theorem simulateLoop_moved (cfg : Config ℝ) (target : Target) (sign shift : ℝ)
    (hsign : sign = 1 ∨ sign = -1) (hw : cfg.NonnegWeights) (hreg : 0 < cfg.reg)
    (hvmax : 0 < cfg.axisVmax) (hamax : 0 < cfg.axisAmax) :
    ∃ passes, simulateLoop cfg target = .ok passes ∧ passes.length = target.K
      ∧ simulateLoop cfg (target.moved sign shift)
        = .ok (passes.map (Pass.moved sign shift)) := by
  have hH := (jointH_posDef hw hreg (predictionMatrices cfg.Np cfg.Ts)).isUnit
  refine ⟨_, simulateLoop_eq target hH, by rw [List.length_map, List.length_finRange], ?_⟩
  rw [simulateLoop_eq _ hH, List.map_map]
  congr 2
  funext k
  exact passAt_moved target shift hsign hvmax hamax k

/-- Two samples, cut backwards from 250 mm on. -/
theorem simulateLoop_moved_reversed :
    let target := Target.ofRows [⟨0, 0, 1, 65, 0, 1⟩] ⟨1 / 1000, 65 / 1000, 1, 65, 0, 0⟩
    ∃ passes, simulateLoop (Config.defaults ℝ) target = .ok passes ∧ passes.length = 2
      ∧ simulateLoop (Config.defaults ℝ) (target.moved (-1) 250)
        = .ok (passes.map (Pass.moved (-1) 250)) := by
  intro target
  exact simulateLoop_moved (Config.defaults ℝ) target (-1) 250 (.inr rfl)
    Config.nonnegWeights_defaults (by norm_num [Config.defaults]) (by norm_num [Config.defaults])
    (by norm_num [Config.defaults])

end Loop

end

end GalvoCtrl.Split
