import GalvoCtrl.Split.Simulate

/-!
# Split — AxisLimits

When the long axis stays within its limits. The clamps keep a velocity that is
within the limit there, with an acceleration within its own limit; a run that
starts within the velocity limit therefore stays there. But the loop starts with
the velocity of the first sample as it is, and from above the limit the velocity
clamp also overrules the acceleration clamp.
-/

namespace GalvoCtrl.Split

open GalvoCtrl.Lib GalvoCtrl.Nc

/-! ## The clamps -/

theorem abs_clampA_le {cfg : Config ℝ} (hamax : 0 < cfg.axisAmax) (aRaw : ℝ) :
    |clampA cfg aRaw| ≤ cfg.axisAmax := by
  rw [abs_le]
  constructor
  · exact le_max_left _ _
  · exact max_le (by linarith) (min_le_left _ _)

/-- **One cycle**: from a velocity within the limit, whatever the solver asks for. -/
theorem limitAxis_within {cfg : Config ℝ} (hTs : 0 < cfg.Ts) (hamax : 0 < cfg.axisAmax) {v : ℝ}
    (hv : |v| ≤ cfg.axisVmax) (aRaw : ℝ) :
    |(limitAxis cfg v aRaw).aCmd| ≤ cfg.axisAmax
      ∧ |(limitAxis cfg v aRaw).nextV| ≤ cfg.axisVmax := by
  have ha := abs_clampA_le hamax aRaw
  have hvmax : 0 ≤ cfg.axisVmax := (abs_nonneg v).trans hv
  rw [abs_le] at ha hv
  unfold limitAxis
  dsimp only
  by_cases habove : v + clampA cfg aRaw * cfg.Ts > cfg.axisVmax
  · -- the clamp takes off some of an acceleration that is not negative
    rw [if_pos habove]
    refine ⟨?_, (abs_of_nonneg hvmax).le⟩
    have hnonneg : 0 ≤ (cfg.axisVmax - v) / cfg.Ts := div_nonneg (by linarith) hTs.le
    have hle : (cfg.axisVmax - v) / cfg.Ts ≤ clampA cfg aRaw := by
      rw [div_le_iff₀ hTs]
      linarith
    rw [abs_of_nonneg hnonneg]
    exact hle.trans ha.2
  · rw [if_neg habove]
    by_cases hbelow : v + clampA cfg aRaw * cfg.Ts < -cfg.axisVmax
    · rw [if_pos hbelow]
      refine ⟨?_, by rw [abs_neg, abs_of_nonneg hvmax]⟩
      have hnonpos : (-cfg.axisVmax - v) / cfg.Ts ≤ 0 :=
        div_nonpos_of_nonpos_of_nonneg (by linarith) hTs.le
      have hle : clampA cfg aRaw ≤ (-cfg.axisVmax - v) / cfg.Ts := by
        rw [le_div_iff₀ hTs]
        linarith
      rw [abs_of_nonpos hnonpos]
      linarith
    · rw [if_neg hbelow]
      exact ⟨abs_le.mpr ha, abs_le.mpr ⟨by linarith, by linarith⟩⟩

/-! ## Runs -/

section Runs

variable {cfg : Config ℝ} (solve : MpcSolve cfg.Np) (target : Target)

/-- **A run** from a velocity within the limit. -/
theorem axisState_within (hTs : 0 < cfg.Ts) (hamax : 0 < cfg.axisAmax)
    (hstart : |(target.row target.first).vx| ≤ cfg.axisVmax) (k : ℕ) :
    |(axisState cfg solve target k).v| ≤ cfg.axisVmax := by
  induction k with
  | zero => exact hstart
  | succ k ih => exact (limitAxis_within hTs hamax ih _).2

/-- Velocity and acceleration of the long axis stay within their limits. -/
def WithinLimits (cfg : Config ℝ) (data : SimData ℝ) : Prop :=
  ∀ k, |data.axisVx k| ≤ cfg.axisVmax ∧ |data.axisA k| ≤ cfg.axisAmax

theorem simulateTarget_withinLimits (hTs : 0 < cfg.Ts) (hamax : 0 < cfg.axisAmax) :
    WithinLimits cfg (simulateTarget cfg solve target)
      ↔ |(target.row target.first).vx| ≤ cfg.axisVmax := by
  constructor
  · intro h
    exact (h target.first).1
  · intro hstart k
    have hv := axisState_within solve target hTs hamax hstart k
    exact ⟨hv, (limitAxis_within hTs hamax hv _).1⟩

end Runs

/-! ## The first sample -/

/-- The x part of a move's speed. -/
theorem abs_vx_le {move : LinearMove ℝ} (h : 0 < move.length) (bound : ℝ) :
    |move.vx| ≤ bound ↔ |move.dx| * move.usedFeed ≤ bound * move.length := by
  have hfeed := move.usedFeed_pos
  rw [LinearMove.vx, LinearMove.duration, div_div_eq_mul_div, abs_div, abs_mul,
    abs_of_pos hfeed, abs_of_pos h, div_le_iff₀ h]

theorem Interpolates.first_vx {cfg : Config ℝ} {first : LinearMove ℝ} {rest : List (LinearMove ℝ)}
    {target : Target} (h : Interpolates cfg (first :: rest) target) :
    (target.row target.first).vx = first.vx := by
  rw [h.row target.first 0 first (inBlock_zero.mpr (first.one_le_steps cfg)) rfl]
  rfl

/-- **Exactly when a job respects the limits**: when its first move is not faster
along x than the axis may be. -/
theorem simulate_withinLimits_iff (cfg : Config ℝ) (solve : MpcSolve cfg.Np) (path : String)
    (text : List Char) (first : LinearMove ℝ) (rest : List (LinearMove ℝ)) (hTs : 0 < cfg.Ts)
    (hamax : 0 < cfg.axisAmax) (hparse : parseNcFile path text cfg = .ok (first :: rest)) :
    ∃ data, simulate cfg solve path text = .ok data ∧ (WithinLimits cfg data
      ↔ |first.dx| * first.usedFeed ≤ cfg.axisVmax * first.length) := by
  obtain ⟨target, hrows, hrun⟩ := simulate_of_parse cfg solve hparse
  refine ⟨_, hrun, ?_⟩
  rw [simulateTarget_withinLimits solve target hTs hamax, hrows.first_vx, abs_vx_le]
  exact parseNcFile_length_pos hparse first (by simp)

/-- At 65 mm/s the limit of 110 mm/s is kept, -/
theorem simulate_withinLimits_slow :
    ∃ data, simulate (Config.defaults ℝ) (coast 60) "part.nc" "G1 X10".toList = .ok data
      ∧ WithinLimits (Config.defaults ℝ) data := by
  have hparse := parseNcFile_defaults (by decide +kernel :
    parseNcFile "part.nc" "G1 X10".toList (Config.defaults ℚ) = .ok [⟨0, 0, 10, 0, 65, 0, false⟩])
  obtain ⟨data, hdata, hiff⟩ := simulate_withinLimits_iff (Config.defaults ℝ) (coast 60) "part.nc"
    "G1 X10".toList _ [] (by norm_num [Config.defaults]) (by norm_num [Config.defaults]) hparse
  refine ⟨data, hdata, hiff.mpr ?_⟩
  norm_num [LinearMove.mapFeed, LinearMove.dx, LinearMove.dy, LinearMove.length,
    LinearMove.usedFeed, hypot_zero_right, Config.defaults]

/-- at 200 mm/s it is not. -/
theorem not_withinLimits_fast :
    ∃ data, simulate (Config.defaults ℝ) (coast 60) "part.nc" "G1 X10 F12000".toList = .ok data
      ∧ ¬WithinLimits (Config.defaults ℝ) data := by
  have hparse := parseNcFile_defaults (by decide +kernel :
    parseNcFile "part.nc" "G1 X10 F12000".toList (Config.defaults ℚ)
      = .ok [⟨0, 0, 10, 0, 200, 0, false⟩])
  obtain ⟨target, hrows, hrun⟩ := simulate_of_parse (Config.defaults ℝ) (coast 60) hparse
  refine ⟨_, hrun, ?_⟩
  intro h
  have hfirst : |(target.row target.first).vx| ≤ (Config.defaults ℝ).axisVmax := (h target.first).1
  rw [hrows.first_vx] at hfirst
  norm_num [LinearMove.mapFeed, LinearMove.vx, LinearMove.duration, LinearMove.dx, LinearMove.dy,
    LinearMove.length, LinearMove.usedFeed, hypot_zero_right, Config.defaults] at hfirst

end GalvoCtrl.Split
