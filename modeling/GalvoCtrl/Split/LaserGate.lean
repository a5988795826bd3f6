import GalvoCtrl.Split.Simulate

/-!
# Split — LaserGate

When the laser fires. The decision of a cycle is traced back through the sample,
its move and the line of the text that produced the move, and through the clamps
of the cycle.
-/

namespace GalvoCtrl.Split

open GalvoCtrl.Lib GalvoCtrl.Nc

/-! ## The clamps of a cycle -/

/-- A cycle is not limited when neither clamp took effect. -/
theorem limitAxis_limited (cfg : Config ℝ) (vNow aRaw : ℝ) :
    (limitAxis cfg vNow aRaw).limited = false
      ↔ |clampA cfg aRaw - aRaw| ≤ 1e-10 ∧ |vNow + clampA cfg aRaw * cfg.Ts| ≤ cfg.axisVmax := by
  unfold limitAxis
  dsimp only
  rw [abs_le (b := cfg.axisVmax)]
  by_cases habove : vNow + clampA cfg aRaw * cfg.Ts > cfg.axisVmax
  · rw [if_pos habove]
    simp [not_le.mpr habove]
  · rw [if_neg habove]
    by_cases hbelow : vNow + clampA cfg aRaw * cfg.Ts < -cfg.axisVmax
    · rw [if_pos hbelow]
      simp [not_le.mpr hbelow]
    · rw [if_neg hbelow]
      simp only [not_lt] at habove hbelow
      simp [habove, hbelow]

/-! ## The command of a sample -/

/-- The laser command of a sample: off on the last one, on the others that of the
line behind the move. -/
theorem Interpolates.laserCommand {cfg : Config ℝ} {text : List Char} {target : Target}
    (h : Interpolates cfg (runLines cfg (codeLines text)).moves target) (k : Fin target.K) :
    (target.row k).laserCommand ≠ 0 ↔ k + 1 < target.K ∧ ∃ i j,
      Produces cfg (codeLines text) i j
        ∧ InBlock (rowCounts cfg (runLines cfg (codeLines text)).moves) j k
        ∧ motionTrace ((codeLines text).take (i + 1)) = some .linear
        ∧ laserTrace ((codeLines text).take (i + 1)) = true := by
  by_cases hlast : k + 1 = target.K
  · -- the end point is appended with the laser off
    obtain ⟨move, _, hrow⟩ := h.last k hlast
    rw [hrow]
    simp [hlast]
  · have hk : k + 1 < target.K := lt_of_le_of_ne k.isLt hlast
    -- the command is that of any move whose block holds the sample
    have hrow : ∀ i j, Produces cfg (codeLines text) i j →
        InBlock (rowCounts cfg (runLines cfg (codeLines text)).moves) j k →
        ((target.row k).laserCommand ≠ 0 ↔
          motionTrace ((codeLines text).take (i + 1)) = some .linear
            ∧ laserTrace ((codeLines text).take (i + 1)) = true) := by
      intro i j hproduces hblock
      obtain ⟨move, hmove, _⟩ := hproduces.move
      rw [h.row k j move hblock hmove]
      exact hproduces.laser hmove
    constructor
    · intro hon
      have hsum : k.val < (rowCounts cfg (runLines cfg (codeLines text)).moves).sum := by
        have := h.K
        omega
      obtain ⟨j, hblock⟩ := exists_inBlock hsum
      have hj : j < (runLines cfg (codeLines text)).moves.length := by
        simpa [rowCounts] using hblock.lt_length
      obtain ⟨i, hproduces⟩ := exists_produces cfg (codeLines text) hj
      exact ⟨hk, i, j, hproduces, hblock, (hrow i j hproduces hblock).mp hon⟩
    · rintro ⟨_, i, j, hproduces, hblock, hlaser⟩
      exact (hrow i j hproduces hblock).mpr hlaser

/-! ## The decision -/

/-- The acceleration the solver returns in cycle `k`, from the recorded arrays. -/
def SimData.rawAcceleration {Np : ℕ} (solve : MpcSolve Np) (hNp : 0 < Np) (data : SimData ℝ)
    (k : Fin data.K) : ℝ :=
  let future (i : Fin Np) : Fin data.K := ⟨min (k + 1 + i) (data.K - 1), by have := k.isLt; omega⟩
  solve k (fun i => data.targetX (future i)) (fun i => data.targetVx (future i)) (data.axisX k)
    (data.axisVx k) ⟨0, hNp⟩

/-- All that must hold for the laser to fire in cycle `k`. -/
structure LaserAllowed (cfg : Config ℝ) (solve : MpcSolve cfg.Np) (text : List Char)
    (moves : List (LinearMove ℝ)) (data : SimData ℝ) (k : Fin data.K) : Prop where
  notLast : k + 1 < data.K
  /-- Line `i` produced move `j` and sample `k` lies on move `j`; up to line `i` the
  text sets G1 and switches the laser on. -/
  command : ∃ i j, Produces cfg (codeLines text) i j ∧ InBlock (rowCounts cfg moves) j k
    ∧ motionTrace ((codeLines text).take (i + 1)) = some .linear
    ∧ laserTrace ((codeLines text).take (i + 1)) = true
  galvoX : |data.galvoX k| ≤ cfg.fieldHalf
  galvoY : |data.galvoY k| ≤ cfg.fieldHalf
  galvoSpeed : hypot (data.galvoVx k) (data.galvoVy k) ≤ cfg.galvoVmax
  acceleration : |clampA cfg (data.rawAcceleration solve cfg.Np_pos k)
    - data.rawAcceleration solve cfg.Np_pos k| ≤ 1e-10
  velocity : |data.axisVx k + clampA cfg (data.rawAcceleration solve cfg.Np_pos k) * cfg.Ts|
    ≤ cfg.axisVmax
  axisVx : |data.axisVx k| ≤ cfg.axisVmax + 1e-9
  axisA : |data.axisA k| ≤ cfg.axisAmax + 1e-9

/-- The decision at the end of a pass. -/
theorem cycle_laserOn (cfg : Config ℝ) (s : AxisState) (c : AxisCommand) (row : TargetRow) :
    (cycle cfg s c row).laserOn = true ↔ row.laserCommand ≠ 0
      ∧ (|(cycle cfg s c row).galvoX| ≤ cfg.fieldHalf
        ∧ |(cycle cfg s c row).galvoY| ≤ cfg.fieldHalf)
      ∧ hypot (cycle cfg s c row).galvoVx (cycle cfg s c row).galvoVy ≤ cfg.galvoVmax
      ∧ (|(cycle cfg s c row).axisVx| ≤ cfg.axisVmax + 1e-9
        ∧ |(cycle cfg s c row).axisA| ≤ cfg.axisAmax + 1e-9)
      ∧ c.limited = false := by
  simp only [cycle, decide_eq_true_eq, Bool.not_eq_true]

private theorem toInt_eq_one (b : Bool) : b.toInt = 1 ↔ b = true := by
  cases b <;> simp

/-- **Laser safety**, from the text to the decision of every cycle. -/
theorem laserOn_iff (cfg : Config ℝ) (solve : MpcSolve cfg.Np) (path : String) (text : List Char)
    (moves : List (LinearMove ℝ)) (hparse : parseNcFile path text cfg = .ok moves) :
    ∃ data, simulate cfg solve path text = .ok data
      ∧ data.K = 1 + (moves.map fun move => max 1 ⌈move.length / (move.usedFeed * cfg.Ts)⌉₊).sum
      ∧ ∀ k : Fin data.K, data.laserOn k = 1 ↔ LaserAllowed cfg solve text moves data k := by
  obtain ⟨target, hrows, hrun⟩ := simulate_of_parse cfg solve hparse
  obtain ⟨rfl, _⟩ := parseNcFile_ok hparse
  refine ⟨_, hrun, hrows.K_eq, ?_⟩
  intro k
  have hcommand := hrows.laserCommand k
  have hlimited := limitAxis_limited cfg (axisState cfg solve target k).v
    (rawAcceleration cfg solve target k (axisState cfg solve target k))
  have hdecision := cycle_laserOn cfg (axisState cfg solve target k)
    (axisCommand cfg solve target k (axisState cfg solve target k)) (target.row k)
  rw [hcommand, axisCommand, hlimited] at hdecision
  refine (toInt_eq_one _).trans (hdecision.trans ?_)
  constructor
  · rintro ⟨⟨hlast, hline⟩, ⟨hx, hy⟩, hspeed, ⟨hv, ha⟩, hacc, hvel⟩
    exact ⟨hlast, hline, hx, hy, hspeed, hacc, hvel, hv, ha⟩
  · intro h
    exact ⟨⟨h.notLast, h.command⟩, ⟨h.galvoX, h.galvoY⟩, h.galvoSpeed, ⟨h.axisVx, h.axisA⟩,
      h.acceleration, h.velocity⟩

/-- A cut along x at the speed of the axis, with a solver that never accelerates: the laser
fires in the first of the 17 cycles. -/
theorem laserOn_iff_cut :
    ∃ data, simulate (Config.defaults ℝ) (coast 60) "part.nc" "G1 M3 X1".toList = .ok data
      ∧ data.K = 17 ∧ (∃ k, data.laserOn k = 1)
      ∧ ∀ k : Fin data.K, data.laserOn k = 1 ↔ LaserAllowed (Config.defaults ℝ) (coast 60)
        "G1 M3 X1".toList [⟨0, 0, 1, 0, (65 : ℚ), 1, false⟩] data k := by
  have hparse := parseNcFile_defaults (by decide +kernel : parseNcFile "part.nc"
    "G1 M3 X1".toList (Config.defaults ℚ) = .ok [⟨0, 0, 1, 0, 65, 1, false⟩])
  obtain ⟨data, hrun, hK, hiff⟩ := laserOn_iff (Config.defaults ℝ) (coast 60) "part.nc"
    "G1 M3 X1".toList _ hparse
  have hceil : ⌈(200 / 13 : ℝ)⌉₊ = 16 := (Nat.ceil_eq_iff (by decide)).mpr (by norm_num)
  refine ⟨data, hrun, hK.trans ?_, ?_, hiff⟩
  · norm_num [LinearMove.mapFeed, LinearMove.dx, LinearMove.dy, LinearMove.length,
      LinearMove.usedFeed, hypot_zero_right, Config.defaults, hceil]
  -- the first sample is the start of the move, where the galvo has nothing to do
  obtain ⟨target, hrows, hsimulate⟩ := simulate_of_parse (Config.defaults ℝ) (coast 60) hparse
  obtain rfl := Except.ok.inj (hrun.symm.trans hsimulate)
  have hrow := hrows.row target.first 0 _ (inBlock_zero.mpr (LinearMove.one_le_steps _ _)) rfl
  have hfirst : target.row target.first = ⟨0, 0, 0, 65, 0, 1⟩ := by
    rw [hrow]
    norm_num [moveRow, Target.first, LinearMove.mapFeed, LinearMove.vx, LinearMove.vy,
      LinearMove.duration, LinearMove.dx, LinearMove.dy, LinearMove.length, LinearMove.usedFeed,
      hypot_zero_right, Config.defaults]
  refine ⟨target.first, (toInt_eq_one _).mpr ?_⟩
  change (cycle (Config.defaults ℝ) ⟨(target.row target.first).x, (target.row target.first).vx⟩
    (limitAxis (Config.defaults ℝ) (target.row target.first).vx 0)
    (target.row target.first)).laserOn = true
  rw [hfirst]
  norm_num [cycle_laserOn, cycle, limitAxis, clampA, Config.defaults, hypot_zero_right]

end GalvoCtrl.Split
