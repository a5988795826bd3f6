import GalvoCtrl.Split.Interpolate
import GalvoCtrl.Split.SampleTable

/-!
# Split — Simulate

`simulate`, in exact arithmetic: the loop over the cycles that plans the long
axis and leaves the rest to the galvo. What `solve_joint_mpc` returns is a
parameter of the loop. The locals `x_now` and `v_now` are the state; all arrays
are read off it.
-/

namespace GalvoCtrl.Split

open GalvoCtrl.Lib GalvoCtrl.Nc

/-! ## The two clamps -/

/-- `a_cmd`, `next_v` and `limited` after the clamps. -/
structure AxisCommand where
  aCmd : ℝ
  nextV : ℝ
  limited : Bool

/-- `max(-cfg.axis_amax, min(cfg.axis_amax, a_raw))` -/
noncomputable def clampA (cfg : Config ℝ) (aRaw : ℝ) : ℝ :=
  max (-cfg.axisAmax) (min cfg.axisAmax aRaw)

/-- From `a_raw` to `next_v`: the acceleration is clamped, then the velocity, and
then the acceleration is what the velocity leaves of it. -/
noncomputable def limitAxis (cfg : Config ℝ) (vNow aRaw : ℝ) : AxisCommand :=
  let aCmd := clampA cfg aRaw
  let limited : Bool := |aCmd - aRaw| > 1e-10
  let nextV := vNow + aCmd * cfg.Ts
  if nextV > cfg.axisVmax then ⟨(cfg.axisVmax - vNow) / cfg.Ts, cfg.axisVmax, true⟩
  else if nextV < -cfg.axisVmax then ⟨(-cfg.axisVmax - vNow) / cfg.Ts, -cfg.axisVmax, true⟩
  else ⟨aCmd, nextV, limited⟩

/-! ## The loop -/

/-- `x_now` and `v_now`. -/
structure AxisState where
  x : ℝ
  v : ℝ

/-- What `solve_joint_mpc` returns: in a cycle, from the references ahead and the
state of the axis. -/
abbrev MpcSolve (Np : ℕ) := ℕ → (refX refVx : Fin Np → ℝ) → (xNow vNow : ℝ) → Fin Np → ℝ

/-- A solver that never accelerates. -/
def coast (Np : ℕ) : MpcSolve Np := fun _ _ _ _ _ _ => 0

/-- `future_idx` -/
def Target.future (target : Target) (k i : ℕ) : Fin target.K :=
  ⟨min (k + 1 + i) (target.K - 1), by have := target.K_pos; omega⟩

def Target.first (target : Target) : Fin target.K := ⟨0, target.K_pos⟩

noncomputable section

variable (cfg : Config ℝ) (solve : MpcSolve cfg.Np) (target : Target)

/-- `a_raw` -/
def rawAcceleration (k : ℕ) (s : AxisState) : ℝ :=
  solve k (fun i => (target.row (target.future k i)).x)
    (fun i => (target.row (target.future k i)).vx) s.x s.v ⟨0, cfg.Np_pos⟩

/-- What the clamps make of it in cycle `k`. -/
def axisCommand (k : ℕ) (s : AxisState) : AxisCommand :=
  limitAxis cfg s.v (rawAcceleration cfg solve target k s)

/-- The axis at the start of cycle `k`. -/
def axisState : ℕ → AxisState
  | 0 => ⟨(target.row target.first).x, (target.row target.first).vx⟩
  | k + 1 =>
      let s := axisState k
      let c := axisCommand cfg solve target k s
      ⟨s.x + s.v * cfg.Ts + 0.5 * c.aCmd * cfg.Ts * cfg.Ts, c.nextV⟩

/-- One pass of the loop, as an entry of each array it fills. -/
structure Cycle where
  axisX : ℝ
  axisY : ℝ
  axisVx : ℝ
  axisVy : ℝ
  axisA : ℝ
  galvoX : ℝ
  galvoY : ℝ
  galvoVx : ℝ
  galvoVy : ℝ
  galvoSpeed : ℝ
  synthX : ℝ
  synthY : ℝ
  synthVx : ℝ
  synthVy : ℝ
  errorX : ℝ
  errorY : ℝ
  errorVx : ℝ
  errorVy : ℝ
  galvoInSquare : Bool
  galvoSpeedOk : Bool
  axisOk : Bool
  laserOn : Bool

/-- The body of the loop up to the arrays. -/
def cycle (s : AxisState) (c : AxisCommand) (row : TargetRow) : Cycle :=
  let axisX := s.x
  let axisY := 0
  let axisVx := s.v
  let axisVy := 0
  let axisA := c.aCmd
  let galvoX := row.x - axisX
  let galvoY := row.y - axisY
  let galvoVx := row.vx - axisVx
  let galvoVy := row.vy - axisVy
  let galvoSpeed := hypot galvoVx galvoVy
  let synthX := axisX + galvoX
  let synthY := axisY + galvoY
  let synthVx := axisVx + galvoVx
  let synthVy := axisVy + galvoVy
  let inSquare : Bool := |galvoX| ≤ cfg.fieldHalf ∧ |galvoY| ≤ cfg.fieldHalf
  let speedOk : Bool := galvoSpeed ≤ cfg.galvoVmax
  let axOk : Bool :=
    (|axisVx| ≤ cfg.axisVmax + 1e-9 ∧ |axisA| ≤ cfg.axisAmax + 1e-9) ∧ ¬c.limited
  { axisX, axisY, axisVx, axisVy, axisA, galvoX, galvoY, galvoVx, galvoVy, galvoSpeed,
    synthX, synthY, synthVx, synthVy
    errorX := row.x - synthX
    errorY := row.y - synthY
    errorVx := row.vx - synthVx
    errorVy := row.vy - synthVy
    galvoInSquare := inSquare
    galvoSpeedOk := speedOk
    axisOk := axOk
    laserOn := row.laserCommand ≠ 0 ∧ inSquare ∧ speedOk ∧ axOk }

/-- The cycle of sample `k`. -/
def cycleAt (k : Fin target.K) : Cycle :=
  let s := axisState cfg solve target k
  cycle cfg s (axisCommand cfg solve target k s) (target.row k)

/-- `simulate`, on a target. -/
def simulateTarget : SimData ℝ where
  K := target.K
  t k := (target.row k).t
  targetX k := (target.row k).x
  targetY k := (target.row k).y
  targetVx k := (target.row k).vx
  targetVy k := (target.row k).vy
  targetSpeed k := √((target.row k).vx ^ 2 + (target.row k).vy ^ 2)
  axisX k := (cycleAt cfg solve target k).axisX
  axisY k := (cycleAt cfg solve target k).axisY
  axisVx k := (cycleAt cfg solve target k).axisVx
  axisVy k := (cycleAt cfg solve target k).axisVy
  axisA k := (cycleAt cfg solve target k).axisA
  galvoX k := (cycleAt cfg solve target k).galvoX
  galvoY k := (cycleAt cfg solve target k).galvoY
  galvoVx k := (cycleAt cfg solve target k).galvoVx
  galvoVy k := (cycleAt cfg solve target k).galvoVy
  galvoSpeed k := (cycleAt cfg solve target k).galvoSpeed
  synthX k := (cycleAt cfg solve target k).synthX
  synthY k := (cycleAt cfg solve target k).synthY
  synthVx k := (cycleAt cfg solve target k).synthVx
  synthVy k := (cycleAt cfg solve target k).synthVy
  errorX k := (cycleAt cfg solve target k).errorX
  errorY k := (cycleAt cfg solve target k).errorY
  errorVx k := (cycleAt cfg solve target k).errorVx
  errorVy k := (cycleAt cfg solve target k).errorVy
  galvoInSquare k := (cycleAt cfg solve target k).galvoInSquare.toInt
  galvoSpeedOk k := (cycleAt cfg solve target k).galvoSpeedOk.toInt
  axisOk k := (cycleAt cfg solve target k).axisOk.toInt
  laserCommand k := (target.row k).laserCommand
  laserOn k := (cycleAt cfg solve target k).laserOn.toInt

/-- `simulate`, on the text of the file at `path`. -/
def simulate (path : String) (text : List Char) : Except String (SimData ℝ) :=
  match loadNcTarget cfg path text with
  | .error message => .error message
  | .ok target => .ok (simulateTarget cfg solve target)

/-- Every text the parser accepts is simulated, on the rows of its moves. -/
theorem simulate_of_parse {path : String} {text : List Char} {moves : List (LinearMove ℝ)}
    (h : parseNcFile path text cfg = .ok moves) : ∃ target, Interpolates cfg moves target
      ∧ simulate cfg solve path text = .ok (simulateTarget cfg solve target) := by
  obtain ⟨target, hload, hrows⟩ := loadNcTarget_spec h
  exact ⟨target, hrows, by rw [simulate, hload]⟩

end

end GalvoCtrl.Split
