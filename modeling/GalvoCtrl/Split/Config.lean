import Mathlib.Data.Rat.Cast.OfScientific

/-!
# Split — Config

The dataclass `Config` of `position_velocity_joint_mpc_split_demo.py`.
-/

namespace GalvoCtrl.Split

/-- `Config`. The horizon is not empty: with `Np = 0` the first cycle of
`simulate` already fails, on `U[0]`. -/
structure Config (α : Type*) where
  Ts : α
  Np : Nat
  defaultFeed : α
  fieldHalf : α
  axisVmax : α
  axisAmax : α
  galvoVmax : α
  wGalvoPos : α
  wGalvoVel : α
  wAxisVel : α
  wAxisAccel : α
  wAxisJerk : α
  wTerminalPos : α
  wTerminalVel : α
  reg : α
  Np_pos : 0 < Np

/-- `Config()`, all fields at their defaults. -/
def Config.defaults (α : Type*) [DivisionRing α] : Config α where
  Ts := 1 / 1000
  Np := 60
  defaultFeed := 65
  fieldHalf := 11
  axisVmax := 110
  axisAmax := 1800
  galvoVmax := 4500
  wGalvoPos := 1
  wGalvoVel := 12 / 10000
  wAxisVel := 6 / 10000
  wAxisAccel := 15 / 1000000
  wAxisJerk := 1 / 10000
  wTerminalPos := 0.7
  wTerminalVel := 6 / 1000
  reg := 1 / 1000000000
  Np_pos := by decide

end GalvoCtrl.Split
