import Mathlib.Data.NNRat.Lemmas
import Mathlib.Tactic.Linarith
import GalvoCtrl.Lib.Decimal
import GalvoCtrl.Split.SampleTable

/-!
# Job — Program

`fmt` and `build_basic_program` of `zmotion_machining_job.py`: a tool path as a BASIC
program that cuts it with the laser. A line is a list of characters.
-/

namespace GalvoCtrl.Job

open GalvoCtrl.Lib GalvoCtrl.Split

/-! ## Numbers -/

/-- A Python float. The sign of a finite one is its own, since there are two zeros. -/
inductive PyFloat where
  | finite (negative : Bool) (magnitude : ℚ≥0)
  | infinite (negative : Bool)
  | nan
deriving DecidableEq

/-- How many ten-thousandths `.4f` shows for a magnitude. -/
def tenThousandths (magnitude : ℚ≥0) : ℕ :=
  roundHalfEven (magnitude.num * 10 ^ 4) magnitude.den

/-- The value that `.4f` shows. -/
def round4 : PyFloat → PyFloat
  | .finite negative magnitude => .finite negative (tenThousandths magnitude / (10 ^ 4 : ℕ))
  | .infinite negative => .infinite negative
  | .nan => .nan

def signText (negative : Bool) : List Char := if negative then ['-'] else []

/-- `f"{value:.4f}"` -/
def format4f : PyFloat → List Char
  | .finite negative magnitude => signText negative ++ fixedText 4 (tenThousandths magnitude)
  | .infinite negative => signText negative ++ "inf".toList
  | .nan => "nan".toList

/-- `fmt` -/
def fmt (value : PyFloat) : List Char :=
  let text := trimDecimals (format4f value)
  if text = [] then ['0'] else text

/-- Rounding moves a magnitude by half a ten-thousandth at most. -/
theorem abs_tenThousandths_sub_le (m : ℚ≥0) :
    |(tenThousandths m / 10 ^ 4 : ℚ) - m| ≤ 1 / 20000 := by
  obtain ⟨hlow, hhigh, _⟩ := roundHalfEven_spec (m.num * 10 ^ 4) m.den_pos
  rw [← tenThousandths] at hlow hhigh
  have hden : (0 : ℚ) < m.den := Nat.cast_pos.mpr m.den_pos
  have hm : (m : ℚ) * m.den = m.num := by exact_mod_cast m.mul_den_eq_num
  have hlow' : (2 * (m.num * 10 ^ 4) : ℚ) ≤ 2 * (m.den * tenThousandths m) + m.den := by
    exact_mod_cast hlow
  have hhigh' : (2 * (m.den * tenThousandths m) : ℚ) ≤ 2 * (m.num * 10 ^ 4) + m.den := by
    exact_mod_cast hhigh
  rw [← hm] at hlow' hhigh'
  rw [abs_le]
  constructor
  · refine le_of_mul_le_mul_right ?_ hden
    linarith
  · refine le_of_mul_le_mul_right ?_ hden
    linarith

example : ([.finite false 100, .finite true (1 / 100000), .finite false (1 / 2)].map fun v =>
    String.ofList (fmt v)) = ["100", "-0", "0.5"] := by decide +kernel

/-! ## The program -/

structure Point where
  x : PyFloat
  y : PyFloat
deriving DecidableEq

/-- The keyword arguments of `build_basic_program`. -/
structure JobParameters where
  axisX : ℤ
  axisY : ℤ
  laserOutput : ℤ
  rapidSpeed : PyFloat
  workSpeed : PyFloat
  accel : PyFloat
  decel : PyFloat

/-- `default_tool_path` -/
def defaultToolPath : List Point :=
  [⟨.finite false 0, .finite false 0⟩, ⟨.finite false 40, .finite false 0⟩,
    ⟨.finite false 40, .finite false 25⟩, ⟨.finite false 0, .finite false 25⟩,
    ⟨.finite false 0, .finite false 0⟩]

/-- What `parse_args` gives without arguments. -/
def JobParameters.defaults : JobParameters where
  axisX := 0
  axisY := 1
  laserOutput := 0
  rapidSpeed := .finite false 80
  workSpeed := .finite false 25
  accel := .finite false 500
  decel := .finite false 500

/-- `f"BASE({axis_x},{axis_y})"` -/
def baseLine (axisX axisY : ℤ) : List Char :=
  "BASE(".toList ++ intText axisX ++ ",".toList ++ intText axisY ++ ")".toList

/-- `f"{name}={fmt(value)}"` -/
def setLine (name : String) (value : PyFloat) : List Char := name.toList ++ "=".toList ++ fmt value

/-- `f"MOVEABS({fmt(x)},{fmt(y)})"` -/
def moveLine (p : Point) : List Char :=
  "MOVEABS(".toList ++ fmt p.x ++ ",".toList ++ fmt p.y ++ ")".toList

/-- `f"OP({laser_output},{state})"` -/
def opLine (output : ℤ) (state : String) : List Char :=
  "OP(".toList ++ intText output ++ ",".toList ++ state.toList ++ ")".toList

/-- `build_basic_program` -/
def buildBasicProgram (path : List Point) (P : JobParameters) : Except String (List (List Char)) :=
  match path with
  | start :: next :: rest =>
      let lines := [
        "' ZMotion laser machining job".toList,
        "' Units: mm, mm/s".toList,
        baseLine P.axisX P.axisY,
        "ATYPE=1".toList,
        setLine "SPEED" P.rapidSpeed,
        setLine "ACCEL" P.accel,
        setLine "DECEL" P.decel,
        moveLine start,
        "WAIT IDLE".toList,
        setLine "SPEED" P.workSpeed,
        opLine P.laserOutput "ON"]
      let lines := (next :: rest).foldl
        (fun lines p => lines ++ [moveLine p] ++ ["WAIT IDLE".toList]) lines
      .ok (lines ++ [
        opLine P.laserOutput "OFF",
        setLine "SPEED" P.rapidSpeed,
        moveLine start,
        "WAIT IDLE".toList,
        "END".toList,
        [] ])
  | _ => .error "The machining path needs at least two XY points."

end GalvoCtrl.Job
