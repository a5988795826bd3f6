import Mathlib.Data.List.FinRange
import GalvoCtrl.Lib.Scan

/-!
# Split — SampleTable

The result of `simulate` (`position_velocity_joint_mpc_split_demo.py`): thirty
columns of one length, and `save_csv`, which writes them through `csv.writer`
with its default dialect. Numbers are of a type `α` whose decimal text `str` is
Python's.
-/

namespace GalvoCtrl.Split

open GalvoCtrl.Lib

/-- The dictionary `simulate` returns. The index `Fin K` makes the columns
equally long; the column `k` is the index itself. -/
structure SimData (α : Type*) where
  K : Nat
  t : Fin K → α
  targetX : Fin K → α
  targetY : Fin K → α
  targetVx : Fin K → α
  targetVy : Fin K → α
  targetSpeed : Fin K → α
  axisX : Fin K → α
  axisY : Fin K → α
  axisVx : Fin K → α
  axisVy : Fin K → α
  axisA : Fin K → α
  galvoX : Fin K → α
  galvoY : Fin K → α
  galvoVx : Fin K → α
  galvoVy : Fin K → α
  galvoSpeed : Fin K → α
  synthX : Fin K → α
  synthY : Fin K → α
  synthVx : Fin K → α
  synthVy : Fin K → α
  errorX : Fin K → α
  errorY : Fin K → α
  errorVx : Fin K → α
  errorVy : Fin K → α
  galvoInSquare : Fin K → ℤ
  galvoSpeedOk : Fin K → ℤ
  axisOk : Fin K → ℤ
  laserCommand : Fin K → ℤ
  laserOn : Fin K → ℤ

variable {α : Type*}

/-- The float columns, in the order of the file. -/
def SimData.floats (data : SimData α) : List (Fin data.K → α) :=
  [data.t, data.targetX, data.targetY, data.targetVx, data.targetVy, data.targetSpeed,
    data.axisX, data.axisY, data.axisVx, data.axisVy, data.axisA, data.galvoX, data.galvoY,
    data.galvoVx, data.galvoVy, data.galvoSpeed, data.synthX, data.synthY, data.synthVx,
    data.synthVy, data.errorX, data.errorY, data.errorVx, data.errorVy]

/-- Every float of the table has the property `D`. -/
def SimData.All (D : α → Prop) (data : SimData α) : Prop := ∀ f ∈ data.floats, ∀ i, D (f i)

/-! ## The text of a table -/

/-- `str` of an integer. -/
def intText : ℤ → List Char
  | .ofNat n => Nat.toDigits 10 n
  | .negSucc n => '-' :: Nat.toDigits 10 (n + 1)

/-- What makes `csv.writer` quote a field: delimiter, quote or line end. -/
def isCsvSpecial (c : Char) : Bool := c = ',' || c = '"' || c = '\r' || c = '\n'

/-- One field, quoted where needed, quotes doubled. -/
def csvField (s : List Char) : List Char :=
  if s.any isCsvSpecial then
    '"' :: (s.flatMap fun c => if c = '"' then ['"', '"'] else [c]) ++ ['"']
  else s

/-- One row without its line end. -/
def csvLine (cells : List (List Char)) : List Char := [','].intercalate (cells.map csvField)

/-- The names `cols` of `save_csv`. -/
def cols : List String :=
  ["k", "t", "target_x", "target_y", "target_vx", "target_vy", "target_speed", "axis_x",
    "axis_y", "axis_vx", "axis_vy", "axis_a", "galvo_x", "galvo_y", "galvo_vx", "galvo_vy",
    "galvo_speed", "synth_x", "synth_y", "synth_vx", "synth_vy", "error_x", "error_y",
    "error_vx", "error_vy", "galvo_in_square", "galvo_speed_ok", "axis_ok", "laser_command",
    "laser_on"]

/-- The entries of the dictionary under these names, as text. -/
def SimData.columns (str : α → List Char) (data : SimData α) :
    List (String × (Fin data.K → List Char)) :=
  [("k", fun i => intText i.val),
    ("t", fun i => str (data.t i)),
    ("target_x", fun i => str (data.targetX i)),
    ("target_y", fun i => str (data.targetY i)),
    ("target_vx", fun i => str (data.targetVx i)),
    ("target_vy", fun i => str (data.targetVy i)),
    ("target_speed", fun i => str (data.targetSpeed i)),
    ("axis_x", fun i => str (data.axisX i)),
    ("axis_y", fun i => str (data.axisY i)),
    ("axis_vx", fun i => str (data.axisVx i)),
    ("axis_vy", fun i => str (data.axisVy i)),
    ("axis_a", fun i => str (data.axisA i)),
    ("galvo_x", fun i => str (data.galvoX i)),
    ("galvo_y", fun i => str (data.galvoY i)),
    ("galvo_vx", fun i => str (data.galvoVx i)),
    ("galvo_vy", fun i => str (data.galvoVy i)),
    ("galvo_speed", fun i => str (data.galvoSpeed i)),
    ("synth_x", fun i => str (data.synthX i)),
    ("synth_y", fun i => str (data.synthY i)),
    ("synth_vx", fun i => str (data.synthVx i)),
    ("synth_vy", fun i => str (data.synthVy i)),
    ("error_x", fun i => str (data.errorX i)),
    ("error_y", fun i => str (data.errorY i)),
    ("error_vx", fun i => str (data.errorVx i)),
    ("error_vy", fun i => str (data.errorVy i)),
    ("galvo_in_square", fun i => intText (data.galvoInSquare i)),
    ("galvo_speed_ok", fun i => intText (data.galvoSpeedOk i)),
    ("axis_ok", fun i => intText (data.axisOk i)),
    ("laser_command", fun i => intText (data.laserCommand i)),
    ("laser_on", fun i => intText (data.laserOn i))]

/-- The columns are written under their own names. -/
theorem columns_names (str : α → List Char) (data : SimData α) :
    (data.columns str).map Prod.fst = cols := rfl

/-- The lines of the file: the header and one row per sample. -/
def SimData.csvLines (str : α → List Char) (data : SimData α) : List (List Char) :=
  csvLine (cols.map String.toList) ::
    (List.finRange data.K).map fun i => csvLine ((data.columns str).map fun c => c.2 i)

/-- `save_csv`; every row ends in CR LF. -/
def saveCsv (str : α → List Char) (data : SimData α) : List Char :=
  (data.csvLines str).flatMap (· ++ ['\r', '\n'])

/-! ## Cells that are written as they are -/

/-- Text without a character that a CSV file gives a meaning. -/
def Plain (s : List Char) : Prop := ∀ c ∈ s, isCsvSpecial c = false

instance (s : List Char) : Decidable (Plain s) :=
  inferInstanceAs (Decidable (∀ c ∈ s, isCsvSpecial c = false))

theorem csvField_plain {s : List Char} (h : Plain s) : csvField s = s := by
  rw [csvField, if_neg]
  intro hany
  obtain ⟨c, hc, hspecial⟩ := List.any_eq_true.mp hany
  rw [h c hc] at hspecial
  cases hspecial

private theorem plain_digits (n : Nat) : Plain (Nat.toDigits 10 n) := by
  intro c hc
  have hdigit := Nat.isDigit_of_mem_toDigits (by decide) (by decide) hc
  by_contra hspecial
  rw [Bool.not_eq_false] at hspecial
  simp only [isCsvSpecial, Bool.or_eq_true, decide_eq_true_eq] at hspecial
  rcases hspecial with ((rfl | rfl) | rfl) | rfl <;> exact absurd hdigit (by decide)

theorem plain_intText (n : ℤ) : Plain (intText n) := by
  cases n with
  | ofNat n => exact plain_digits n
  | negSucc n =>
      intro c hc
      rcases List.mem_cons.mp hc with rfl | hc
      · rfl
      · exact plain_digits (n + 1) c hc

theorem intText_ne_nil (n : ℤ) : intText n ≠ [] := by
  cases n with
  | ofNat n => exact Nat.toDigits_ne_nil
  | negSucc n => exact List.cons_ne_nil _ _

end GalvoCtrl.Split
