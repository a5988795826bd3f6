import GalvoCtrl.Lib.Delimited
import GalvoCtrl.Master.SendLoop

/-!
# Master — LoadSamples

`load_samples` and its helpers (`galvo_pdo_control_vs/main.cpp`). The file is
the text behind the first candidate path that opens, as the text-mode stream
delivers it; `strtod` is the C library's. A column index of -1 is `none`.
-/

namespace GalvoCtrl.Master

open GalvoCtrl.Lib

variable {α : Type*} [Field α] [LinearOrder α]

/-- The line-end translation of a text-mode stream. -/
def textMode : List Char → List Char
  | '\r' :: '\n' :: cs => '\n' :: textMode cs
  | c :: cs => c :: textMode cs
  | [] => []

/-- `split_csv_line` -/
def splitCsvLine (line : List Char) : List (List Char) := getlines ',' line

/-- `find_column` -/
def findColumn (header : List (List Char)) (name : String) : Option Nat :=
  header.findIdx? (· = name.toList)

/-- `parse_double_cell` -/
def parseDoubleCell (strtod : List Char → α) (row : List (List Char)) (idx : Option Nat) : α :=
  match idx.bind (row[·]?) with
  | some cell => strtod cell
  | none => 0

/-- The sample of one line. -/
def sampleOfLine (strtod : List Char → α) (tCol xCol yCol laserCol : Option Nat)
    (line : List Char) : Sample α :=
  let row := splitCsvLine line
  { t := parseDoubleCell strtod row tCol
    galvoX := parseDoubleCell strtod row xCol
    galvoY := parseDoubleCell strtod row yCol
    laserEnable := laserCol.isSome && decide (parseDoubleCell strtod row laserCol > 0.5) }

/-- `load_samples`, on the text of the opened file. -/
def loadSamples (strtod : List Char → α) (file : Option (List Char)) :
    Except String (List (Sample α)) :=
  match file with
  | none => .error "failed to open CSV"
  | some text =>
    match getlines '\n' text with
    | [] => .error "empty CSV"
    | line :: lines =>
      let header := splitCsvLine line
      let tCol := findColumn header "t"
      let xCol := findColumn header "galvo_x"
      let yCol := findColumn header "galvo_y"
      let laserCol := findColumn header "laser_enable"
      if tCol.isNone || xCol.isNone || yCol.isNone then
        .error "CSV must contain t, galvo_x and galvo_y columns"
      else
        let samples := (lines.filter fun line => !line.isEmpty).map
          (sampleOfLine strtod tCol xCol yCol laserCol)
        if samples.isEmpty then .error "CSV contains no samples" else .ok samples

/-- Text mode turns CR LF rows into lines. -/
theorem textMode_lines {lines : List (List Char)} (h : ∀ l ∈ lines, '\r' ∉ l) :
    textMode (lines.flatMap (· ++ ['\r', '\n'])) = lines.flatMap (· ++ ['\n']) := by
  have hline : ∀ (l rest : List Char), '\r' ∉ l →
      textMode (l ++ '\r' :: '\n' :: rest) = l ++ '\n' :: textMode rest := by
    intro l rest hl
    induction l with
    | nil => rfl
    | cons c l ih =>
        rw [List.mem_cons, not_or] at hl
        rw [List.cons_append, textMode, ih hl.2]
        · rfl
        · intro cs hc
          exact absurd hc.symm hl.1
  induction lines with
  | nil => rfl
  | cons l lines ih =>
      rw [List.flatMap_cons, List.flatMap_cons, List.append_assoc, List.append_assoc]
      show textMode (l ++ '\r' :: '\n' :: _) = l ++ '\n' :: _
      rw [hline l _ (h l (by simp))]
      exact congrArg (l ++ '\n' :: ·) (ih fun k hk => h k (by simp [hk]))

end GalvoCtrl.Master
