import GalvoCtrl.Split.SampleTable
import GalvoCtrl.Master.LoadSamples

/-!
# System — Handover

The trajectory file between the decomposer and the master: what `load_samples`
makes of what `save_csv` wrote. Times and positions come through; the laser
column does not, since the writer calls it `laser_on` and the reader looks for
`laser_enable`.
-/

namespace GalvoCtrl.System

open GalvoCtrl.Lib GalvoCtrl.Split GalvoCtrl.Master

variable {α : Type*}

/-- What the handover relies on for the decimal text of the numbers in `D`:
`strtod` inverts it, and it has no character that a CSV file gives a meaning. -/
structure DecimalText (str : α → List Char) (strtod : List Char → α) (D : α → Prop) :
    Prop where
  inverse : ∀ v, D v → strtod (str v) = v
  plain : ∀ v, D v → Plain (str v)

/-- The samples a faithful reader makes of a table. -/
def faithfulSamples (data : SimData α) : List (Sample α) :=
  (List.finRange data.K).map fun k =>
    { t := data.t k
      galvoX := data.galvoX k
      galvoY := data.galvoY k
      laserEnable := decide (data.laserOn k = 1) }

/-- The samples as they come out: no laser anywhere. -/
def darkSamples (data : SimData α) : List (Sample α) :=
  (List.finRange data.K).map fun k =>
    { t := data.t k, galvoX := data.galvoX k, galvoY := data.galvoY k, laserEnable := false }

/-! ## The lines of the file -/

variable {str : α → List Char} {strtod : List Char → α} {D : α → Prop} {data : SimData α}

/-- Plain cells are written as they are. -/
theorem csvLine_plain {cells : List (List Char)} (h : ∀ c ∈ cells, Plain c) :
    csvLine cells = [','].intercalate cells := by
  rw [csvLine, List.map_congr_left fun c hc => csvField_plain (h c hc), List.map_id']

/-- No line of plain cells holds a line end. -/
theorem not_mem_csvLine {cells : List (List Char)} (h : ∀ c ∈ cells, Plain c) {x : Char}
    (hx : isCsvSpecial x = true) (hcomma : x ≠ ',') : x ∉ csvLine cells := by
  rw [csvLine_plain h]
  refine not_mem_intercalate hcomma ?_
  intro c hc hmem
  rw [h c hc x hmem] at hx
  cases hx

/-- A line of plain cells, the last one not empty, is split into its cells. -/
theorem splitCsvLine_csvLine (cells : List (List Char)) {last : List Char}
    (h : ∀ c ∈ cells ++ [last], Plain c) (hne : last ≠ []) :
    splitCsvLine (csvLine (cells ++ [last])) = cells ++ [last] := by
  have hcomma : ∀ c ∈ cells ++ [last], ',' ∉ c := by
    intro c hc hmem
    exact absurd (h c hc ',' hmem) (by decide)
  rw [csvLine_plain h, splitCsvLine]
  exact getlines_intercalate hne (hcomma last (by simp)) fun c hc => hcomma c (by simp [hc])

/-- Every cell of a row is plain. -/
theorem plain_cells (hd : DecimalText str strtod D) (hdata : data.All D) (i : Fin data.K) :
    ∀ c ∈ (data.columns str).map fun c => c.2 i, Plain c := by
  have hfloat : ∀ f ∈ data.floats, Plain (str (f i)) := fun f hf => hd.plain _ (hdata f hf i)
  simp only [SimData.floats, List.forall_mem_cons, List.not_mem_nil, false_implies,
    implies_true, and_true] at hfloat
  simp only [SimData.columns, List.map_cons, List.map_nil, List.forall_mem_cons,
    List.not_mem_nil, false_implies, implies_true, and_true, plain_intText, true_and]
  exact hfloat

theorem plain_cols : ∀ c ∈ cols.map String.toList, Plain c := by decide

theorem splitCsvLine_header :
    splitCsvLine (csvLine (cols.map String.toList)) = cols.map String.toList :=
  splitCsvLine_csvLine ((cols.map String.toList).take 29) plain_cols
    (by decide : "laser_on".toList ≠ [])

theorem splitCsvLine_row (hd : DecimalText str strtod D) (hdata : data.All D)
    (i : Fin data.K) :
    splitCsvLine (csvLine ((data.columns str).map fun c => c.2 i)) =
      (data.columns str).map fun c => c.2 i :=
  splitCsvLine_csvLine
    (((data.columns str).take 29).map fun c : String × (Fin data.K → List Char) => c.2 i)
    (plain_cells hd hdata i) (intText_ne_nil (data.laserOn i))

/-- The lines of the file, read back from its text. -/
theorem getlines_saveCsv (hd : DecimalText str strtod D) (hdata : data.All D) :
    getlines '\n' (textMode (saveCsv str data)) = data.csvLines str := by
  have hends : ∀ x, isCsvSpecial x = true → x ≠ ',' → ∀ l ∈ data.csvLines str, x ∉ l := by
    intro x hx hcomma l hl
    rcases List.mem_cons.mp hl with rfl | hrow
    · exact not_mem_csvLine plain_cols hx hcomma
    · obtain ⟨i, _, rfl⟩ := List.mem_map.mp hrow
      exact not_mem_csvLine (plain_cells hd hdata i) hx hcomma
  rw [saveCsv, textMode_lines (hends '\r' rfl (by decide)),
    getlines_flatMap (hends '\n' rfl (by decide))]

/-! ## Reading the file -/

variable [Field α] [LinearOrder α]

/-- The sample read from a row: the laser column is not there. -/
theorem sampleOfLine_row (hd : DecimalText str strtod D) (hdata : data.All D)
    (i : Fin data.K) :
    sampleOfLine strtod (some 1) (some 12) (some 13) none
        (csvLine ((data.columns str).map fun c => c.2 i)) =
      { t := data.t i, galvoX := data.galvoX i, galvoY := data.galvoY i,
        laserEnable := false } := by
  have hall : ∀ f ∈ data.floats, strtod (str (f i)) = f i :=
    fun f hf => hd.inverse _ (hdata f hf i)
  have ht : strtod (str (data.t i)) = data.t i := hall _ (by simp [SimData.floats])
  have hx : strtod (str (data.galvoX i)) = data.galvoX i := hall _ (by simp [SimData.floats])
  have hy : strtod (str (data.galvoY i)) = data.galvoY i := hall _ (by simp [SimData.floats])
  rw [sampleOfLine, splitCsvLine_row hd hdata]
  show Sample.mk (strtod (str (data.t i))) (strtod (str (data.galvoX i)))
    (strtod (str (data.galvoY i))) false = _
  rw [ht, hx, hy]

/-- **What the master loads**: every sample, in order, with its time and
position, and the laser off. -/
theorem loadSamples_saveCsv (hd : DecimalText str strtod D) (hdata : data.All D)
    (hK : 0 < data.K) :
    loadSamples strtod (some (textMode (saveCsv str data))) = .ok (darkSamples data) := by
  have hrows : ∀ l ∈ (List.finRange data.K).map
      fun i => csvLine ((data.columns str).map fun c => c.2 i), (!l.isEmpty) = true := by
    intro l hl
    obtain ⟨i, _, rfl⟩ := List.mem_map.mp hl
    -- an empty line would be split into no cells
    have hsplit := splitCsvLine_row hd hdata i
    cases hline : csvLine ((data.columns str).map fun c => c.2 i) with
    | nil =>
        rw [hline] at hsplit
        exact absurd hsplit (by simp [splitCsvLine, getlines, SimData.columns])
    | cons c cs => rfl
  have hsamples : ((List.finRange data.K).map
        fun i => csvLine ((data.columns str).map fun c => c.2 i)).map
          (sampleOfLine strtod (some 1) (some 12) (some 13) none) = darkSamples data := by
    rw [List.map_map]
    exact List.map_congr_left fun i _ => sampleOfLine_row hd hdata i
  have hne : (darkSamples data).isEmpty = false := by
    rw [← Bool.not_eq_true, List.isEmpty_iff]
    intro hnil
    have hlen := congrArg List.length hnil
    simp [darkSamples] at hlen
    omega
  have ht : findColumn (cols.map String.toList) "t" = some 1 := by decide
  have hx : findColumn (cols.map String.toList) "galvo_x" = some 12 := by decide
  have hy : findColumn (cols.map String.toList) "galvo_y" = some 13 := by decide
  -- the column is written as "laser_on"
  have hl : findColumn (cols.map String.toList) "laser_enable" = none := by decide
  rw [loadSamples, getlines_saveCsv hd hdata, SimData.csvLines]
  simp only [splitCsvLine_header, ht, hx, hy, hl, Option.isNone_some, Bool.or_self,
    Bool.false_eq_true, if_false, List.filter_eq_self.mpr hrows, hsamples, hne]

/-- The file is read back faithfully. -/
def FaithfulHandover (str : α → List Char) (strtod : List Char → α) (data : SimData α) :
    Prop :=
  loadSamples strtod (some (textMode (saveCsv str data))) = .ok (faithfulSamples data)

/-- **The handover is faithful exactly when the laser is never on**: the reader
finds no column of its name, and takes the laser to be off. -/
theorem faithfulHandover_iff (hd : DecimalText str strtod D) (hdata : data.All D)
    (hK : 0 < data.K) :
    FaithfulHandover str strtod data ↔ ∀ k, data.laserOn k ≠ 1 := by
  rw [FaithfulHandover, loadSamples_saveCsv hd hdata hK]
  constructor
  · intro h k hon
    have heq : darkSamples data = faithfulSamples data := Except.ok.inj h
    have hk := List.map_inj_left.mp heq k (List.mem_finRange k)
    have hlaser := congrArg Sample.laserEnable hk
    simp [hon] at hlaser
  · intro hoff
    have heq : darkSamples data = faithfulSamples data :=
      List.map_congr_left fun k _ => by simp [hoff k]
    rw [heq]

/-! ## A table of two samples -/

/-- The numbers of the table. -/
def Milli (v : ℚ) : Prop := v = 0 ∨ v = 1 / 1000 ∨ v = 3 / 2 ∨ v = -1 / 2

/-- `str` on them. -/
def milliText (v : ℚ) : List Char :=
  if v = 0 then "0.0".toList
  else if v = 1 / 1000 then "0.001".toList
  else if v = 3 / 2 then "1.5".toList
  else "-0.5".toList

/-- `strtod` on their texts. -/
def milliRead (s : List Char) : ℚ :=
  if s = "0.001".toList then 1 / 1000
  else if s = "1.5".toList then 3 / 2
  else if s = "-0.5".toList then -1 / 2
  else 0

theorem milliText_decimal : DecimalText milliText milliRead Milli where
  inverse := by rintro v (rfl | rfl | rfl | rfl) <;> decide +kernel
  plain := by rintro v (rfl | rfl | rfl | rfl) <;> decide +kernel

/-- Two samples one cycle apart, which the galvo covers alone, with this laser bit on the
first. -/
def twoSamples (laser : ℤ) : SimData ℚ :=
  let rest : Fin 2 → ℚ := ![0, 0]
  let x : Fin 2 → ℚ := ![3 / 2, -1 / 2]
  let y : Fin 2 → ℚ := ![-1 / 2, 3 / 2]
  { K := 2, t := ![0, 1 / 1000]
    targetX := x, targetY := y, targetVx := rest, targetVy := rest, targetSpeed := rest
    axisX := rest, axisY := rest, axisVx := rest, axisVy := rest, axisA := rest
    galvoX := x, galvoY := y, galvoVx := rest, galvoVy := rest, galvoSpeed := rest
    synthX := x, synthY := y, synthVx := rest, synthVy := rest
    errorX := rest, errorY := rest, errorVx := rest, errorVy := rest
    galvoInSquare := ![1, 1], galvoSpeedOk := ![1, 1], axisOk := ![1, 1]
    laserCommand := ![laser, 0], laserOn := ![laser, 0] }

theorem twoSamples_all (laser : ℤ) : (twoSamples laser).All Milli := by
  have hdark : ∀ f ∈ (twoSamples 0).floats, ∀ i : Fin (twoSamples 0).K,
      f i = 0 ∨ f i = 1 / 1000 ∨ f i = 3 / 2 ∨ f i = -1 / 2 := by decide +kernel
  -- the laser is no column of floats
  exact hdark

theorem faithfulHandover_twoSamples : FaithfulHandover milliText milliRead (twoSamples 0) :=
  (faithfulHandover_iff milliText_decimal (twoSamples_all 0) (by decide)).mpr (by decide)

theorem not_faithfulHandover_twoSamples :
    ¬ FaithfulHandover milliText milliRead (twoSamples 1) := by
  rw [FaithfulHandover, loadSamples_saveCsv milliText_decimal (twoSamples_all 1) (by decide)]
  intro h
  have heq : darkSamples (twoSamples 1) = faithfulSamples (twoSamples 1) := Except.ok.inj h
  have hlaser := congrArg (List.map Sample.laserEnable) heq
  exact absurd hlaser (by decide)

end GalvoCtrl.System
