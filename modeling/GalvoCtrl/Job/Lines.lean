import GalvoCtrl.Job.Controller

/-!
# Job — Lines

What the lines of a generated program say: each is read as the command it was written
for, with its numbers rounded, and neither the file nor the connection changes it.
-/

namespace GalvoCtrl.Job

open GalvoCtrl.Lib GalvoCtrl.Nc GalvoCtrl.Split

/-! ## Numbers -/

/-- What `fmt` and `str` of an integer write. -/
def isNumberChar (c : Char) : Bool := c.isDigit || c ∈ ".-infa".toList

def IsNumber (s : List Char) : Prop := ∀ c ∈ s, isNumberChar c = true

instance (s : List Char) : Decidable (IsNumber s) :=
  inferInstanceAs (Decidable (∀ c ∈ s, isNumberChar c = true))

theorem isNumber_of_isDigits {s : List Char} (h : IsDigits s) : IsNumber s := fun c hc => by
  rw [isNumberChar, h c hc, Bool.true_or]

theorem IsNumber.append {a b : List Char} (ha : IsNumber a) (hb : IsNumber b) :
    IsNumber (a ++ b) := by
  intro c hc
  rcases List.mem_append.mp hc with hc | hc
  · exact ha c hc
  · exact hb c hc

theorem isNumber_signText (negative : Bool) : IsNumber (signText negative) := by
  cases negative <;> decide

theorem isNumber_format4f (v : PyFloat) : IsNumber (format4f v) := by
  cases v with
  | finite negative magnitude =>
      refine (isNumber_signText _).append ((isNumber_of_isDigits (isDigits_toDigits _)).append ?_)
      intro c hc
      rcases List.mem_cons.mp hc with rfl | hc
      · rfl
      · exact isNumber_of_isDigits (isDigits_padded _ _) c hc
  | infinite negative => exact (isNumber_signText _).append (by decide)
  | nan => decide

theorem isNumber_fmt (v : PyFloat) : IsNumber (fmt v) := by
  unfold fmt
  dsimp only
  split_ifs
  · decide
  · intro c hc
    refine isNumber_format4f v c ((List.rdropWhile_prefix (· == '0') _).subset ?_)
    exact (List.rdropWhile_prefix (· == '.') _).subset hc

theorem isNumber_intText (n : ℤ) : IsNumber (intText n) := by
  cases n with
  | ofNat n => exact isNumber_of_isDigits (isDigits_toDigits n)
  | negSucc n =>
      intro c hc
      rcases List.mem_cons.mp hc with rfl | hc
      · rfl
      · exact isNumber_of_isDigits (isDigits_toDigits (n + 1)) c hc

/-- The sign stands in front of the trimmed text. -/
theorem trimDecimals_minus (s : List Char) : trimDecimals ('-' :: s) = '-' :: trimDecimals s := by
  have hzero := rdropWhile_stop (p := (· == '0')) (d := '-') rfl [] s
  have hpoint := rdropWhile_stop (p := (· == '.')) (d := '-') rfl [] (s.rdropWhile (· == '0'))
  rw [List.nil_append, List.nil_append] at hzero hpoint
  rw [trimDecimals, hzero, hpoint, trimDecimals]

theorem fmt_infinite (negative : Bool) :
    fmt (.infinite negative) = signText negative ++ "inf".toList := by
  cases negative <;> decide

theorem fmt_nan : fmt .nan = "nan".toList := by decide

theorem fmt_finite (negative : Bool) (m : ℚ≥0) : fmt (.finite negative m)
    = signText negative ++ trimDecimals (fixedText 4 (tenThousandths m)) := by
  have hread := readDecimal_fixed (p := 4) (by decide) (tenThousandths m)
  have hne : trimDecimals (fixedText 4 (tenThousandths m)) ≠ [] := by
    intro h
    rw [h] at hread
    cases hread
  cases negative with
  | false => exact if_neg hne
  | true =>
      have htext : format4f (.finite true m) = '-' :: fixedText 4 (tenThousandths m) := rfl
      rw [fmt, htext, trimDecimals_minus]
      exact if_neg (List.cons_ne_nil _ _)

/-- **What `fmt` writes is read as the value rounded to four decimals.** -/
theorem readFloat_fmt (v : PyFloat) : readFloat (fmt v) = some (round4 v) := by
  cases v with
  | finite negative m =>
      have hread := readDecimal_fixed (p := 4) (by decide) (tenThousandths m)
      rw [fmt_finite]
      generalize trimDecimals (fixedText 4 (tenThousandths m)) = s at hread
      have hunsigned : readUnsigned s = some (.finite false (tenThousandths m / 10 ^ 4)) := by
        have hinf : s ≠ "inf".toList := by
          rintro rfl
          rw [show readDecimal "inf".toList = none from by decide] at hread
          cases hread
        have hnan : s ≠ "nan".toList := by
          rintro rfl
          rw [show readDecimal "nan".toList = none from by decide] at hread
          cases hread
        rw [readUnsigned, if_neg hinf, if_neg hnan, hread]
        rfl
      cases negative with
      | true =>
          show (readUnsigned s).map PyFloat.neg = _
          rw [hunsigned]
          rfl
      | false =>
          show readFloat s = _
          -- a text with a sign is no decimal
          cases s with
          | nil => exact hunsigned
          | cons c s =>
              have hc : c ≠ '-' := by
                rintro rfl
                cases hread
              rw [readFloat]
              · exact hunsigned
              · intro t ht
                exact hc (List.cons.inj ht).1
  | infinite negative =>
      rw [fmt_infinite]
      cases negative <;> decide
  | nan =>
      rw [fmt_nan]
      decide

theorem readNat_toDigits (n : ℕ) : readNat (Nat.toDigits 10 n) = some n := by
  rw [readNat, if_pos ⟨Nat.toDigits_ne_nil, List.all_eq_true.mpr (isDigits_toDigits n)⟩,
    Nat.ofDigitChars_ten_toDigits]

theorem readInt_intText (n : ℤ) : readInt (intText n) = some n := by
  cases n with
  | ofNat n =>
      have hread := readNat_toDigits n
      show readInt (Nat.toDigits 10 n) = _
      cases hdigits : Nat.toDigits 10 n with
      | nil => exact absurd hdigits Nat.toDigits_ne_nil
      | cons c s =>
          have hc : c ≠ '-' := by
            rintro rfl
            have hdigit := isDigits_toDigits n '-' (by rw [hdigits]; exact List.mem_cons_self)
            cases hdigit
          rw [hdigits] at hread
          rw [readInt]
          · rw [hread]
            rfl
          · intro t ht
            exact hc (List.cons.inj ht).1
  | negSucc n =>
      rw [intText, readInt, readNat_toDigits]
      rfl

/-! ## Lines -/

theorem IsNumber.ne {s : List Char} (h : IsNumber s) {d : Char} (hd : isNumberChar d = false) :
    ∀ c ∈ s, decide (c ≠ d) = true := by
  intro c hc
  rw [decide_eq_true_iff]
  rintro rfl
  rw [h c hc] at hd
  cases hd

theorem readCommand_set {name : String} (hname : ∀ c ∈ name.toList, c.isUpper = true)
    (v : PyFloat) : readCommand (setLine name v) = readSetting name.toList (round4 v) := by
  have htake : (setLine name v).takeWhile Char.isUpper = name.toList := by
    rw [setLine, List.append_assoc, List.takeWhile_append_of_pos hname]
    exact List.append_nil _
  have hdrop : (setLine name v).dropWhile Char.isUpper = '=' :: fmt v := by
    rw [setLine, List.append_assoc, List.dropWhile_append_of_pos hname]
    rfl
  rw [readCommand, htake, hdrop]
  show (readFloat (fmt v)).bind (readSetting name.toList) = _
  rw [readFloat_fmt, Option.bind_some]

theorem readArguments_pair {a b : List Char} (ha : ∀ c ∈ a, decide (c ≠ ',') = true)
    (ha' : ∀ c ∈ a, decide (c ≠ ')') = true) (hb : ∀ c ∈ b, decide (c ≠ ')') = true) :
    readArguments (a ++ ',' :: (b ++ [')'])) = some (a, b) := by
  have hinner : ∀ c ∈ a ++ ',' :: b, decide (c ≠ ')') = true := by
    intro c hc
    rcases List.mem_append.mp hc with hc | hc
    · exact ha' c hc
    · rcases List.mem_cons.mp hc with rfl | hc
      · rfl
      · exact hb c hc
  have hsplit : a ++ ',' :: (b ++ [')']) = (a ++ ',' :: b) ++ [')'] := by simp
  have htake : ((a ++ ',' :: b) ++ [')']).takeWhile (· ≠ ')') = a ++ ',' :: b := by
    rw [List.takeWhile_append_of_pos hinner]
    exact List.append_nil _
  have hdrop : ((a ++ ',' :: b) ++ [')']).dropWhile (· ≠ ')') = [')'] := by
    rw [List.dropWhile_append_of_pos hinner]
    rfl
  have hfirst : (a ++ ',' :: b).takeWhile (· ≠ ',') = a := by
    rw [List.takeWhile_append_of_pos ha]
    exact List.append_nil _
  have hsecond : ((a ++ ',' :: b).dropWhile (· ≠ ',')).drop 1 = b := by
    rw [List.dropWhile_append_of_pos ha]
    rfl
  rw [readArguments, hsplit, htake, hdrop, hfirst, hsecond]
  exact if_pos ⟨rfl, by simp⟩

theorem readCommand_call {name : String} (hname : ∀ c ∈ name.toList, c.isUpper = true)
    {a b : List Char} (ha : IsNumber a) (hb : ∀ c ∈ b, decide (c ≠ ')') = true) :
    readCommand (name.toList ++ '(' :: (a ++ ',' :: (b ++ [')'])))
      = readCall name.toList a b := by
  have htake : (name.toList ++ '(' :: (a ++ ',' :: (b ++ [')']))).takeWhile Char.isUpper
      = name.toList := by
    rw [List.takeWhile_append_of_pos hname]
    exact List.append_nil _
  have hdrop : (name.toList ++ '(' :: (a ++ ',' :: (b ++ [')']))).dropWhile Char.isUpper
      = '(' :: (a ++ ',' :: (b ++ [')'])) := by
    rw [List.dropWhile_append_of_pos hname]
    rfl
  rw [readCommand, htake, hdrop]
  show (readArguments (a ++ ',' :: (b ++ [')']))).bind _ = _
  rw [readArguments_pair (ha.ne (by decide)) (ha.ne (by decide)) hb, Option.bind_some]

private theorem comma_toList : ",".toList = [','] := rfl

private theorem paren_toList : ")".toList = [')'] := rfl

theorem readCommand_baseLine (x y : ℤ) : readCommand (baseLine x y) = some (.base x y) := by
  have hline : baseLine x y
      = "BASE".toList ++ '(' :: (intText x ++ ',' :: (intText y ++ [')'])) := by
    unfold baseLine
    simp only [show "BASE(".toList = "BASE".toList ++ ['('] from rfl, comma_toList, paren_toList,
      List.append_assoc, List.cons_append, List.nil_append]
  rw [hline,
    readCommand_call (by decide) (isNumber_intText x) ((isNumber_intText y).ne (by decide)),
    readCall, if_pos rfl, readInt_intText, readInt_intText]
  rfl

theorem readCommand_moveLine (p : Point) :
    readCommand (moveLine p) = some (.moveAbs ⟨round4 p.x, round4 p.y⟩) := by
  have hline : moveLine p
      = "MOVEABS".toList ++ '(' :: (fmt p.x ++ ',' :: (fmt p.y ++ [')'])) := by
    unfold moveLine
    simp only [show "MOVEABS(".toList = "MOVEABS".toList ++ ['('] from rfl, comma_toList,
      paren_toList, List.append_assoc, List.cons_append, List.nil_append]
  rw [hline, readCommand_call (by decide) (isNumber_fmt p.x) ((isNumber_fmt p.y).ne (by decide)),
    readCall, if_neg (by decide), if_pos rfl, readFloat_fmt, readFloat_fmt]
  rfl

theorem readCommand_opLine (output : ℤ) {state : String} {on : Bool}
    (hstate : readState state.toList = some on) :
    readCommand (opLine output state) = some (.op output on) := by
  have hline : opLine output state
      = "OP".toList ++ '(' :: (intText output ++ ',' :: (state.toList ++ [')'])) := by
    unfold opLine
    simp only [show "OP(".toList = "OP".toList ++ ['('] from rfl, comma_toList, paren_toList,
      List.append_assoc, List.cons_append, List.nil_append]
  have hparen : ∀ c ∈ state.toList, decide (c ≠ ')') = true := by
    unfold readState at hstate
    split_ifs at hstate with hon hoff
    · rw [hon]
      decide
    · rw [hoff]
      decide
  rw [hline, readCommand_call (by decide) (isNumber_intText output) hparen, readCall,
    if_neg (by decide), if_neg (by decide), if_pos rfl, readInt_intText, hstate]
  rfl

/-! ## Files and connections -/

/-- `line` is the command `c`, both in a file and when it is sent. -/
structure Says (line : List Char) (c : Command) : Prop where
  strip : strip line = line
  ne : line ≠ []
  comment : isComment line = false
  notEnd : upper line ≠ "END".toList
  ascii : isAscii line = true
  noBreak : '\n' ∉ line
  reads : readCommand line = some c

/-- Printable, and no blank. -/
def IsCode (s : List Char) : Prop := ∀ c ∈ s, 0x20 < c.toNat ∧ c.toNat < 0x7F

instance (s : List Char) : Decidable (IsCode s) :=
  inferInstanceAs (Decidable (∀ c ∈ s, 0x20 < c.toNat ∧ c.toNat < 0x7F))

theorem IsCode.append {a b : List Char} (ha : IsCode a) (hb : IsCode b) : IsCode (a ++ b) := by
  intro c hc
  rcases List.mem_append.mp hc with hc | hc
  · exact ha c hc
  · exact hb c hc

theorem IsNumber.isCode {s : List Char} (h : IsNumber s) : IsCode s := by
  intro c hc
  have hchar := h c hc
  rw [isNumberChar, Bool.or_eq_true] at hchar
  rcases hchar with hdigit | hother
  · simp only [Char.isDigit, Bool.and_eq_true, decide_eq_true_eq, ge_iff_le,
      UInt32.le_iff_toNat_le] at hdigit
    have hlow : 48 ≤ c.toNat := hdigit.1
    have hhigh : c.toNat ≤ 57 := hdigit.2
    omega
  · have hall : ∀ c ∈ ".-infa".toList, 0x20 < c.toNat ∧ c.toNat < 0x7F := by decide
    exact hall c (of_decide_eq_true hother)

theorem isSpace_of_isCode {c : Char} (h : 0x20 < c.toNat ∧ c.toNat < 0x7F) :
    isSpace c = false := by
  rw [isSpace, decide_eq_false_iff_not]
  intro hmem
  have hall : ∀ n ∈ spaceCodes, n ≤ 0x20 ∨ 0x7F ≤ n := by decide
  have := hall _ hmem
  omega

/-- The first characters of the commands. -/
def heads : List Char := "ABDMOS".toList

theorem Says.of_isCode {line : List Char} {command : Command} (hcode : IsCode line)
    (hhead : ∃ c ∈ heads, line.head? = some c) (hreads : readCommand line = some command) :
    Says line command := by
  obtain ⟨c, hc, hline⟩ := hhead
  have hheads : ∀ c ∈ heads, c ≠ Char.ofNat 0x27 ∧ upperChar c = [c] ∧ c ≠ 'E' := by decide
  obtain ⟨hquote, hupper, hE⟩ := hheads c hc
  cases line with
  | nil => cases hline
  | cons c' s =>
      obtain rfl : c' = c := Option.some.inj hline
      have hfront : (c' :: s).dropWhile isSpace = c' :: s :=
        List.dropWhile_cons_of_neg (by simp [isSpace_of_isCode (hcode c' (by simp))])
      have hback : (c' :: s).rdropWhile isSpace = c' :: s := by
        rw [List.rdropWhile_eq_self_iff]
        intro hne
        rw [isSpace_of_isCode (hcode _ (List.getLast_mem hne))]
        exact Bool.false_ne_true
      refine ⟨?_, List.cons_ne_nil _ _, ?_, ?_, ?_, ?_, hreads⟩
      · rw [Nc.strip, hfront]
        exact hback
      · have hne : (Char.ofNat 0x27 == c') = false := beq_eq_false_iff_ne.mpr hquote.symm
        show (Char.ofNat 0x27 == c' && _) = false
        rw [hne, Bool.false_and]
      · intro hend
        rw [upper, List.flatMap_cons, hupper] at hend
        exact hE (List.cons.inj hend).1
      · rw [isAscii, List.all_eq_true]
        intro d hd
        have := hcode d hd
        exact decide_eq_true (by omega)
      · intro hbreak
        have := (hcode _ hbreak).1
        exact absurd this (by decide)

theorem says_baseLine (x y : ℤ) : Says (baseLine x y) (.base x y) := by
  refine .of_isCode ?_ ⟨'B', by decide, rfl⟩ (readCommand_baseLine x y)
  refine IsCode.append (.append (.append (.append ?_ ?_) ?_) ?_) ?_
  · decide
  · exact (isNumber_intText x).isCode
  · decide
  · exact (isNumber_intText y).isCode
  · decide

theorem says_moveLine (p : Point) :
    Says (moveLine p) (.moveAbs ⟨round4 p.x, round4 p.y⟩) := by
  refine .of_isCode ?_ ⟨'M', by decide, rfl⟩ (readCommand_moveLine p)
  refine IsCode.append (.append (.append (.append ?_ ?_) ?_) ?_) ?_
  · decide
  · exact (isNumber_fmt p.x).isCode
  · decide
  · exact (isNumber_fmt p.y).isCode
  · decide

theorem says_opLine (output : ℤ) {state : String} {on : Bool} (hcode : IsCode state.toList)
    (hstate : readState state.toList = some on) : Says (opLine output state) (.op output on) := by
  refine .of_isCode ?_ ⟨'O', by decide, rfl⟩ (readCommand_opLine output hstate)
  refine IsCode.append (.append (.append (.append ?_ ?_) ?_) ?_) ?_
  · decide
  · exact (isNumber_intText output).isCode
  · decide
  · exact hcode
  · decide

theorem says_setLine {name : String} (v : PyFloat) {command : Command}
    (hname : ∀ c ∈ name.toList, c.isUpper = true) (hcode : IsCode name.toList)
    (hhead : ∃ c ∈ heads, name.toList.head? = some c)
    (hreads : readSetting name.toList (round4 v) = some command) :
    Says (setLine name v) command := by
  refine .of_isCode ?_ ?_ ((readCommand_set hname v).trans hreads)
  · refine IsCode.append (.append hcode ?_) (isNumber_fmt v).isCode
    decide
  · obtain ⟨c, hc, hfirst⟩ := hhead
    refine ⟨c, hc, ?_⟩
    rw [setLine, List.append_assoc, List.head?_append, hfirst]
    rfl

theorem says_atype : Says "ATYPE=1".toList (.atype (.finite false 1)) :=
  .of_isCode (by decide) ⟨'A', by decide, rfl⟩ (by decide +kernel)

theorem says_waitIdle : Says "WAIT IDLE".toList .waitIdle where
  strip := by decide
  ne := by decide
  comment := by decide
  notEnd := by decide
  ascii := by decide
  noBreak := by decide
  reads := by decide

/-! ## Programs -/

/-- The lines of a program that are no comment and not its end. -/
def jobLines (P : JobParameters) (start : Point) (points : List Point) : List (List Char) :=
  [baseLine P.axisX P.axisY, "ATYPE=1".toList, setLine "SPEED" P.rapidSpeed,
      setLine "ACCEL" P.accel, setLine "DECEL" P.decel, moveLine start, "WAIT IDLE".toList,
      setLine "SPEED" P.workSpeed, opLine P.laserOutput "ON"]
    ++ points.flatMap (fun p => [moveLine p, "WAIT IDLE".toList])
    ++ [opLine P.laserOutput "OFF", setLine "SPEED" P.rapidSpeed, moveLine start,
      "WAIT IDLE".toList]

def Point.round4 (p : Point) : Point := ⟨Job.round4 p.x, Job.round4 p.y⟩

/-- To the start, and the laser on there. -/
def approachCommands (P : JobParameters) (start : Point) : List Command :=
  [.base P.axisX P.axisY, .atype (.finite false 1), .speed (round4 P.rapidSpeed),
    .accel (round4 P.accel), .decel (round4 P.decel), .moveAbs start.round4, .waitIdle,
    .speed (round4 P.workSpeed), .op P.laserOutput true]

/-- A move to each point, completed before the next. -/
def cutCommands (points : List Point) : List Command :=
  points.flatMap fun p => [.moveAbs p.round4, .waitIdle]

/-- The laser off, and back to the start. -/
def returnCommands (P : JobParameters) (start : Point) : List Command :=
  [.op P.laserOutput false, .speed (round4 P.rapidSpeed), .moveAbs start.round4, .waitIdle]

/-- What these lines say. -/
def jobCommands (P : JobParameters) (start : Point) (points : List Point) : List Command :=
  approachCommands P start ++ cutCommands points ++ returnCommands P start

theorem buildBasicProgram_eq (P : JobParameters) (start next : Point) (rest : List Point) :
    buildBasicProgram (start :: next :: rest) P
      = .ok ("' ZMotion laser machining job".toList :: "' Units: mm, mm/s".toList
          :: (jobLines P start (next :: rest) ++ ["END".toList, []])) := by
  have hfold (points : List Point) (lines : List (List Char)) :
      points.foldl (fun lines p => lines ++ [moveLine p] ++ ["WAIT IDLE".toList]) lines
        = lines ++ points.flatMap (fun p => [moveLine p, "WAIT IDLE".toList]) := by
    induction points generalizing lines with
    | nil => rw [List.foldl_nil, List.flatMap_nil, List.append_nil]
    | cons p points ih =>
        rw [List.foldl_cons, ih, List.flatMap_cons, List.append_assoc, List.append_assoc]
        rfl
  rw [buildBasicProgram, hfold, jobLines, List.append_assoc, List.append_assoc, List.append_assoc]
  rfl

theorem says_cut (points : List Point) : List.Forall₂ Says
    (points.flatMap fun p => [moveLine p, "WAIT IDLE".toList]) (cutCommands points) := by
  induction points with
  | nil => exact .nil
  | cons p points ih => exact .cons (says_moveLine p) (.cons says_waitIdle ih)

/-- **Every line of a program says its command.** -/
theorem says_jobLines (P : JobParameters) (start : Point) (points : List Point) :
    List.Forall₂ Says (jobLines P start points) (jobCommands P start points) := by
  refine List.rel_append (List.rel_append ?_ (says_cut points)) ?_
  · refine .cons (says_baseLine _ _) (.cons says_atype (.cons ?_ (.cons ?_ (.cons ?_
      (.cons (says_moveLine start) (.cons says_waitIdle (.cons ?_ (.cons ?_ .nil))))))))
    · exact says_setLine _ (by decide) (by decide) ⟨'S', by decide, rfl⟩ rfl
    · exact says_setLine _ (by decide) (by decide) ⟨'A', by decide, rfl⟩ rfl
    · exact says_setLine _ (by decide) (by decide) ⟨'D', by decide, rfl⟩ rfl
    · exact says_setLine _ (by decide) (by decide) ⟨'S', by decide, rfl⟩ rfl
    · exact says_opLine _ (by decide) rfl
  · refine .cons ?_ (.cons ?_ (.cons (says_moveLine start) (.cons says_waitIdle .nil)))
    · exact says_opLine _ (by decide) rfl
    · exact says_setLine _ (by decide) (by decide) ⟨'S', by decide, rfl⟩ rfl

/-! ## What becomes of them -/

section Says

variable {lines : List (List Char)} {commands : List Command}

theorem mapM_readCommand (h : List.Forall₂ Says lines commands) :
    lines.mapM readCommand = some commands := by
  induction h with
  | nil => rfl
  | cons hline _ ih =>
      rw [List.mapM_cons, hline.reads, ih]
      rfl

theorem sentLines_says (h : List.Forall₂ Says lines commands) (more : List (List Char)) :
    sentLines (lines ++ more) = lines ++ sentLines more := by
  induction h with
  | nil => rfl
  | cons hline _ ih =>
      rw [List.cons_append, sentLines, hline.strip,
        if_neg (by simp [hline.ne, hline.comment]), if_neg hline.notEnd, ih, List.cons_append]

theorem commandLines_says (h : List.Forall₂ Says lines commands) (more : List (List Char)) :
    commandLines (lines ++ more) = lines ++ commandLines more := by
  induction h with
  | nil => rfl
  | cons hline _ ih =>
      rw [List.cons_append, commandLines, hline.strip,
        if_neg (by simp [hline.ne, hline.comment]), if_neg hline.notEnd, ih, List.cons_append]

theorem says_of_mem (h : List.Forall₂ Says lines commands) :
    ∀ line ∈ lines, ∃ command, Says line command := by
  induction h with
  | nil => simp
  | cons hline _ ih =>
      intro line hmem
      rcases List.mem_cons.mp hmem with rfl | hmem
      · exact ⟨_, hline⟩
      · exact ih line hmem

end Says

end GalvoCtrl.Job
