import GalvoCtrl.Nc.Grammar
import GalvoCtrl.Nc.Words

/-!
# Nc — Spelling

Every spelling of a line is read as the words it spells: numbers, words, comments
and gaps, lines.
-/

namespace GalvoCtrl.Nc

open GalvoCtrl.Lib GalvoCtrl.Split

/-! ## Numbers -/

private theorem digit_char : ∀ d : Digit, digitValue d.char = some d.val
    ∧ upperChar d.char = [d.char] ∧ isLineBreak d.char = false ∧ d.char ≠ '.' ∧ d.char ≠ '-'
    ∧ d.char ≠ '+' ∧ d.char ≠ '(' ∧ d.char ≠ ';' ∧ d.char ≠ ')' := by decide

private theorem isDigit_of_mem {ds : List Digit} {c : Char} (h : c ∈ ds.map Digit.char) :
    isDigit c = true := by
  obtain ⟨d, _, rfl⟩ := List.mem_map.mp h
  rw [isDigit, (digit_char d).1]
  rfl

private theorem takeWhile_digits (ds : List Digit) :
    (ds.map Digit.char).takeWhile isDigit = ds.map Digit.char :=
  List.takeWhile_eq_self_iff.mpr fun _ hc => isDigit_of_mem hc

/-- The point ends the digits before it. -/
private theorem digits_point (ds : List Digit) (s : List Char) :
    (ds.map Digit.char ++ '.' :: s).takeWhile isDigit = ds.map Digit.char
      ∧ (ds.map Digit.char ++ '.' :: s).dropWhile isDigit = '.' :: s := by
  have hpoint : isDigit '.' = false := by decide
  constructor
  · rw [List.takeWhile_append_of_pos fun c hc => isDigit_of_mem hc,
      List.takeWhile_cons_of_neg (by simp [hpoint]), List.append_nil]
  · rw [List.dropWhile_append_of_pos fun c hc => isDigit_of_mem hc,
      List.dropWhile_cons_of_neg (by simp [hpoint])]

private theorem map_char_isEmpty {ds : List Digit} (h : ds ≠ []) :
    (ds.map Digit.char).isEmpty = false := by
  cases ds with
  | nil => exact absurd rfl h
  | cons d ds => rfl

theorem matchUnsigned_render (n : NumberText) : matchUnsigned n.render = some n.render := by
  unfold matchUnsigned
  dsimp only
  cases n with
  | whole digits ne =>
      have hdrop : (digits.map Digit.char).dropWhile isDigit = [] :=
        List.dropWhile_eq_nil_iff.mpr fun _ hc => isDigit_of_mem hc
      rw [NumberText.render, takeWhile_digits, hdrop, map_char_isEmpty ne]
      rfl
  | fraction digits decimals ne =>
      rw [NumberText.render, (digits_point digits _).1, (digits_point digits _).2,
        map_char_isEmpty ne, matchFraction, takeWhile_digits]
      rfl
  | point decimals ne =>
      have hpoint : ('.' :: decimals.map Digit.char).takeWhile isDigit = [] :=
        (digits_point [] (decimals.map Digit.char)).1
      rw [NumberText.render, hpoint, matchFraction, takeWhile_digits]
      dsimp only
      rw [map_char_isEmpty ne]
      rfl

theorem ofDigits_map (ds : List Digit) : ofDigits (ds.map Digit.char) = digitsValue ds := by
  have hstep : (fun (n : Nat) (d : Digit) => 10 * n + (digitValue d.char).getD 0)
      = fun n d => 10 * n + d.val := by
    funext n d
    rw [(digit_char d).1]
    rfl
  rw [ofDigits, digitsValue, List.foldl_map, hstep]

/-- Digits hold no point. -/
private theorem split_point (ds : List Digit) (s : List Char) :
    (ds.map Digit.char ++ '.' :: s).takeWhile (· ≠ '.') = ds.map Digit.char
      ∧ (ds.map Digit.char ++ '.' :: s).dropWhile (· ≠ '.') = '.' :: s := by
  have hne : ∀ c ∈ ds.map Digit.char, decide (c ≠ '.') = true := by
    intro c hc
    obtain ⟨d, _, rfl⟩ := List.mem_map.mp hc
    exact decide_eq_true (digit_char d).2.2.2.1
  constructor
  · rw [List.takeWhile_append_of_pos hne, List.takeWhile_cons_of_neg (by simp), List.append_nil]
  · rw [List.dropWhile_append_of_pos hne, List.dropWhile_cons_of_neg (by simp)]

theorem unsignedFloat_render (n : NumberText) : unsignedFloat n.render = n.value := by
  unfold unsignedFloat
  dsimp only
  cases n with
  | whole digits ne =>
      have hne : ∀ c ∈ digits.map Digit.char, decide (c ≠ '.') = true := by
        intro c hc
        obtain ⟨d, _, rfl⟩ := List.mem_map.mp hc
        exact decide_eq_true (digit_char d).2.2.2.1
      rw [NumberText.render, List.takeWhile_eq_self_iff.mpr hne, List.dropWhile_eq_nil_iff.mpr hne]
      simp [ofDigits_map, NumberText.value]
  | fraction digits decimals ne =>
      rw [NumberText.render, (split_point digits _).1, (split_point digits _).2,
        List.drop_one, List.tail_cons, ← List.map_append, ofDigits_map, List.length_map]
      rfl
  | point decimals ne =>
      have hsplit := split_point [] (decimals.map Digit.char)
      rw [NumberText.render, show '.' :: decimals.map Digit.char
        = [].map Digit.char ++ '.' :: decimals.map Digit.char from rfl, hsplit.1, hsplit.2,
        List.drop_one, List.tail_cons, ← List.map_append, ofDigits_map, List.length_map]
      rfl

/-- A number starts with a digit or a point. -/
private theorem render_cons (n : NumberText) :
    ∃ c s, n.render = c :: s ∧ c ≠ '-' ∧ c ≠ '+' := by
  cases n with
  | whole digits ne =>
      cases digits with
      | nil => exact absurd rfl ne
      | cons d ds => exact ⟨d.char, _, rfl, (digit_char d).2.2.2.2.1, (digit_char d).2.2.2.2.2.1⟩
  | fraction digits decimals ne =>
      cases digits with
      | nil => exact absurd rfl ne
      | cons d ds => exact ⟨d.char, _, rfl, (digit_char d).2.2.2.2.1, (digit_char d).2.2.2.2.2.1⟩
  | point decimals ne => exact ⟨'.', _, rfl, by decide, by decide⟩

/-- **Every spelling is matched whole**, -/
theorem matchNumber_render (s : SignedText) : matchNumber s.render = some s.render := by
  obtain ⟨c, t, hrender, hminus, hplus⟩ := render_cons s.number
  unfold SignedText.render
  cases s.sign with
  | none =>
      dsimp only
      rw [hrender, matchNumber, if_neg (by simp [hminus, hplus]), ← hrender,
        matchUnsigned_render]
  | plus =>
      rw [matchNumber, if_pos (Or.inr rfl), matchUnsigned_render]
      rfl
  | minus =>
      rw [matchNumber, if_pos (Or.inl rfl), matchUnsigned_render]
      rfl

/-- and read as its value. -/
theorem float_render (s : SignedText) : float s.render = s.value := by
  obtain ⟨c, t, hrender, hminus, hplus⟩ := render_cons s.number
  unfold SignedText.render SignedText.value
  cases s.sign with
  | none =>
      dsimp only
      rw [← unsignedFloat_render, hrender, float]
      · intro s h
        exact hminus (List.head_eq_of_cons_eq h)
      · intro s h
        exact hplus (List.head_eq_of_cons_eq h)
  | plus => exact unsignedFloat_render s.number
  | minus => exact congrArg Neg.neg (unsignedFloat_render s.number)

/-! ## Words -/

theorem letter_char : ∀ l : Letter, isWordLetter l.upperCase = true
    ∧ upperChar l.upperCase = [l.upperCase] ∧ upperChar l.lowerCase = [l.upperCase] := by
  decide

/-- A character that is no comment mark and no line end. -/
def Bare (c : Char) : Prop := c ≠ '(' ∧ c ≠ ';' ∧ isLineBreak c = false ∧ c ≠ ')'

instance (c : Char) : Decidable (Bare c) := inferInstanceAs (Decidable (_ ∧ _))

private theorem letter_bare : ∀ l : Letter, Bare l.upperCase ∧ Bare l.lowerCase := by decide

theorem blank_bare (b : Blank) : Bare b.val :=
  ⟨(of_isSpace b.property.1).2.2.2.2.2.1, (of_isSpace b.property.1).2.2.2.2.2.2.1,
    b.property.2, by
      rintro hc
      exact absurd b.property.1 (by rw [hc]; decide)⟩

/-- Numbers are bare and have no case. -/
private theorem number_char (s : SignedText) :
    ∀ c ∈ s.render, upperChar c = [c] ∧ Bare c := by
  have hdigits : ∀ ds : List Digit, ∀ c ∈ ds.map Digit.char, upperChar c = [c] ∧ Bare c := by
    intro ds c hc
    obtain ⟨d, _, rfl⟩ := List.mem_map.mp hc
    have hd := digit_char d
    exact ⟨hd.2.1, hd.2.2.2.2.2.2.1, hd.2.2.2.2.2.2.2.1, hd.2.2.1, hd.2.2.2.2.2.2.2.2⟩
  have hpoint : upperChar '.' = ['.'] ∧ Bare '.' := by decide
  have hnumber : ∀ c ∈ s.number.render, upperChar c = [c] ∧ Bare c := by
    cases s.number with
    | whole digits ne => exact hdigits digits
    | fraction digits decimals ne =>
        exact List.forall_mem_append.mpr
          ⟨hdigits digits, List.forall_mem_cons.mpr ⟨hpoint, hdigits decimals⟩⟩
    | point decimals ne => exact List.forall_mem_cons.mpr ⟨hpoint, hdigits decimals⟩
  unfold SignedText.render
  cases s.sign with
  | none => exact hnumber
  | plus => exact List.forall_mem_cons.mpr ⟨by decide, hnumber⟩
  | minus => exact List.forall_mem_cons.mpr ⟨by decide, hnumber⟩

theorem word_bare (w : WordText) : ∀ c ∈ w.render, Bare c := by
  intro c hc
  rcases List.mem_cons.mp hc with rfl | hc
  · split
    · exact (letter_bare w.letter).2
    · exact (letter_bare w.letter).1
  · rcases List.mem_append.mp hc with hc | hc
    · obtain ⟨b, _, rfl⟩ := List.mem_map.mp hc
      exact blank_bare b
    · exact (number_char w.number c hc).2

theorem renderBlanks_space (bl : List Blank) :
    ∀ c ∈ renderBlanks bl, isSpace c = true := by
  intro c hc
  obtain ⟨b, _, rfl⟩ := List.mem_map.mp hc
  exact b.property.1

private theorem upper_number (s : SignedText) : upper s.render = s.render := by
  have h : ∀ t : List Char, (∀ c ∈ t, upperChar c = [c]) → upper t = t := by
    intro t ht
    induction t with
    | nil => rfl
    | cons c t ih =>
        rw [upper, List.flatMap_cons, ht c (by simp), ← upper, ih fun d hd => ht d (by simp [hd])]
        rfl
  exact h _ fun c hc => (number_char s c hc).1

/-- Upper case only changes the letter. -/
theorem upper_word (w : WordText) :
    upper w.render = w.letter.upperCase :: (renderBlanks w.blanks ++ w.number.render) := by
  have hletter : upperChar (if w.lower then w.letter.lowerCase else w.letter.upperCase)
      = [w.letter.upperCase] := by
    split
    · exact (letter_char w.letter).2.2
    · exact (letter_char w.letter).2.1
  rw [WordText.render, upper, List.flatMap_cons, hletter, ← upper, upper_append,
    upper_blanks (renderBlanks_space w.blanks), upper_number]
  rfl

/-! ## Comments -/

theorem subComments_append {a : List Char} (h : ∀ c ∈ a, c ≠ '(') (s : List Char) :
    subComments false (a ++ s) = a ++ subComments false s := by
  induction a with
  | nil => rfl
  | cons c a ih =>
      rw [List.cons_append, subComments_keep fun hc => h c (by simp) hc.1,
        ih fun d hd => h d (by simp [hd])]
      rfl

theorem uncomment_append {a : List Char} (h : ∀ c ∈ a, Bare c) (s : List Char) :
    uncomment (a ++ s) = a ++ uncomment s := by
  rw [uncomment, uncomment, subComments_append fun c hc => (h c hc).1,
    List.takeWhile_append_of_pos]
  intro c hc
  simpa using (h c hc).2.1

/-- Inside a comment everything goes up to the parenthesis that closes it. -/
private theorem subComments_inside {t : List Char} (h : ∀ c ∈ t, c ≠ ')') (s : List Char) :
    subComments true (t ++ ')' :: s) = subComments false s := by
  induction t with
  | nil => exact subComments_close s
  | cons c t ih =>
      rw [List.cons_append, subComments_skip (h c (by simp)), ih fun d hd => h d (by simp [hd])]

theorem uncomment_comment (t : CommentText) (s : List Char) :
    uncomment ('(' :: (t.val ++ [')']) ++ s) = uncomment s := by
  rw [uncomment, uncomment, List.cons_append, List.append_assoc, List.singleton_append,
    subComments_open (by simp), subComments_inside fun c hc => (t.property c hc).2.1]

/-- The blanks of a gap. -/
def Gap.blanks (g : Gap) : List Char :=
  g.flatMap fun
    | .blank c => [c.val]
    | .comment _ => []

theorem Gap.blanks_space (g : Gap) : ∀ c ∈ g.blanks, isSpace c = true := by
  intro c hc
  obtain ⟨item, _, hmem⟩ := List.mem_flatMap.mp hc
  cases item with
  | blank b =>
      obtain rfl := List.mem_singleton.mp hmem
      exact b.property.1
  | comment t => cases hmem

theorem uncomment_gap (g : Gap) (s : List Char) :
    uncomment (Gap.render g ++ s) = g.blanks ++ uncomment s := by
  induction g with
  | nil => rfl
  | cons item g ih =>
      rw [Gap.render, List.flatMap_cons, List.append_assoc, ← Gap.render]
      cases item with
      | blank b =>
          rw [GapItem.render, uncomment_append (by simpa using blank_bare b), ih]
          rfl
      | comment t =>
          rw [GapItem.render, uncomment_comment, ih]
          rfl

theorem uncomment_tail (l : LineText) : uncomment l.renderTail = [] := by
  unfold LineText.renderTail
  cases l.tail with
  | none => rfl
  | some t =>
      show uncomment (';' :: t.val) = []
      rw [uncomment, subComments_keep fun h => absurd h.1 (by decide),
        List.takeWhile_cons_of_neg (by simp)]

/-! ## Lines -/

/-- The words of a line with the blanks around them. -/
def bareLine (words : List (Gap × WordText)) (gap : Gap) : List Char :=
  (words.flatMap fun gw => gw.1.blanks ++ gw.2.render) ++ gap.blanks

theorem uncomment_render (l : LineText) : uncomment l.render = bareLine l.words l.gap := by
  rw [LineText.render, bareLine]
  induction l.words with
  | nil =>
      rw [List.flatMap_nil, List.flatMap_nil, List.nil_append, List.nil_append, uncomment_gap,
        uncomment_tail, List.append_nil]
  | cons gw words ih =>
      rw [List.flatMap_cons, List.append_assoc, List.append_assoc, uncomment_gap,
        uncomment_append (word_bare gw.2), ih, List.flatMap_cons]
      simp only [List.append_assoc]

/-- What `WORD_RE` finds in a word. -/
def WordText.found (w : WordText) : Char × List Char := (w.letter.upperCase, w.number.render)

theorem findall_bareLine (words : List (Gap × WordText)) (gap : Gap) :
    findall (upper (bareLine words gap)) = words.map (fun gw => gw.2.found)
      ∧ EndsNumber (upper (bareLine words gap)) := by
  induction words with
  | nil =>
      have hgap : bareLine [] gap = gap.blanks := rfl
      rw [hgap, upper_blanks gap.blanks_space, ← List.append_nil gap.blanks]
      refine ⟨findall_blanks gap.blanks_space [], ?_⟩
      rw [List.append_nil]
      exact (endsWord_blanks gap.blanks_space).toEndsNumber
  | cons gw words ih =>
      obtain ⟨hwords, hends⟩ := ih
      have hline : upper (bareLine (gw :: words) gap) = gw.1.blanks ++ gw.2.letter.upperCase
          :: (renderBlanks gw.2.blanks ++ gw.2.number.render ++ upper (bareLine words gap)) := by
        have hcons : bareLine (gw :: words) gap
            = gw.1.blanks ++ (gw.2.render ++ bareLine words gap) := by
          rw [bareLine, List.flatMap_cons, bareLine]
          simp only [List.append_assoc]
        rw [hcons, upper_append, upper_append, upper_blanks gw.1.blanks_space, upper_word]
        rfl
      rw [hline]
      refine ⟨?_, (endsWord_letter gw.1.blanks_space (letter_char gw.2.letter).1 _).toEndsNumber⟩
      rw [findall_blanks gw.1.blanks_space, findall_word (letter_char gw.2.letter).1
        (renderBlanks_space gw.2.blanks) (matchNumber_render gw.2.number) hends, hwords]
      rfl

/-- **The words of a line are found, in order, with their numbers as written.** -/
theorem lineWords_render (l : LineText) :
    lineWords l.render = l.words.map fun gw => gw.2.found := by
  rw [lineWords, uncomment_render]
  exact (findall_bareLine l.words l.gap).1

end GalvoCtrl.Nc
