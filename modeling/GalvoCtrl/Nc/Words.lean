import GalvoCtrl.Nc.Parser

/-!
# Nc — Words

How `WORD_RE` cuts a line: blanks stand apart from words, a word ends where its
number ends, and a line is, for the parser, the words of its uncommented text.
-/

namespace GalvoCtrl.Nc

open GalvoCtrl.Lib

/-! ## Character classes -/

/-- A property of the characters with these codes. -/
private theorem of_code_mem {P : Char → Prop} {codes : List Nat} {c : Char}
    (hc : c.toNat ∈ codes) (h : ∀ n ∈ codes, P (Char.ofNat n)) : P c := by
  have := h c.toNat hc
  rwa [Char.ofNat_toNat] at this

/-- A blank is no part of a word, and its own upper case. -/
theorem of_isSpace {c : Char} (h : isSpace c = true) :
    isWordLetter c = false ∧ isDigit c = false ∧ c ≠ '.' ∧ c ≠ '-' ∧ c ≠ '+' ∧ c ≠ '('
      ∧ c ≠ ';' ∧ upperChar c = [c] :=
  of_code_mem (P := fun c => isWordLetter c = false ∧ isDigit c = false ∧ c ≠ '.' ∧ c ≠ '-'
    ∧ c ≠ '+' ∧ c ≠ '(' ∧ c ≠ ';' ∧ upperChar c = [c]) (of_decide_eq_true h) (by decide)

/-- A letter starts no number. -/
theorem of_isWordLetter {c : Char} (h : isWordLetter c = true) :
    isDigit c = false ∧ c ≠ '.' ∧ c ≠ '-' ∧ c ≠ '+' ∧ isSpace c = false :=
  of_code_mem (P := fun c => isDigit c = false ∧ c ≠ '.' ∧ c ≠ '-' ∧ c ≠ '+'
    ∧ isSpace c = false) (of_decide_eq_true h) (by decide)

/-! ## Where a number ends -/

/-- `s` cannot prolong a number. -/
structure EndsNumber (s : List Char) : Prop where
  digit : s.takeWhile isDigit = []
  point : s.head? ≠ some '.'

theorem endsNumber_nil : EndsNumber [] := ⟨rfl, by simp⟩

theorem endsNumber_cons {c : Char} (hd : isDigit c = false) (hp : c ≠ '.') (s : List Char) :
    EndsNumber (c :: s) := ⟨by simp [hd], by simpa using hp⟩

theorem endsNumber_space {c : Char} (h : isSpace c = true) (s : List Char) :
    EndsNumber (c :: s) := endsNumber_cons (of_isSpace h).2.1 (of_isSpace h).2.2.1 s

theorem endsNumber_letter {c : Char} (h : isWordLetter c = true) (s : List Char) :
    EndsNumber (c :: s) := endsNumber_cons (of_isWordLetter h).1 (of_isWordLetter h).2.1 s

theorem matchFraction_append {r : List Char} (h : EndsNumber r) (t : List Char) :
    matchFraction (t ++ r) = matchFraction t := by
  cases t with
  | nil =>
      cases r with
      | nil => rfl
      | cons c r =>
          have hp : c ≠ '.' := by simpa using h.point
          simp [matchFraction, hp]
  | cons c t =>
      by_cases hc : c = '.'
      · rw [hc, List.cons_append, matchFraction, matchFraction,
          takeWhile_append_of_stop h.digit]
      · simp [matchFraction, hc]

/-- **A number is not changed by what cannot prolong it.** -/
theorem matchUnsigned_append {r : List Char} (h : EndsNumber r) (t : List Char) :
    matchUnsigned (t ++ r) = matchUnsigned t := by
  unfold matchUnsigned
  rw [takeWhile_append_of_stop h.digit, dropWhile_append_of_stop h.digit,
    matchFraction_append h, matchFraction_append h]

theorem EndsNumber.matchUnsigned {s : List Char} (h : EndsNumber s) :
    matchUnsigned s = none := matchUnsigned_append h []

theorem matchNumber_append {r : List Char} (h : EndsNumber r) {t : List Char} (ht : t ≠ []) :
    matchNumber (t ++ r) = matchNumber t := by
  cases t with
  | nil => exact absurd rfl ht
  | cons c t =>
      rw [List.cons_append, matchNumber, matchNumber, matchUnsigned_append h,
        ← List.cons_append, matchUnsigned_append h]

/-! ## Where a word ends -/

/-- `s` can neither prolong a number nor be the number of a letter before it. -/
structure EndsWord (s : List Char) : Prop extends EndsNumber s where
  number : matchNumber (s.dropWhile isSpace) = none

/-- The number of a letter that is followed by blanks only is looked for in what
comes after, and is not there. -/
theorem matchWord_append {r : List Char} (h : EndsWord r) {t : List Char} (ht : t ≠ []) :
    matchWord (t ++ r) = matchWord t := by
  cases t with
  | nil => exact absurd rfl ht
  | cons c t =>
      rw [List.cons_append, matchWord, matchWord, List.dropWhile_append]
      by_cases hblank : t.dropWhile isSpace = []
      · rw [hblank, List.isEmpty_nil, if_pos rfl, h.number]
        rfl
      · have hspan : t.takeWhile isSpace ++ t.dropWhile isSpace = t :=
          List.takeWhile_append_dropWhile
        have hlt : (t.takeWhile isSpace).length ≠ t.length := by
          intro heq
          have hlen := congrArg List.length hspan
          rw [List.length_append, heq] at hlen
          exact hblank (List.length_eq_zero_iff.mp (by omega))
        have hne : (t.dropWhile isSpace).isEmpty = false := by
          rw [← Bool.not_eq_true, List.isEmpty_iff]
          exact hblank
        rw [hne, if_neg Bool.false_ne_true, List.takeWhile_append, if_neg hlt,
          matchNumber_append h.toEndsNumber hblank]

/-- A fraction is found at the front. -/
private theorem matchFraction_front {s f : List Char} (h : matchFraction s = some f) :
    '.' :: f <+: s := by
  cases s with
  | nil => cases h
  | cons c s =>
      by_cases hc : c = '.'
      · rw [hc, matchFraction] at h
        rw [hc, ← Option.some.inj h, List.cons_prefix_cons]
        exact ⟨rfl, List.takeWhile_prefix isDigit⟩
      · simp [matchFraction, hc] at h

private theorem matchUnsigned_front {s v : List Char} (h : matchUnsigned s = some v) :
    v <+: s := by
  unfold matchUnsigned at h
  dsimp only at h
  split at h
  · cases hf : matchFraction s with
    | none => simp [hf] at h
    | some f =>
        rw [hf] at h
        dsimp only at h
        split at h
        · cases h
        · rw [← Option.some.inj h]
          exact matchFraction_front hf
  · have hspan : s.takeWhile isDigit ++ s.dropWhile isDigit = s := List.takeWhile_append_dropWhile
    cases hf : matchFraction (s.dropWhile isDigit) with
    | none =>
        rw [hf] at h
        rw [← Option.some.inj h]
        exact List.takeWhile_prefix isDigit
    | some f =>
        rw [hf] at h
        rw [← Option.some.inj h]
        conv_rhs => rw [← hspan]
        exact (List.prefix_append_right_inj _).mpr (matchFraction_front hf)

/-- A number is found at the front. -/
theorem matchNumber_front {s v : List Char} (h : matchNumber s = some v) : v <+: s := by
  cases s with
  | nil => cases h
  | cons c s =>
      rw [matchNumber] at h
      split at h
      · obtain ⟨u, hu, rfl⟩ := Option.map_eq_some_iff.mp h
        exact List.cons_prefix_cons.mpr ⟨rfl, matchUnsigned_front hu⟩
      · exact matchUnsigned_front h

/-- A match is no longer than what it is found in. -/
theorem matchWord_length (s : List Char) (w : Char × List Char) (n : Nat)
    (h : matchWord s = some (w, n)) : n ≤ s.length := by
  cases s with
  | nil => cases h
  | cons c s =>
      rw [matchWord] at h
      split at h
      · obtain ⟨v, hv, hw⟩ := Option.map_eq_some_iff.mp h
        obtain rfl : (s.takeWhile isSpace).length + v.length + 1 = n := congrArg Prod.snd hw
        have hspan := congrArg List.length (List.takeWhile_append_dropWhile (p := isSpace) (l := s))
        have hlen := (matchNumber_front hv).length_le
        rw [List.length_append] at hspan
        rw [List.length_cons]
        omega
      · cases h

/-! ## Searching a line piece by piece -/

/-- **A line splits** where what follows can neither prolong nor complete a
word. -/
theorem findall_append {r : List Char} (h : EndsWord r) (s : List Char) :
    findall (s ++ r) = findall s ++ findall r :=
  scan_append matchWord_length fun _ _ hne => matchWord_append h hne

theorem matchWord_space {c : Char} (h : isSpace c = true) (s : List Char) :
    matchWord (c :: s) = none := by
  rw [matchWord, (of_isSpace h).1]
  rfl

/-- Blanks before a line do not matter. -/
theorem findall_blanks {bl : List Char} (h : ∀ c ∈ bl, isSpace c = true) (s : List Char) :
    findall (bl ++ s) = findall s :=
  scan_append_of_none (fun c hc t => matchWord_space (h c hc) t) s

theorem endsWord_blanks {bl : List Char} (h : ∀ c ∈ bl, isSpace c = true) : EndsWord bl where
  toEndsNumber := by
    cases bl with
    | nil => exact endsNumber_nil
    | cons c bl => exact endsNumber_space (h c (by simp)) bl
  number := by
    rw [List.dropWhile_eq_nil_iff.mpr h]
    rfl

/-- Blanks behind a line do not matter. -/
theorem findall_append_blanks {bl : List Char} (h : ∀ c ∈ bl, isSpace c = true)
    (s : List Char) : findall (s ++ bl) = findall s := by
  have hnone : findall bl = [] := by
    rw [← List.append_nil bl, findall_blanks h]
    rfl
  rw [findall_append (endsWord_blanks h), hnone, List.append_nil]

/-- Letters after blanks end a word. -/
theorem endsWord_letter {bl : List Char} (h : ∀ c ∈ bl, isSpace c = true) {c : Char}
    (hc : isWordLetter c = true) (s : List Char) : EndsWord (bl ++ c :: s) where
  toEndsNumber := by
    cases bl with
    | nil => exact endsNumber_letter hc s
    | cons b bl => exact endsNumber_space (h b (by simp)) _
  number := by
    have hstop : (c :: s).dropWhile isSpace = c :: s := by
      rw [List.dropWhile_cons_of_neg (by simp [(of_isWordLetter hc).2.2.2.2])]
    rw [List.dropWhile_append_of_pos h, hstop, matchNumber, if_neg]
    · exact (endsNumber_letter hc s).matchUnsigned
    · simp [(of_isWordLetter hc).2.2.1, (of_isWordLetter hc).2.2.2.1]

/-- No number starts with a blank. -/
private theorem matchNumber_space {c : Char} (h : isSpace c = true) (s : List Char) :
    matchNumber (c :: s) = none := by
  rw [matchNumber, if_neg]
  · exact (endsNumber_space h s).matchUnsigned
  · simp [(of_isSpace h).2.2.2.1, (of_isSpace h).2.2.2.2.1]

/-- **A word in front of a line**: letter, blanks and number are taken off. -/
theorem findall_word {c : Char} {bl v r : List Char} (hc : isWordLetter c = true)
    (hbl : ∀ b ∈ bl, isSpace b = true) (hv : matchNumber v = some v) (hr : EndsNumber r) :
    findall (c :: (bl ++ v ++ r)) = (c, v) :: findall r := by
  have hvr : matchNumber (v ++ r) = some v := by
    rw [matchNumber_append hr ?_, hv]
    rintro rfl
    cases hv
  have hstop : (v ++ r).takeWhile isSpace = [] := by
    cases hcons : v ++ r with
    | nil => rfl
    | cons d t =>
        cases hd : isSpace d with
        | false => simp [hd]
        | true =>
            rw [hcons, matchNumber_space hd] at hvr
            cases hvr
  have hmatch : matchWord (c :: (bl ++ v ++ r)) = some ((c, v), bl.length + v.length + 1) := by
    rw [matchWord, if_pos hc, List.append_assoc, List.takeWhile_append_of_pos hbl, hstop,
      List.dropWhile_append_of_pos hbl]
    have hdrop : (v ++ r).dropWhile isSpace = v ++ r := by
      have hspan := List.takeWhile_append_dropWhile (p := isSpace) (l := v ++ r)
      rwa [hstop] at hspan
    rw [hdrop, hvr, List.append_nil]
    rfl
  rw [findall, scan_match hmatch]
  have hrest : (bl ++ v ++ r).drop (bl.length + v.length) = r := by
    rw [← List.length_append, List.drop_left]
  rw [hrest, findall]

/-! ## Stripping -/

/-- `strip` takes off blanks at both ends. -/
theorem strip_spec (s : List Char) : ∃ front back, (∀ c ∈ front, isSpace c = true)
    ∧ (∀ c ∈ back, isSpace c = true) ∧ s = front ++ strip s ++ back := by
  refine ⟨s.takeWhile isSpace, ((s.dropWhile isSpace).reverse.takeWhile isSpace).reverse,
    fun c hc => List.mem_takeWhile_imp hc,
    fun c hc => List.mem_takeWhile_imp (List.mem_reverse.mp hc), ?_⟩
  rw [strip, List.append_assoc, ← List.reverse_append, List.takeWhile_append_dropWhile,
    List.reverse_reverse, List.takeWhile_append_dropWhile]

theorem upper_append (a b : List Char) : upper (a ++ b) = upper a ++ upper b :=
  List.flatMap_append

theorem upper_blanks {bl : List Char} (h : ∀ c ∈ bl, isSpace c = true) : upper bl = bl := by
  induction bl with
  | nil => rfl
  | cons c bl ih =>
      rw [upper, List.flatMap_cons, (of_isSpace (h c (by simp))).2.2.2.2.2.2.2, ← upper,
        ih fun d hd => h d (by simp [hd])]
      rfl

/-- Stripping does not change the words. -/
theorem findall_strip (s : List Char) : findall (upper (strip s)) = findall (upper s) := by
  obtain ⟨front, back, hfront, hback, hs⟩ := strip_spec s
  conv_rhs => rw [hs, upper_append, upper_append, upper_blanks hfront, upper_blanks hback,
    findall_append_blanks hback, findall_blanks hfront]

/-! ## A line is its words -/

section Lines

variable {α : Type*} [RatCast α]

/-- The words of a line, comments taken out. -/
def lineWords (line : List Char) : List (Char × List Char) := findall (upper (uncomment line))

/-- The dictionary of a list of words. -/
def dict (words : List (Char × List Char)) : Words := words.foldl setWord fun _ => none

/-- Later words win. -/
theorem foldl_setWord (words : List (Char × List Char)) (d : Words) (key : List Char) :
    words.foldl setWord d key = (dict words key).or (d key) := by
  induction words using List.reverseRecOn with
  | nil => rfl
  | append_singleton words w ih =>
      rw [dict, List.foldl_append, List.foldl_append, List.foldl_cons, List.foldl_nil,
        List.foldl_cons, List.foldl_nil, setWord, setWord]
      by_cases hkey : key = upper [w.1]
      · rw [hkey, Function.update_self, Function.update_self]
        rfl
      · rw [Function.update_of_ne hkey, Function.update_of_ne hkey]
        exact ih

theorem dict_append (a b : List (Char × List Char)) (key : List Char) :
    dict (a ++ b) key = (dict b key).or (dict a key) := by
  rw [dict, List.foldl_append, foldl_setWord]
  rfl

theorem dict_singleton (w : Char × List Char) (key : List Char) :
    dict [w] key = if key = upper [w.1] then some (float w.2) else none := by
  show Function.update (fun _ => none) (upper [w.1]) (some (float w.2)) key = _
  by_cases hkey : key = upper [w.1]
  · rw [if_pos hkey, hkey, Function.update_self]
  · rw [if_neg hkey, Function.update_of_ne hkey]

/-- No words, no effect. -/
theorem execWords_none (cfg : Split.Config α) (s : ParserState α) :
    execWords cfg (fun _ => none) s = s := by
  unfold execWords moveTo
  rw [if_neg (by simp)]
  rfl

/-- **A line acts by its words**; an empty one has none. -/
theorem parseLine_eq (cfg : Split.Config α) (s : ParserState α) (line : List Char) :
    parseLine cfg s line = execWords cfg (dict (lineWords line)) s := by
  have hwords : parseWords (upper (stripGcodeComments line)) = dict (lineWords line) := by
    rw [parseWords, stripGcodeComments, findall_strip]
    rfl
  unfold parseLine
  dsimp only
  by_cases hempty : (upper (stripGcodeComments line)).isEmpty = true
  · rw [if_pos hempty, ← hwords, List.isEmpty_iff.mp hempty]
    exact (execWords_none cfg s).symm
  · rw [if_neg hempty, hwords]

end Lines

end GalvoCtrl.Nc
