import GalvoCtrl.Nc.RoundTrip

/-!
# Nc — Insertion

What a G or M word without a meaning of its own does to a line: nothing, unless
it stands behind a word with the same letter. `parse_words` keeps one number for
each letter, the last, so the word takes the place of the one before it. Two
lines are compared by what every text around them makes of them.
-/

namespace GalvoCtrl.Nc

open GalvoCtrl.Lib GalvoCtrl.Split

/-! ## Places and insertions -/

/-- A place on the line `a ++ b`, behind `a`: no comment reaches over it, it is
not behind a semicolon, and no word reaches over it. -/
structure Place (a b : List Char) : Prop where
  lineBreak : ∀ c ∈ a ++ b, isLineBreak c = false
  comments : subComments false (a ++ b) = subComments false a ++ subComments false b
  semicolon : ∀ c ∈ subComments false a, c ≠ ';'
  words : lineWords (a ++ b) = lineWords a ++ lineWords b

/-- A word and the blanks it is set apart by, which may be none. -/
structure Insertion where
  front : List Blank
  word : WordText
  back : List Blank

def Insertion.render (i : Insertion) : List Char :=
  renderBlanks i.front ++ (i.word.render ++ renderBlanks i.back)

/-- What follows does not prolong the inserted number. -/
def Insertion.Apart (i : Insertion) (b : List Char) : Prop :=
  i.back = [] → EndsNumber (upper (uncomment b))

theorem Insertion.bare (i : Insertion) : ∀ c ∈ i.render, Bare c := by
  have hblanks : ∀ bl : List Blank, ∀ c ∈ renderBlanks bl, Bare c := by
    intro bl c hc
    obtain ⟨b, _, rfl⟩ := List.mem_map.mp hc
    exact blank_bare b
  intro c hc
  rcases List.mem_append.mp hc with hc | hc
  · exact hblanks i.front c hc
  · rcases List.mem_append.mp hc with hc | hc
    · exact word_bare i.word c hc
    · exact hblanks i.back c hc

/-! ## The words of the longer line -/

/-- What is left of a text does not grow if the text starts inside a comment. -/
private theorem length_subComments_inside (s : List Char) :
    (subComments true s).length ≤ (subComments false s).length := by
  induction s with
  | nil => exact Nat.le_refl _
  | cons c s ih =>
      by_cases hclose : c = ')'
      · rw [hclose, subComments_close, subComments_keep (by simp), List.length_cons]
        omega
      · rw [subComments_skip hclose]
        by_cases hopen : c = '(' ∧ ')' ∈ s
        · rw [hopen.1, subComments_open hopen.2]
        · rw [subComments_keep hopen, List.length_cons]
          omega

/-- A text without a closing parenthesis is lost inside a comment. -/
private theorem subComments_lost {a : List Char} (h : ')' ∉ a) (b : List Char) :
    subComments true (a ++ b) = subComments true b := by
  induction a with
  | nil => rfl
  | cons c a ih =>
      rw [List.mem_cons, not_or] at h
      rw [List.cons_append, subComments_skip fun hc => h.1 hc.symm, ih h.2]

/-- **Outside comments** what is inserted stays, and changes nothing around it. -/
theorem subComments_insert {ins : List Char} (hbare : ∀ c ∈ ins, Bare c)
    {a b : List Char}
    (h : subComments false (a ++ b) = subComments false a ++ subComments false b) :
    subComments false (a ++ (ins ++ b)) = subComments false a ++ (ins ++ subComments false b) := by
  have hclose : ')' ∉ ins := fun hmem => (hbare _ hmem).2.2.2 rfl
  -- inside a comment of `a`, the parenthesis that closes it is still to come in `a`
  suffices hflag : ∀ inside, (inside = true → ')' ∈ a) →
      subComments inside (a ++ b) = subComments inside a ++ subComments false b →
      subComments inside (a ++ (ins ++ b)) = subComments inside a ++ (ins ++ subComments false b) by
    exact hflag false (by simp) h
  clear h
  induction a with
  | nil =>
      intro inside hinside _
      cases inside with
      | true => exact absurd (hinside rfl) (by simp)
      | false => exact subComments_append (fun c hc => (hbare c hc).1) b
  | cons c a ih =>
      intro inside hinside h
      rw [List.cons_append] at h ⊢
      cases inside with
      | true =>
          by_cases hc : c = ')'
          · rw [hc, subComments_close, subComments_close] at h ⊢
            exact ih false (by simp) h
          · have hmem := (List.mem_cons.mp (hinside rfl)).resolve_left fun heq => hc heq.symm
            rw [subComments_skip hc, subComments_skip hc] at h ⊢
            exact ih true (fun _ => hmem) h
      | false =>
          by_cases hc : c = '(' ∧ ')' ∈ a ++ b
          · obtain ⟨rfl, hb⟩ := hc
            by_cases hmem : ')' ∈ a
            · rw [subComments_open (by simp [hmem]), subComments_open hmem] at h ⊢
              exact ih true (fun _ => hmem) h
            · -- the comment would reach over the place
              rw [subComments_open hb, subComments_keep fun hboth => hmem hboth.2,
                subComments_lost hmem] at h
              have hlen := congrArg List.length h
              rw [List.cons_append, List.length_cons, List.length_append] at hlen
              have := length_subComments_inside b
              omega
          · have hins : ¬(c = '(' ∧ ')' ∈ a ++ (ins ++ b)) := by simpa [hclose] using hc
            have ha : ¬(c = '(' ∧ ')' ∈ a) := fun hboth => hc ⟨hboth.1, by simp [hboth.2]⟩
            rw [subComments_keep hc, subComments_keep ha, List.cons_append,
              List.cons_inj_right] at h
            rw [subComments_keep hins, subComments_keep ha, ih false (by simp) h]
            rfl

/-- The words of the part before the place end where they ended. -/
theorem uncomment_insert {a b : List Char} (h : Place a b) (i : Insertion) :
    uncomment (a ++ (i.render ++ b)) = uncomment a ++ (i.render ++ uncomment b) := by
  have hleft : uncomment a = subComments false a := by
    rw [uncomment, List.takeWhile_eq_self_iff]
    intro c hc
    simpa using h.semicolon c hc
  rw [hleft, uncomment, subComments_insert i.bare h.comments, List.takeWhile_append_of_pos,
    List.takeWhile_append_of_pos]
  · rfl
  · intro c hc
    simpa using (i.bare c hc).2.1
  · intro c hc
    simpa using h.semicolon c hc

/-- **The longer line has one word more**, at its place. -/
theorem lineWords_insert {a b : List Char} (h : Place a b) (i : Insertion) (hapart : i.Apart b) :
    lineWords (a ++ (i.render ++ b)) = lineWords a ++ i.word.found :: lineWords b := by
  have hfront := renderBlanks_space i.front
  have hback := renderBlanks_space i.back
  have hends : EndsNumber (renderBlanks i.back ++ upper (uncomment b)) := by
    cases hbl : i.back with
    | nil => exact hapart hbl
    | cons bl back => exact endsNumber_space bl.property.1 _
  have hupper : upper (i.render ++ uncomment b) = renderBlanks i.front
      ++ i.word.letter.upperCase :: (renderBlanks i.word.blanks ++ i.word.number.render
        ++ (renderBlanks i.back ++ upper (uncomment b))) := by
    rw [Insertion.render, upper_append, upper_append, upper_append, upper_blanks hfront,
      upper_blanks hback, upper_word]
    simp only [List.cons_append, List.append_assoc]
  have hletter := (letter_char i.word.letter).1
  rw [lineWords, uncomment_insert h i, upper_append, hupper,
    findall_append (endsWord_letter hfront hletter _), findall_blanks hfront,
    findall_word hletter (renderBlanks_space i.word.blanks) (matchNumber_render i.word.number)
      hends, findall_blanks hback]
  rfl

/-! ## Words with a meaning -/

/-- The codes of `parse_nc_file`: G0 and G1, M3, M4 and M5. -/
def HasMeaning (l : Letter) (v : ℚ) : Prop :=
  l = .G ∧ (truncZ v = (0 : ℤ) ∨ truncZ v = (1 : ℤ))
    ∨ l = .M ∧ (truncZ v = (3 : ℤ) ∨ truncZ v = (4 : ℤ) ∨ truncZ v = (5 : ℤ))

instance (l : Letter) (v : ℚ) : Decidable (HasMeaning l v) := inferInstanceAs (Decidable (_ ∨ _))

/-- A G or M word without a meaning. -/
def Idle (w : WordText) : Prop :=
  (w.letter = .G ∨ w.letter = .M) ∧ ¬HasMeaning w.letter w.number.value

/-- The dictionary of the longer line. -/
theorem dict_insert (A B : List (Char × List Char)) (w : WordText) (key : List Char) :
    dict (A ++ w.found :: B) key = (dict B key).or
      (if key = [w.letter.upperCase] then some w.number.value else dict A key) := by
  rw [dict_append, ← List.singleton_append, dict_append, dict_singleton, upper_found,
    WordText.found, float_render, Option.or_assoc]
  by_cases hkey : key = [w.letter.upperCase]
  · rw [if_pos hkey, if_pos hkey, Option.some_or]
  · rw [if_neg hkey, if_neg hkey, Option.none_or]

section Lines

variable {α : Type*}

/-- A G word without a meaning sets no mode. -/
theorem modeAfter_idle {words : Words} (h : ∀ v, words ['G'] = some v → ¬HasMeaning .G v)
    (motionMode : Option ℤ) : modeAfter words motionMode = motionMode := by
  unfold modeAfter
  split
  · next v hv => exact if_neg fun hcode => h v hv (Or.inl ⟨rfl, hcode⟩)
  · rfl

/-- An M word without a meaning leaves the laser to the S word. -/
theorem laserAfter_idle {words : Words} (h : ∀ v, words ['M'] = some v → ¬HasMeaning .M v)
    (laserCommand : ℤ) : laserAfter words laserCommand
      = (words ['S']).elim laserCommand fun v => if v > 0 then 1 else 0 := by
  unfold laserAfter
  cases words ['S'] with
  | some v => rfl
  | none =>
      dsimp only [Option.elim]
      split
      · next v hv =>
          have hcode := h v hv
          unfold HasMeaning at hcode
          rw [if_neg fun h34 => hcode (Or.inr ⟨rfl, h34.imp_right Or.inl⟩),
            if_neg fun h5 => hcode (Or.inr ⟨rfl, Or.inr (Or.inr h5)⟩)]
      · rfl

/-- An S word has the last say on the laser. -/
theorem laserAfter_S {words : Words} {v : ℚ} (h : words ['S'] = some v) (laserCommand : ℤ) :
    laserAfter words laserCommand = if v > 0 then 1 else 0 := by
  unfold laserAfter
  rw [h]

variable [RatCast α]

/-- A line acts by six of its words. -/
theorem execWords_congr (cfg : Config α) {words words' : Words} (s : ParserState α)
    (hlaser : laserAfter words' s.laserCommand = laserAfter words s.laserCommand)
    (hmode : modeAfter words' s.motionMode = modeAfter words s.motionMode)
    (hF : words' ['F'] = words ['F']) (hX : words' ['X'] = words ['X'])
    (hY : words' ['Y'] = words ['Y']) : execWords cfg words' s = execWords cfg words s := by
  unfold execWords moveTo feedAfter
  rw [hlaser, hmode, hF, hX, hY]

/-- Words of one letter that have no meaning on either line make no difference. -/
theorem execWords_idle (cfg : Config α) {l : Letter} (hl : l = .G ∨ l = .M)
    {words words' : Words} (hother : ∀ key ≠ [l.upperCase], words' key = words key)
    (h : ∀ v, words [l.upperCase] = some v → ¬HasMeaning l v)
    (h' : ∀ v, words' [l.upperCase] = some v → ¬HasMeaning l v) (s : ParserState α) :
    execWords cfg words' s = execWords cfg words s := by
  rcases hl with rfl | rfl
  · have hM := hother ['M'] (by decide)
    have hS := hother ['S'] (by decide)
    refine execWords_congr cfg s ?_ ?_ (hother _ (by decide)) (hother _ (by decide))
      (hother _ (by decide))
    · unfold laserAfter
      rw [hM, hS]
    · rw [modeAfter_idle h', modeAfter_idle h]
  · have hG := hother ['G'] (by decide)
    have hS := hother ['S'] (by decide)
    refine execWords_congr cfg s ?_ ?_ (hother _ (by decide)) (hother _ (by decide))
      (hother _ (by decide))
    · rw [laserAfter_idle h', laserAfter_idle h, hS]
    · unfold modeAfter
      rw [hG]

/-- M words make no difference beside an S word. -/
theorem execWords_S (cfg : Config α) {words words' : Words}
    (hother : ∀ key ≠ ['M'], words' key = words key) {v : ℚ} (hv : words ['S'] = some v)
    (s : ParserState α) : execWords cfg words' s = execWords cfg words s := by
  have hG := hother ['G'] (by decide)
  have hS := hother ['S'] (by decide)
  refine execWords_congr cfg s ?_ ?_ (hother _ (by decide)) (hother _ (by decide))
    (hother _ (by decide))
  · rw [laserAfter_S hv, laserAfter_S (hS.trans hv)]
  · unfold modeAfter
    rw [hG]

/-! ## Harmless insertions -/

/-- An insertion that takes the place of a word with a meaning: no word with its
letter comes after it, the last one before it has a meaning, and, for an M word,
no S word has the last say. -/
structure Shadows (a b : List Char) (w : WordText) : Prop where
  last : dict (lineWords b) [w.letter.upperCase] = none
  meaning : ∃ v, dict (lineWords a) [w.letter.upperCase] = some v ∧ HasMeaning w.letter v
  laser : w.letter = .M → dict (lineWords (a ++ b)) ['S'] = none

/-- **One line**: an idle word that shadows nothing does nothing. -/
theorem parseLine_insert (cfg : Config α) {a b : List Char} (h : Place a b) (i : Insertion)
    (hapart : i.Apart b) (hidle : Idle i.word) (hshadows : ¬Shadows a b i.word)
    (s : ParserState α) :
    parseLine cfg s (a ++ (i.render ++ b)) = parseLine cfg s (a ++ b) := by
  rw [parseLine_eq, parseLine_eq, lineWords_insert h i hapart]
  have hother : ∀ key ≠ [i.word.letter.upperCase],
      dict (lineWords a ++ i.word.found :: lineWords b) key = dict (lineWords (a ++ b)) key := by
    intro key hkey
    rw [dict_insert, if_neg hkey, h.words, dict_append]
  have hsame := dict_insert (lineWords a) (lineWords b) i.word [i.word.letter.upperCase]
  rw [if_pos rfl] at hsame
  cases hlast : dict (lineWords b) [i.word.letter.upperCase] with
  | some v =>
      -- a later word with the letter wins on both lines
      congr 1
      funext key
      by_cases hkey : key = [i.word.letter.upperCase]
      · rw [hkey, hsame, h.words, dict_append, hlast]
        rfl
      · exact hother key hkey
  | none =>
      rw [hlast, Option.none_or] at hsame
      by_cases hmeaning : ∃ v, dict (lineWords a) [i.word.letter.upperCase] = some v
          ∧ HasMeaning i.word.letter v
      · -- it shadows a word with a meaning, so an S word must be there
        have hlaser : ¬(i.word.letter = .M → dict (lineWords (a ++ b)) ['S'] = none) :=
          fun hlaser => hshadows ⟨hlast, hmeaning, hlaser⟩
        rw [Classical.not_imp] at hlaser
        obtain ⟨v, hv⟩ := Option.ne_none_iff_exists'.mp hlaser.2
        rw [hlaser.1] at hother
        exact execWords_S cfg hother hv s
      · refine execWords_idle cfg hidle.1 hother ?_ ?_ s
        · intro v hv hcode
          rw [h.words, dict_append, hlast, Option.none_or] at hv
          exact hmeaning ⟨v, hv, hcode⟩
        · intro v hv
          rw [hsame] at hv
          rw [← Option.some.inj hv]
          exact hidle.2

/-- In every accepted text with the line `a ++ b`, putting `ins` between its parts
leaves the moves as they are. -/
def Harmless (cfg : Config α) (a b ins : List Char) : Prop :=
  ∀ path text text' before after moves,
    splitlines text = before ++ (a ++ b) :: after →
    splitlines text' = before ++ (a ++ (ins ++ b)) :: after →
    parseNcFile path text cfg = .ok moves → parseNcFile path text' cfg = .ok moves

theorem harmless_of_not_shadows (cfg : Config α) {a b : List Char} (h : Place a b) (i : Insertion)
    (hapart : i.Apart b) (hidle : Idle i.word) (hshadows : ¬Shadows a b i.word) :
    Harmless cfg a b i.render := by
  intro path text text' before after moves htext htext' hmoves
  have hsame : parseLines cfg (splitlines text') = parseLines cfg (splitlines text) := by
    rw [htext, htext', parseLines, parseLines, List.foldl_append, List.foldl_append,
      List.foldl_cons, List.foldl_cons, parseLine_insert cfg h i hapart hidle hshadows]
  unfold parseNcFile at hmoves ⊢
  rw [hsame]
  exact hmoves

/-! ## Telling two lines apart -/

theorem modeAfter_code {words : Words} {v : ℚ} {m : Motion} (hG : words ['G'] = some v)
    (hv : truncZ v = m.code) (motionMode : Option ℤ) :
    modeAfter words motionMode = some m.code := by
  unfold modeAfter
  rw [hG]
  dsimp only
  rw [hv]
  cases m <;> rfl

theorem laserAfter_code {words : Words} {v : ℚ} (hM : words ['M'] = some v)
    (hS : words ['S'] = none) (hv : HasMeaning .M v) (laserCommand : ℤ) :
    laserAfter words laserCommand = if truncZ v = (5 : ℤ) then 0 else 1 := by
  unfold laserAfter
  rw [hM, hS]
  dsimp only
  obtain ⟨hG, _⟩ | ⟨_, h3 | h4 | h5⟩ := hv
  · exact absurd hG (by decide)
  · rw [h3]
    rfl
  · rw [h4]
    rfl
  · rw [h5]
    rfl

/-- A line that sets a motion mode. -/
def modeLine : Motion → List Char
  | .rapid => ['G', '0']
  | .linear => ['G', '1']

theorem parseLine_modeLine (cfg : Config α) (s : ParserState α) (m : Motion) :
    (parseLine cfg s (modeLine m)).motionMode = some m.code
      ∧ (parseLine cfg s (modeLine m)).laserCommand = s.laserCommand := by
  rw [parseLine_eq, execWords_motionMode, execWords_laserCommand]
  constructor
  · cases m with
    | rapid => exact modeAfter_code rfl (by decide +kernel : truncZ (float ['0']) = 0) _
    | linear => exact modeAfter_code rfl (by decide +kernel : truncZ (float ['1']) = 1) _
  · cases m <;> rfl

/-- A line that switches the laser. -/
def laserLine : Bool → List Char
  | true => ['M', '3']
  | false => ['M', '5']

theorem parseLine_laserLine (cfg : Config α) (s : ParserState α) (on : Bool) :
    (parseLine cfg s (laserLine on)).laserCommand = if on then 1 else 0 := by
  have h3 : truncZ (float ['3']) = 3 := by decide +kernel
  have h5 : truncZ (float ['5']) = 5 := by decide +kernel
  rw [parseLine_eq, execWords_laserCommand]
  cases on with
  | true =>
      rw [laserAfter_code (v := float ['3']) rfl rfl (Or.inr ⟨rfl, Or.inl h3⟩), h3]
      rfl
  | false =>
      rw [laserAfter_code (v := float ['5']) rfl rfl (Or.inr ⟨rfl, Or.inr (Or.inr h5)⟩), h5]
      rfl

/-- Two moves along x. -/
def probe : List (List Char) := [['X', '1'], ['X', '2']]

/-- What a move shows of the modal state, -/
def LinearMove.modal (move : LinearMove α) : Bool × ℤ := (move.rapid, move.laserCommand)

/-- and what it shows in mode `m`. -/
def Motion.modal (m : Motion) (laserCommand : ℤ) : Bool × ℤ :=
  match m with
  | .rapid => (true, 0)
  | .linear => (false, laserCommand)

/-- A line of an X word only. -/
theorem parseLine_X (cfg : Config α) {t : ParserState α} {m : Motion} {line digits : List Char}
    (hline : lineWords line = [('X', digits)]) (hmode : t.motionMode = some m.code) :
    (parseLine cfg t line).motionMode = some m.code
      ∧ (parseLine cfg t line).laserCommand = t.laserCommand
      ∧ (parseLine cfg t line).x = float digits
      ∧ (float digits ≠ t.x → (parseLine cfg t line).moves.getLast?.map LinearMove.modal
        = some (m.modal t.laserCommand)) := by
  have hX : dict [('X', digits)] ['X'] = some (float digits) := rfl
  have hY : dict [('X', digits)] ['Y'] = none := rfl
  have hexec : execWords cfg (dict [('X', digits)]) t = moveTo cfg (dict [('X', digits)]) t := rfl
  rw [parseLine_eq, hline, hexec, moveTo_motion cfg hmode (by simp [hX]), hX, hY]
  refine ⟨hmode, rfl, rfl, ?_⟩
  intro hne
  dsimp only
  rw [if_neg (by simpa using hne), List.getLast?_concat]
  cases m <;> rfl

/-- The last move shows the mode and the laser. -/
theorem probe_last (cfg : Config α) {t : ParserState α} {m : Motion}
    (hmode : t.motionMode = some m.code) :
    (probe.foldl (parseLine cfg) t).moves.getLast?.map LinearMove.modal
      = some (m.modal t.laserCommand) := by
  obtain ⟨hmode1, hlaser1, hx1, -⟩ :=
    parseLine_X cfg (t := t) (by decide : lineWords ['X', '1'] = [('X', ['1'])]) hmode
  obtain ⟨-, -, -, hmove⟩ :=
    parseLine_X cfg (by decide : lineWords ['X', '2'] = [('X', ['2'])]) hmode1
  rw [hlaser1, hx1] at hmove
  exact hmove (by decide +kernel)

/-- In the text of these lines. -/
theorem Harmless.moves_eq {cfg : Config α} {a b ins : List Char} (h : Harmless cfg a b ins)
    (before after : List (List Char))
    (hlines : ∀ line ∈ before ++ (a ++ b) :: after, ∀ c ∈ line, isLineBreak c = false)
    (hins : ∀ c ∈ ins, isLineBreak c = false)
    (hne : (parseLines cfg (before ++ (a ++ b) :: after)).moves ≠ []) :
    (parseLines cfg (before ++ (a ++ (ins ++ b)) :: after)).moves
      = (parseLines cfg (before ++ (a ++ b) :: after)).moves := by
  have hlines' : ∀ line ∈ before ++ (a ++ (ins ++ b)) :: after,
      ∀ c ∈ line, isLineBreak c = false := by
    intro line hline c hc
    rcases List.mem_append.mp hline with hline | hline
    · exact hlines line (by simp [hline]) c hc
    · rcases List.mem_cons.mp hline with rfl | hline
      · have hab := hlines (a ++ b) (by simp) c
        simp only [List.mem_append] at hab hc
        rcases hc with hc | hc | hc
        · exact hab (Or.inl hc)
        · exact hins c hc
        · exact hab (Or.inr hc)
      · exact hlines line (by simp [hline]) c hc
  have hparse := h "" _ _ before after _ (splitlines_lines hlines) (splitlines_lines hlines')
    (by
      unfold parseNcFile
      rw [splitlines_lines hlines]
      exact if_neg (by simpa using hne))
  unfold parseNcFile at hparse
  rw [splitlines_lines hlines'] at hparse
  dsimp only at hparse
  split at hparse
  · cases hparse
  · exact Except.ok.inj hparse

/-- After the lines `before` and a line that sets the mode, the probe cannot tell
the two lines apart. -/
theorem Harmless.modal_eq {cfg : Config α} {a b : List Char} (hplace : Place a b) {i : Insertion}
    (h : Harmless cfg a b i.render) (before after : List (List Char))
    (hbefore : ∀ line ∈ before ++ after, ∀ c ∈ line, isLineBreak c = false) (m m' : Motion) :
    let s := before.foldl (parseLine cfg) (.start cfg)
    let t := after.foldl (parseLine cfg) (parseLine cfg s (a ++ b))
    let t' := after.foldl (parseLine cfg) (parseLine cfg s (a ++ (i.render ++ b)))
    t.motionMode = some m.code → t'.motionMode = some m'.code →
    m.modal t.laserCommand = m'.modal t'.laserCommand := by
  intro s t t' hmode hmode'
  have hrun : ∀ line, (parseLines cfg (before ++ line :: (after ++ probe)))
      = probe.foldl (parseLine cfg) (after.foldl (parseLine cfg) (parseLine cfg s line)) := by
    intro line
    rw [parseLines, List.foldl_append, List.foldl_cons, List.foldl_append]
  have hlast := probe_last cfg hmode
  have hlast' := probe_last cfg hmode'
  have heq := h.moves_eq before (after ++ probe) ?_
    (fun c hc => (i.bare c hc).2.2.1) ?_
  · rw [hrun, hrun] at heq
    rw [heq, hlast] at hlast'
    exact Option.some.inj hlast'
  · intro line hline
    simp only [List.mem_append, List.mem_cons] at hline hbefore
    rcases hline with hline | rfl | hline | hline
    · exact hbefore line (Or.inl hline)
    · exact hplace.lineBreak
    · exact hbefore line (Or.inr hline)
    · exact (by decide : ∀ line ∈ probe, ∀ c ∈ line, isLineBreak c = false) line hline
  · rw [hrun]
    intro hnil
    rw [hnil] at hlast
    cases hlast

/-- A line that sets a mode is told from one that keeps it after a line that sets
another mode. -/
theorem not_harmless_of_mode (cfg : Config α) {a b : List Char} (h : Place a b) (i : Insertion)
    {m m' : Motion} (hne : m ≠ m')
    (hsets : ∀ mode, modeAfter (dict (lineWords (a ++ b))) mode = some m.code)
    (hkeeps : ∀ mode, modeAfter (dict (lineWords (a ++ (i.render ++ b)))) mode = mode) :
    ¬Harmless cfg a b i.render := by
  intro hharmless
  have heq := hharmless.modal_eq h [modeLine m'] [] (by cases m' <;> decide) m m' ?_ ?_
  · cases m <;> cases m' <;> simp [Motion.modal] at heq hne
  · rw [List.foldl_nil, parseLine_eq, execWords_motionMode]
    exact hsets _
  · rw [List.foldl_nil, parseLine_eq, execWords_motionMode, hkeeps]
    exact (parseLine_modeLine cfg _ m').1

/-- A line that switches the laser is told from one that leaves it after a line
that switches it the other way. -/
theorem not_harmless_of_laser (cfg : Config α) {a b : List Char} (h : Place a b) (i : Insertion)
    {on : Bool} (hsets : ∀ l, laserAfter (dict (lineWords (a ++ b))) l = if on then 1 else 0)
    (hkeeps : ∀ l, laserAfter (dict (lineWords (a ++ (i.render ++ b)))) l = l) :
    ¬Harmless cfg a b i.render := by
  intro hharmless
  have hbreak : ∀ on, ∀ line ∈ [laserLine on] ++ [modeLine .linear], ∀ c ∈ line,
      isLineBreak c = false := by decide
  -- the laser only shows in G1, which the next line sets
  have heq := hharmless.modal_eq h [laserLine !on] [modeLine .linear] (hbreak _) .linear .linear
    ?_ ?_
  · simp only [List.foldl_cons, List.foldl_nil] at heq
    rw [(parseLine_modeLine cfg _ _).2, (parseLine_modeLine cfg _ _).2, parseLine_eq cfg _ (a ++ b),
      parseLine_eq cfg _ (a ++ (i.render ++ b)), execWords_laserCommand, execWords_laserCommand,
      hsets, hkeeps, parseLine_laserLine] at heq
    cases on <;> simp [Motion.modal] at heq
  · rw [List.foldl_cons, List.foldl_nil]
    exact (parseLine_modeLine cfg _ _).1
  · rw [List.foldl_cons, List.foldl_nil]
    exact (parseLine_modeLine cfg _ _).1

/-- **A shadowing word shows** in some text. -/
theorem not_harmless_of_shadows (cfg : Config α) {a b : List Char} (h : Place a b) (i : Insertion)
    (hapart : i.Apart b) (hidle : Idle i.word) (hshadows : Shadows a b i.word) :
    ¬Harmless cfg a b i.render := by
  obtain ⟨v, hv, hmeaning⟩ := hshadows.meaning
  have hline : dict (lineWords (a ++ b)) [i.word.letter.upperCase] = some v := by
    rw [h.words, dict_append, hshadows.last, Option.none_or, hv]
  have hline' : ∀ u, dict (lineWords (a ++ (i.render ++ b))) [i.word.letter.upperCase] = some u →
      ¬HasMeaning i.word.letter u := by
    intro u hu
    rw [lineWords_insert h i hapart, dict_insert, hshadows.last, Option.none_or, if_pos rfl] at hu
    rw [← Option.some.inj hu]
    exact hidle.2
  rcases hidle.1 with hletter | hletter
  · rw [hletter] at hmeaning hline hline'
    obtain ⟨m, m', hne, hcode⟩ : ∃ m m' : Motion, m ≠ m' ∧ truncZ v = m.code := by
      obtain ⟨_, h0 | h1⟩ | ⟨hM, _⟩ := hmeaning
      · exact ⟨.rapid, .linear, by decide, h0⟩
      · exact ⟨.linear, .rapid, by decide, h1⟩
      · exact absurd hM (by decide)
    exact not_harmless_of_mode cfg h i hne (modeAfter_code hline hcode) (modeAfter_idle hline')
  · have hS := hshadows.laser hletter
    have hS' : dict (lineWords (a ++ (i.render ++ b))) ['S'] = none := by
      rw [lineWords_insert h i hapart, dict_insert, if_neg (by rw [hletter]; decide),
        ← dict_append, ← h.words, hS]
    rw [hletter] at hmeaning hline hline'
    have hsets : ∀ l, laserAfter (dict (lineWords (a ++ b))) l
        = if !decide (truncZ v = (5 : ℤ)) then 1 else 0 := by
      intro l
      rw [laserAfter_code hline hS hmeaning]
      by_cases h5 : truncZ v = (5 : ℤ) <;> simp [h5]
    refine not_harmless_of_laser cfg h i hsets ?_
    intro l
    rw [laserAfter_idle hline', hS']
    rfl

/-- **An idle word is harmless exactly where it shadows nothing.** -/
theorem harmless_iff (cfg : Config α) (a b : List Char) (h : Place a b) (i : Insertion)
    (hapart : i.Apart b) (hidle : Idle i.word) :
    Harmless cfg a b i.render ↔ ¬Shadows a b i.word :=
  ⟨fun hharmless hshadows => not_harmless_of_shadows cfg h i hapart hidle hshadows hharmless,
    harmless_of_not_shadows cfg h i hapart hidle⟩

end Lines

/-- `M9` behind a blank. -/
def coolantOff : Insertion :=
  ⟨[.space], ⟨.M, false, [], ⟨.none, .whole [⟨9, by decide⟩] (by decide)⟩⟩, []⟩

/-- Behind `G1` it is harmless, -/
theorem harmless_coolantOff : Harmless (Config.defaults ℚ) ['G', '1'] [] coolantOff.render :=
  (harmless_iff (Config.defaults ℚ) ['G', '1'] [] ⟨by decide, by decide, by decide, by decide⟩
    coolantOff (fun _ => endsNumber_nil) ⟨Or.inr rfl, by decide +kernel⟩).mpr fun h => by
      obtain ⟨v, hv, _⟩ := h.meaning
      cases hv

/-- behind `M5` it leaves the laser on. -/
theorem not_harmless_coolantOff : Place ['M', '5'] [] ∧ coolantOff.Apart []
    ∧ Idle coolantOff.word ∧ ¬Harmless (Config.defaults ℚ) ['M', '5'] [] coolantOff.render := by
  refine ⟨⟨by decide, by decide, by decide, by decide⟩, fun _ => endsNumber_nil,
    ⟨Or.inr rfl, by decide +kernel⟩, ?_⟩
  intro h
  have hbefore : parseNcFile "part.nc" "G1 M3 X1\nM5\nX2".toList (Config.defaults ℚ)
      = .ok [⟨0, 0, 1, 0, 65, 1, false⟩, ⟨1, 0, 2, 0, 65, 0, false⟩] := by decide +kernel
  have hafter : parseNcFile "part.nc" "G1 M3 X1\nM5 M9\nX2".toList (Config.defaults ℚ)
      = .ok [⟨0, 0, 1, 0, 65, 1, false⟩, ⟨1, 0, 2, 0, 65, 1, false⟩] := by decide +kernel
  have hsame := h "part.nc" "G1 M3 X1\nM5\nX2".toList "G1 M3 X1\nM5 M9\nX2".toList
    ["G1 M3 X1".toList] ["X2".toList] _ (by decide) (by decide) hbefore
  rw [hafter] at hsame
  exact absurd hsame (by decide +kernel)

end GalvoCtrl.Nc
