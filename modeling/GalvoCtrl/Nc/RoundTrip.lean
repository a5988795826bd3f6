import GalvoCtrl.Nc.Spelling
import GalvoCtrl.Nc.Trace

/-!
# Nc — RoundTrip

The parser inverts writing down: on any text of a program it returns the moves
the program means. Lines are cut where they were written, their words are looked
up by letter, and the parser's variables simulate the modal machine.
-/

namespace GalvoCtrl.Nc

open GalvoCtrl.Lib GalvoCtrl.Split

/-! ## Cutting a text into lines -/

theorem splitlines_cons {c : Char} (h : isLineBreak c = false) (s : List Char) :
    splitlines (c :: s) = match splitlines s with
      | [] => [[c]]
      | line :: lines => (c :: line) :: lines := by
  rw [splitlines]
  · exact if_neg (by simp [h])
  · rintro s' rfl
    exact absurd h (by decide)

theorem splitlines_newline (s : List Char) : splitlines ('\n' :: s) = [] :: splitlines s := by
  rw [splitlines]
  · exact if_pos (by decide)
  · intro s' h
    exact absurd h (by decide)

/-- A line in front of a line feed is cut off as it is. -/
theorem splitlines_line {t : List Char} (h : ∀ c ∈ t, isLineBreak c = false) (s : List Char) :
    splitlines (t ++ '\n' :: s) = t :: splitlines s := by
  induction t with
  | nil => exact splitlines_newline s
  | cons c t ih =>
      rw [List.cons_append, splitlines_cons (h c (by simp)), ih fun d hd => h d (by simp [hd])]

/-- Lines that end in line feeds are cut off as they are. -/
theorem splitlines_lines {lines : List (List Char)}
    (h : ∀ t ∈ lines, ∀ c ∈ t, isLineBreak c = false) :
    splitlines (lines.flatMap (· ++ ['\n'])) = lines := by
  induction lines with
  | nil => rfl
  | cons t lines ih =>
      rw [List.flatMap_cons, List.append_assoc, List.singleton_append,
        splitlines_line (h t (by simp)), ih fun u hu => h u (by simp [hu])]

theorem splitlines_last {t : List Char} (h : ∀ c ∈ t, isLineBreak c = false) :
    splitlines t = if t.isEmpty then [] else [t] := by
  induction t with
  | nil => rfl
  | cons c t ih =>
      rw [splitlines_cons (h c (by simp)), ih fun d hd => h d (by simp [hd])]
      cases t <;> rfl

private theorem lineBreak_gap (g : Gap) : ∀ c ∈ Gap.render g, isLineBreak c = false := by
  intro c hc
  obtain ⟨item, _, hmem⟩ := List.mem_flatMap.mp hc
  cases item with
  | blank b =>
      obtain rfl := List.mem_singleton.mp hmem
      exact b.property.2
  | comment t =>
      exact List.forall_mem_cons.mpr ⟨by decide, List.forall_mem_append.mpr
        ⟨fun d hd => (t.property d hd).2.2, by decide⟩⟩ c hmem

private theorem lineBreak_tail (l : LineText) : ∀ c ∈ l.renderTail, isLineBreak c = false := by
  unfold LineText.renderTail
  cases l.tail with
  | none => simp
  | some t => exact List.forall_mem_cons.mpr ⟨by decide, t.property⟩

/-- Written lines have no line end inside. -/
theorem lineBreak_render (l : LineText) : ∀ c ∈ l.render, isLineBreak c = false := by
  refine List.forall_mem_append.mpr
    ⟨?_, List.forall_mem_append.mpr ⟨lineBreak_gap l.gap, lineBreak_tail l⟩⟩
  intro c hc
  obtain ⟨gw, _, hmem⟩ := List.mem_flatMap.mp hc
  rcases List.mem_append.mp hmem with hmem | hmem
  · exact lineBreak_gap gw.1 c hmem
  · exact (word_bare gw.2 c hmem).2.2.1

/-! ## Looking words up -/

private theorem upperCase_injective : Function.Injective Letter.upperCase := by
  intro a b h
  revert a b
  decide

theorem upper_found (w : WordText) : upper [w.found.1] = [w.letter.upperCase] := by
  rw [upper, List.flatMap_cons, WordText.found, (letter_char w.letter).2.1]
  rfl

/-- With distinct letters, the last word with a letter is the only one. -/
theorem dict_found {ws : List WordText} (h : (ws.map WordText.letter).Nodup) (l : Letter) :
    dict (ws.map WordText.found) [l.upperCase] = (ws.map WordText.word).lookup l := by
  induction ws with
  | nil => rfl
  | cons w ws ih =>
      rw [List.map_cons, List.nodup_cons] at h
      rw [List.map_cons, List.map_cons, ← List.singleton_append, dict_append, ih h.2,
        dict_singleton, upper_found, WordText.word, List.lookup_cons]
      by_cases hl : l = w.letter
      · -- no later word has this letter
        have hnone : (ws.map WordText.word).lookup l = none := by
          rw [List.lookup_eq_none_iff]
          intro p hp
          obtain ⟨v, hv, rfl⟩ := List.mem_map.mp hp
          rw [bne_iff_ne]
          intro heq
          exact h.1 (List.mem_map.mpr ⟨v, hv, by rw [← hl, heq]; rfl⟩)
        rw [hnone, if_pos (by rw [hl]), beq_iff_eq.mpr hl]
        exact congrArg some (float_render w.number)
      · rw [if_neg (by simpa using fun heq => hl (upperCase_injective heq)),
          beq_eq_false_iff_ne.mpr hl, Option.or_none]

/-! ## One line -/

section Simulation

variable {α : Type*}

/-- The parser's variables hold the modal state. -/
structure Tracks (s : Modal α) (t : ParserState α) : Prop where
  x : t.x = s.x
  y : t.y = s.y
  feed : t.feed = s.feed
  motion : t.motionMode = s.motion.map Motion.code
  laser : t.laserCommand = if s.laser then 1 else 0

theorem tracks_start (cfg : Config α) : Tracks (Modal.start cfg) (ParserState.start cfg) :=
  ⟨rfl, rfl, rfl, rfl, rfl⟩

variable {words : Words} {line : Line}

theorem moveTo_tracks (cfg : Config α) {s : Modal α} {t : ParserState α} (h : Tracks s t)
    (hwords : ∀ l : Letter, words [l.upperCase] = line.value? l) :
    Tracks (s.move cfg line).1 (moveTo cfg words t)
      ∧ (moveTo cfg words t).moves = t.moves ++ (s.move cfg line).2 := by
  have hX : words ['X'] = line.value? .X := hwords .X
  have hY : words ['Y'] = line.value? .Y := hwords .Y
  unfold Modal.move
  split
  · next hmotion =>
      rw [moveTo_idle cfg (by simp [h.motion, hmotion])]
      exact ⟨h, (List.append_nil _).symm⟩
  · next motion hmotion =>
      have hmode : t.motionMode = some motion.code := by rw [h.motion, hmotion]; rfl
      by_cases hxy : line.value? .X = none ∧ line.value? .Y = none
      · rw [if_pos hxy, moveTo_idle cfg (by simp [hX, hY, hxy])]
        exact ⟨h, (List.append_nil _).symm⟩
      · have hsome : (words ['X']).isSome ∨ (words ['Y']).isSome := by
          rw [hX, hY, Option.isSome_iff_ne_none, Option.isSome_iff_ne_none]
          exact not_and_or.mp hxy
        rw [if_neg hxy, moveTo_motion cfg hmode hsome, hX, hY, h.x, h.y]
        refine ⟨⟨rfl, rfl, h.feed, h.motion, h.laser⟩, ?_⟩
        cases motion <;> simp only [ParserState.move, h.x, h.y, h.feed, h.laser]

variable [RatCast α]

theorem laserAfter_tracks {s : Modal α} {t : ParserState α} (h : Tracks s t)
    (hwords : ∀ l : Letter, words [l.upperCase] = line.value? l) :
    laserAfter words t.laserCommand = if (s.set line).laser then 1 else 0 := by
  have hM : words ['M'] = line.value? .M := hwords .M
  have hS : words ['S'] = line.value? .S := hwords .S
  rw [h.laser, laserAfter_ite, laserStep, hM, hS]
  rfl

theorem feedAfter_tracks {s : Modal α} {t : ParserState α} (h : Tracks s t)
    (hwords : ∀ l : Letter, words [l.upperCase] = line.value? l) :
    feedAfter words t.feed = (s.set line).feed := by
  have hF : words ['F'] = line.value? .F := hwords .F
  unfold feedAfter Modal.set
  rw [hF, h.feed]
  cases line.value? .F <;> rfl

theorem modeAfter_tracks {s : Modal α} {t : ParserState α} (h : Tracks s t)
    (hwords : ∀ l : Letter, words [l.upperCase] = line.value? l) :
    modeAfter words t.motionMode = (s.set line).motion.map Motion.code := by
  have hG : words ['G'] = line.value? .G := hwords .G
  rw [h.motion, modeAfter_map, motionStep, hG]
  rfl

/-- **One line**: the parser does what the modal machine does. -/
theorem execWords_tracks (cfg : Config α) {s : Modal α} {t : ParserState α} (h : Tracks s t)
    (hwords : ∀ l : Letter, words [l.upperCase] = line.value? l) :
    Tracks ((s.set line).move cfg line).1 (execWords cfg words t)
      ∧ (execWords cfg words t).moves = t.moves ++ ((s.set line).move cfg line).2 :=
  moveTo_tracks cfg
    ⟨h.x, h.y, feedAfter_tracks h hwords, modeAfter_tracks h hwords, laserAfter_tracks h hwords⟩
    hwords

/-! ## Whole texts -/

/-- A written line acts as the line it spells. -/
theorem parseLine_render (cfg : Config α) {s : Modal α} {t : ParserState α} (h : Tracks s t)
    (l : LineText) (hdistinct : (l.line.map Prod.fst).Nodup) :
    Tracks ((s.set l.line).move cfg l.line).1 (parseLine cfg t l.render)
      ∧ (parseLine cfg t l.render).moves = t.moves ++ ((s.set l.line).move cfg l.line).2 := by
  have hwords : lineWords l.render = (l.words.map Prod.snd).map WordText.found := by
    rw [lineWords_render, List.map_map]
    rfl
  have hline : l.line = (l.words.map Prod.snd).map WordText.word := by
    rw [List.map_map]
    rfl
  rw [parseLine_eq, hwords]
  refine execWords_tracks cfg h ?_
  intro letter
  rw [dict_found, hline]
  · rfl
  · rw [hline, List.map_map] at hdistinct
    exact hdistinct

/-- A line without words does nothing. -/
theorem parseLine_blank (cfg : Config α) (t : ParserState α) {l : LineText}
    (h : l.words = []) : parseLine cfg t l.render = t := by
  rw [parseLine_eq, lineWords_render, h]
  exact execWords_none cfg t

theorem parseLine_nil (cfg : Config α) (t : ParserState α) : parseLine cfg t [] = t := rfl

/-- The last line, with no line end behind it. -/
theorem foldl_splitlines_render (cfg : Config α) (t : ParserState α) (l : LineText) :
    (splitlines l.render).foldl (parseLine cfg) t = parseLine cfg t l.render := by
  rw [splitlines_last (lineBreak_render l)]
  by_cases hempty : l.render.isEmpty = true
  · rw [if_pos hempty, List.isEmpty_iff.mp hempty]
    exact (parseLine_nil cfg t).symm
  · rw [if_neg hempty]
    rfl

/-- **Any text of a program**, from any state the parser and the machine share. -/
theorem foldl_renders (cfg : Config α) {program : Program} {text : List Char}
    (hrender : Renders program text) (hdistinct : ∀ line ∈ program, (line.map Prod.fst).Nodup)
    {s : Modal α} {t : ParserState α} (h : Tracks s t) :
    ((splitlines text).foldl (parseLine cfg) t).moves = t.moves ++ s.run cfg program := by
  induction hrender generalizing s t with
  | nil => exact (List.append_nil _).symm
  | last l =>
      rw [foldl_splitlines_render, (parseLine_render cfg h l (hdistinct _ (by simp))).2]
      simp only [Modal.run, List.append_nil]
  | line l _ ih =>
      obtain ⟨htracks, hmoves⟩ := parseLine_render cfg h l (hdistinct _ (by simp))
      rw [splitlines_line (lineBreak_render l), List.foldl_cons,
        ih (fun line hline => hdistinct line (by simp [hline])) htracks, hmoves,
        List.append_assoc]
      rfl
  | blank l hblank _ ih =>
      -- comments and blanks only: the variables stay
      rw [splitlines_line (lineBreak_render l), List.foldl_cons, parseLine_blank cfg t hblank]
      exact ih hdistinct h
  | lastBlank l hblank =>
      rw [foldl_splitlines_render, parseLine_blank cfg t hblank]
      exact (List.append_nil _).symm

/-- **The parser inverts rendering**: from every text of a program with distinct
letters on each line it returns the moves the program means, and its error if
there are none. -/
theorem parseNcFile_renders (path : String) (cfg : Config α) (program : Program)
    (text : List Char) (hdistinct : ∀ line ∈ program, (line.map Prod.fst).Nodup)
    (hrender : Renders program text) :
    parseNcFile path text cfg = match meaning cfg program with
      | [] => .error ("No G0/G1 XY moves found in NC file: " ++ path)
      | moves => .ok moves := by
  have hmoves : (parseLines cfg (splitlines text)).moves = meaning cfg program :=
    foldl_renders cfg hrender hdistinct (tracks_start cfg)
  unfold parseNcFile
  dsimp only
  rw [hmoves]
  cases meaning cfg program <;> rfl

end Simulation

/-- `g 1(M3;)X-.5;end`: lower case, a blank before a number, a comment that looks
like words, a leading point, a tail. -/
def halfLine : LineText where
  words :=
    [([], ⟨.G, true, [.space], .none, .whole [1] (by decide)⟩),
      ([.comment ⟨['M', '3', ';'], by decide⟩], ⟨.X, false, [], .minus, .point [5] (by decide)⟩)]
  gap := []
  tail := some ⟨['e', 'n', 'd'], by decide⟩

theorem parseNcFile_renders_half :
    parseNcFile "part.nc" "g 1(M3;)X-.5;end".toList (Config.defaults ℚ)
      = .ok [⟨0, 0, -1 / 2, 0, 65, 0, false⟩] := by
  have hmeaning : meaning (Config.defaults ℚ) [halfLine.line]
      = [⟨0, 0, -1 / 2, 0, 65, 0, false⟩] := by decide +kernel
  have hparse := parseNcFile_renders "part.nc" (Config.defaults ℚ) [halfLine.line]
    halfLine.render (by decide) (Renders.last halfLine)
  rw [hmeaning] at hparse
  exact hparse

end GalvoCtrl.Nc
