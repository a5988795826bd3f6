import Mathlib.Data.List.Chain
import GalvoCtrl.Nc.Reference
import GalvoCtrl.Nc.Words

/-!
# Nc — Trace

What one line can do to the variables of `parse_nc_file`, and from it which line
a move comes from and what the modal state is there: mode and laser are folds of
the lines up to and including that one.
-/

namespace GalvoCtrl.Nc

open GalvoCtrl.Lib GalvoCtrl.Split

/-! ## Modal words -/

/-- M3 and M4 on, M5 off, then an S word. -/
def laserStep (words : Words) (on : Bool) : Bool :=
  (words ['S']).elim ((words ['M']).elim on fun m => laserCode (truncZ m) on)
    fun v => decide (0 < v)

/-- G0 and G1. -/
def motionStep (words : Words) (motion : Option Motion) : Option Motion :=
  (words ['G']).elim motion fun g => motionCode (truncZ g) motion

theorem laserAfter_ite (words : Words) (on : Bool) :
    laserAfter words (if on then 1 else 0) = if laserStep words on then 1 else 0 := by
  have hcode : ∀ m : ℤ,
      (if m = 3 ∨ m = 4 then 1 else if m = 5 then 0 else if on then 1 else 0)
        = (if laserCode m on then 1 else 0 : ℤ) := by
    intro m
    by_cases h3 : m = 3
    · rw [h3]
      rfl
    by_cases h4 : m = 4
    · rw [h4]
      rfl
    by_cases h5 : m = 5
    · rw [h5]
      rfl
    rw [if_neg (by simp [h3, h4]), if_neg h5, laserCode]
    · exact h3
    · exact h4
    · exact h5
  unfold laserAfter laserStep
  cases words ['S'] with
  | some v => simp
  | none =>
      cases words ['M'] with
      | none => rfl
      | some m => exact hcode (truncZ m)

theorem modeAfter_map (words : Words) (motion : Option Motion) :
    modeAfter words (motion.map Motion.code) = (motionStep words motion).map Motion.code := by
  unfold modeAfter motionStep
  cases words ['G'] with
  | none => rfl
  | some g =>
      show (if truncZ g = 0 ∨ truncZ g = 1 then some (truncZ g) else motion.map Motion.code)
        = (motionCode (truncZ g) motion).map Motion.code
      by_cases h0 : truncZ g = 0
      · rw [h0]
        rfl
      by_cases h1 : truncZ g = 1
      · rw [h1]
        rfl
      rw [if_neg (by simp [h0, h1]), motionCode]
      · exact h0
      · exact h1

/-! ## Motion -/

section Motion

variable {α : Type*}

/-- A move has a length if it leaves its point. -/
theorem hypot_sub_pos (x y x' y' : ℚ) :
    0 < hypot (x' - x : ℚ) (y' - y : ℚ) ↔ ¬(x', y') = (x, y) := by
  rw [hypot_pos_iff, Rat.cast_ne_zero, Rat.cast_ne_zero, sub_ne_zero, sub_ne_zero,
    Prod.mk.injEq, not_and_or]

/-- The move to `(x, y)` in a mode. -/
def ParserState.move (cfg : Config α) (t : ParserState α) (x y : ℚ) : Motion → LinearMove α
  | .rapid => ⟨t.x, t.y, x, y, cfg.axisVmax, 0, true⟩
  | .linear => ⟨t.x, t.y, x, y, t.feed, t.laserCommand, false⟩

/-- Without a motion mode or without X and Y nothing moves. -/
theorem moveTo_idle (cfg : Config α) {words : Words} {t : ParserState α}
    (h : ¬((t.motionMode = some 0 ∨ t.motionMode = some 1)
      ∧ ((words ['X']).isSome ∨ (words ['Y']).isSome))) : moveTo cfg words t = t := if_neg h

/-- In a motion mode the parser moves to the new point. -/
theorem moveTo_motion (cfg : Config α) {words : Words} {t : ParserState α} {motion : Motion}
    (hmode : t.motionMode = some motion.code)
    (hxy : (words ['X']).isSome ∨ (words ['Y']).isSome) :
    moveTo cfg words t =
      let x := (words ['X']).getD t.x
      let y := (words ['Y']).getD t.y
      { t with
        x := x
        y := y
        moves := t.moves ++ if (x, y) = (t.x, t.y) then [] else [t.move cfg x y motion] } := by
  have hcode : t.motionMode = some 0 ∨ t.motionMode = some 1 := by
    rw [hmode]
    cases motion
    · exact Or.inl rfl
    · exact Or.inr rfl
  unfold moveTo
  rw [if_pos ⟨hcode, hxy⟩]
  dsimp only
  simp only [hypot_sub_pos, ite_not, hmode]
  congr 1
  split
  · exact (List.append_nil _).symm
  · cases motion <;> rfl

end Motion

section Lines

variable {α : Type*} [RatCast α]

/-! ## One line -/

theorem execWords_motionMode (cfg : Config α) (words : Words) (s : ParserState α) :
    (execWords cfg words s).motionMode = modeAfter words s.motionMode := by
  unfold execWords moveTo
  split <;> rfl

theorem execWords_laserCommand (cfg : Config α) (words : Words) (s : ParserState α) :
    (execWords cfg words s).laserCommand = laserAfter words s.laserCommand := by
  unfold execWords moveTo
  split <;> rfl

/-- A line that adds a move: to another point, in the mode and with the feed and
the laser that the line leaves behind. -/
structure Adds (cfg : Config α) (s t : ParserState α) (move : LinearMove α) : Prop where
  moves : t.moves = s.moves ++ [move]
  leaves : ¬(t.x, t.y) = (s.x, s.y)
  motion : ∃ m : Motion, t.motionMode = some m.code
    ∧ move = ({ t with x := s.x, y := s.y }).move cfg t.x t.y m

/-- **What a line can do**: nothing to point and moves, or add one move. -/
theorem execWords_cases (cfg : Config α) (words : Words) (s : ParserState α) :
    ((execWords cfg words s).moves = s.moves
        ∧ ((execWords cfg words s).x, (execWords cfg words s).y) = (s.x, s.y))
      ∨ ∃ move, Adds cfg s (execWords cfg words s) move := by
  unfold execWords
  by_cases hmove : (modeAfter words s.motionMode = some 0 ∨ modeAfter words s.motionMode = some 1)
      ∧ ((words ['X']).isSome ∨ (words ['Y']).isSome)
  · obtain ⟨m, hm⟩ : ∃ m : Motion, modeAfter words s.motionMode = some m.code := by
      rcases hmove.1 with h | h
      · exact ⟨.rapid, h⟩
      · exact ⟨.linear, h⟩
    rw [moveTo_motion cfg hm hmove.2]
    dsimp only
    split
    · next heq => exact Or.inl ⟨List.append_nil _, heq⟩
    · next hne => exact Or.inr ⟨_, rfl, hne, m, hm, rfl⟩
  · rw [moveTo_idle cfg hmove]
    exact Or.inl ⟨rfl, rfl⟩

/-! ## The lines up to a move -/

/-- The lines the loop does not skip, as `parse_words` gets them. -/
def codeLines (text : List Char) : List (List Char) :=
  ((splitlines text).map fun rawLine => upper (stripGcodeComments rawLine)).filter (!·.isEmpty)

/-- The variables after these lines. -/
def runLines (cfg : Config α) (lines : List (List Char)) : ParserState α :=
  lines.foldl (fun s line => execWords cfg (parseWords line) s) (.start cfg)

theorem parseLines_eq (cfg : Config α) (text : List Char) :
    parseLines cfg (splitlines text) = runLines cfg (codeLines text) := by
  rw [parseLines, runLines, codeLines, List.foldl_filter, List.foldl_map]
  congr 1
  funext s rawLine
  unfold parseLine
  dsimp only
  cases (upper (stripGcodeComments rawLine)).isEmpty <;> rfl

theorem runLines_concat (cfg : Config α) (lines : List (List Char)) (line : List Char) :
    runLines cfg (lines ++ [line]) = execWords cfg (parseWords line) (runLines cfg lines) := by
  rw [runLines, List.foldl_append]
  rfl

/-- The laser after these lines. -/
def laserTrace (lines : List (List Char)) : Bool :=
  lines.foldl (fun on line => laserStep (parseWords line) on) false

/-- The motion mode after these lines. -/
def motionTrace (lines : List (List Char)) : Option Motion :=
  lines.foldl (fun motion line => motionStep (parseWords line) motion) none

theorem runLines_laserCommand (cfg : Config α) (lines : List (List Char)) :
    (runLines cfg lines).laserCommand = if laserTrace lines then 1 else 0 := by
  induction lines using List.reverseRecOn with
  | nil => rfl
  | append_singleton lines line ih =>
      rw [runLines_concat, execWords_laserCommand, ih, laserAfter_ite, laserTrace, laserTrace,
        List.foldl_append]
      rfl

theorem runLines_motionMode (cfg : Config α) (lines : List (List Char)) :
    (runLines cfg lines).motionMode = (motionTrace lines).map Motion.code := by
  induction lines using List.reverseRecOn with
  | nil => rfl
  | append_singleton lines line ih =>
      rw [runLines_concat, execWords_motionMode, ih, modeAfter_map, motionTrace, motionTrace,
        List.foldl_append]
      rfl

/-- Line `i` is the one that adds move `j`. -/
def Produces (cfg : Config α) (lines : List (List Char)) (i j : Nat) : Prop :=
  i < lines.length ∧ (runLines cfg (lines.take i)).moves.length = j
    ∧ (runLines cfg (lines.take (i + 1))).moves.length = j + 1

/-- Later lines only append. -/
theorem moves_grow (cfg : Config α) (lines : List (List Char)) (i : Nat) :
    (runLines cfg (lines.take i)).moves <+: (runLines cfg lines).moves := by
  have happend : ∀ rest, (runLines cfg (lines.take i)).moves
      <+: (runLines cfg (lines.take i ++ rest)).moves := by
    intro rest
    induction rest using List.reverseRecOn with
    | nil => rw [List.append_nil]
    | append_singleton rest line ih =>
        rw [← List.append_assoc, runLines_concat]
        refine ih.trans ?_
        obtain ⟨hmoves, _⟩ | ⟨move, hadds⟩ :=
          execWords_cases cfg (parseWords line) (runLines cfg (lines.take i ++ rest))
        · rw [hmoves]
        · rw [hadds.moves]
          exact List.prefix_append _ _
  have h := happend (lines.drop i)
  rwa [List.take_append_drop] at h

/-- Every move has a line that adds it. -/
theorem exists_produces (cfg : Config α) (lines : List (List Char)) {j : Nat}
    (h : j < (runLines cfg lines).moves.length) : ∃ i, Produces cfg lines i j := by
  induction lines using List.reverseRecOn with
  | nil => exact absurd h (Nat.not_lt_zero _)
  | append_singleton lines line ih =>
      have hold : j < (runLines cfg lines).moves.length →
          ∃ i, Produces cfg (lines ++ [line]) i j := by
        intro hj
        obtain ⟨i, hi, hbefore, hafter⟩ := ih hj
        refine ⟨i, by rw [List.length_append]; omega, ?_, ?_⟩
        · rwa [List.take_append_of_le_length (by omega)]
        · rwa [List.take_append_of_le_length (by omega)]
      obtain ⟨hmoves, _⟩ | ⟨move, hadds⟩ :=
        execWords_cases cfg (parseWords line) (runLines cfg lines)
      · rw [runLines_concat, hmoves] at h
        exact hold h
      · by_cases hj : j < (runLines cfg lines).moves.length
        · exact hold hj
        · have hlength : (runLines cfg (lines ++ [line])).moves.length
              = (runLines cfg lines).moves.length + 1 := by
            rw [runLines_concat, hadds.moves, List.length_append, List.length_singleton]
          refine ⟨lines.length, by simp, ?_, ?_⟩
          · rw [List.take_left]
            omega
          · rw [List.take_of_length_le (by simp)]
            omega

/-- **The move of a line** carries the modal state the line leaves behind. -/
theorem Produces.move {cfg : Config α} {lines : List (List Char)} {i j : Nat}
    (h : Produces cfg lines i j) : ∃ move, (runLines cfg lines).moves[j]? = some move
      ∧ Adds cfg (runLines cfg (lines.take i)) (runLines cfg (lines.take (i + 1))) move := by
  obtain ⟨hi, hbefore, hafter⟩ := h
  have hrun : runLines cfg (lines.take (i + 1))
      = execWords cfg (parseWords lines[i]) (runLines cfg (lines.take i)) := by
    rw [← List.take_concat_get' lines i hi, runLines_concat]
  obtain ⟨hmoves, _⟩ | ⟨move, hadds⟩ :=
    execWords_cases cfg (parseWords lines[i]) (runLines cfg (lines.take i))
  · rw [hrun, hmoves] at hafter
    omega
  · rw [← hrun] at hadds
    refine ⟨move, ?_, hadds⟩
    obtain ⟨later, hlater⟩ := moves_grow cfg lines (i + 1)
    rw [← hlater, List.getElem?_append_left (by omega), hadds.moves, ← hbefore,
      List.getElem?_concat_length]

private theorem code_injective : Function.Injective Motion.code := by
  intro a b h
  cases a <;> cases b <;> first | rfl | cases h

/-- **The laser of a move** is on when its line was executed in G1 mode with the
laser on. -/
theorem Produces.laser {cfg : Config α} {lines : List (List Char)} {i j : Nat}
    (h : Produces cfg lines i j) {move : LinearMove α}
    (hmove : (runLines cfg lines).moves[j]? = some move) :
    move.laserCommand ≠ 0 ↔ motionTrace (lines.take (i + 1)) = some .linear
      ∧ laserTrace (lines.take (i + 1)) = true := by
  obtain ⟨produced, hproduced, hadds⟩ := h.move
  obtain rfl := Option.some.inj (hproduced.symm.trans hmove)
  obtain ⟨m, hmode, rfl⟩ := hadds.motion
  have htrace : motionTrace (lines.take (i + 1)) = some m := by
    rw [runLines_motionMode] at hmode
    exact Option.map_injective code_injective hmode
  rw [htrace]
  cases m with
  | rapid => simp [ParserState.move]
  | linear => simp [ParserState.move, runLines_laserCommand]

/-- The moves are not empty ones. -/
theorem runLines_leaves (cfg : Config α) (lines : List (List Char)) :
    ∀ move ∈ (runLines cfg lines).moves,
      ¬(move.endX, move.endY) = (move.startX, move.startY) := by
  induction lines using List.reverseRecOn with
  | nil => simp [runLines, ParserState.start]
  | append_singleton lines line ih =>
      obtain ⟨hmoves, _⟩ | ⟨move, hadds⟩ :=
        execWords_cases cfg (parseWords line) (runLines cfg lines)
      · rwa [runLines_concat, hmoves]
      · rw [runLines_concat, hadds.moves]
        intro m hm
        rcases List.mem_append.mp hm with hm | hm
        · exact ih m hm
        · obtain rfl := List.mem_singleton.mp hm
          obtain ⟨motion, _, rfl⟩ := hadds.motion
          cases motion <;> exact hadds.leaves

/-! ## The chain of moves -/

/-- The moves lead from the origin to `p`, each starting where the one before ended. -/
structure Chained (moves : List (LinearMove α)) (p : ℚ × ℚ) : Prop where
  first : ∀ move ∈ moves.head?, (move.startX, move.startY) = (0, 0)
  links : moves.IsChain fun m n => (n.startX, n.startY) = (m.endX, m.endY)
  last : ∀ move ∈ moves.getLast?, (move.endX, move.endY) = p
  empty : moves = [] → p = (0, 0)

omit [RatCast α] in
theorem Chained.concat {moves : List (LinearMove α)} {p : ℚ × ℚ} (h : Chained moves p)
    {move : LinearMove α} (hstart : (move.startX, move.startY) = p) :
    Chained (moves ++ [move]) (move.endX, move.endY) := by
  refine ⟨?_, ?_, ?_, by simp⟩
  · intro m hm
    cases moves with
    | nil =>
        obtain rfl : move = m := by simpa using hm
        exact hstart.trans (h.empty rfl)
    | cons first moves => exact h.first m hm
  · rw [List.isChain_append]
    refine ⟨h.links, .singleton _, ?_⟩
    intro m hm n hn
    obtain rfl : move = n := by simpa using hn
    exact hstart.trans (h.last m hm).symm
  · intro m hm
    obtain rfl : move = m := by simpa using hm
    rfl

/-- **The moves of a program are one path**, to the point of the modal state. -/
theorem runLines_chained (cfg : Config α) (lines : List (List Char)) :
    Chained (runLines cfg lines).moves ((runLines cfg lines).x, (runLines cfg lines).y) := by
  induction lines using List.reverseRecOn with
  | nil =>
      exact ⟨by simp [runLines, ParserState.start], .nil,
        by simp [runLines, ParserState.start], fun _ => rfl⟩
  | append_singleton lines line ih =>
      obtain ⟨hmoves, hpoint⟩ | ⟨move, hadds⟩ :=
        execWords_cases cfg (parseWords line) (runLines cfg lines)
      · rw [runLines_concat, hmoves, hpoint]
        exact ih
      · rw [runLines_concat, hadds.moves]
        obtain ⟨motion, _, rfl⟩ := hadds.motion
        cases motion with
        | rapid => exact ih.concat rfl
        | linear => exact ih.concat rfl

/-- What `parse_nc_file` returns. -/
theorem parseNcFile_ok {cfg : Config α} {path : String} {text : List Char}
    {moves : List (LinearMove α)} (h : parseNcFile path text cfg = .ok moves) :
    moves = (runLines cfg (codeLines text)).moves ∧ moves ≠ [] := by
  unfold parseNcFile at h
  dsimp only at h
  rw [parseLines_eq] at h
  split at h
  · cases h
  · next hne =>
      obtain rfl := Except.ok.inj h
      exact ⟨rfl, by simpa using hne⟩

end Lines

/-! ## Feeds of another type -/

section Feeds

variable {α β : Type*}

def LinearMove.mapFeed (f : α → β) (move : LinearMove α) : LinearMove β :=
  ⟨move.startX, move.startY, move.endX, move.endY, f move.feed, move.laserCommand, move.rapid⟩

def ParserState.mapFeed (f : α → β) (s : ParserState α) : ParserState β :=
  ⟨s.x, s.y, f s.feed, s.motionMode, s.laserCommand, s.moves.map (LinearMove.mapFeed f)⟩

variable [RatCast α] [RatCast β] {f : α → β}

theorem execWords_mapFeed (hf : ∀ q : ℚ, f q = q) {cfg : Config α} {cfg' : Config β}
    (hvmax : cfg'.axisVmax = f cfg.axisVmax) (words : Words) (s : ParserState α) :
    execWords cfg' words (s.mapFeed f) = (execWords cfg words s).mapFeed f := by
  have hfeed : feedAfter words (f s.feed) = f (feedAfter words s.feed) := by
    unfold feedAfter
    split
    · split
      · exact (hf _).symm
      · rfl
    · rfl
  unfold execWords moveTo
  simp only [ParserState.mapFeed, hfeed, hvmax]
  split
  · dsimp only
    congr 1
    split
    · rw [List.map_append, List.map_singleton]
      by_cases hrapid : modeAfter words s.motionMode = some 0
      · simp only [hrapid, decide_true, if_true, LinearMove.mapFeed]
      · simp only [hrapid, decide_false, Bool.false_eq_true, if_false, LinearMove.mapFeed]
    · rfl
  · rfl

/-- The parser does the same with feeds of another type. -/
theorem parseNcFile_mapFeed (hf : ∀ q : ℚ, f q = q) {cfg : Config α} {cfg' : Config β}
    (hvmax : cfg'.axisVmax = f cfg.axisVmax) (hfeed : cfg'.defaultFeed = f cfg.defaultFeed)
    {path : String} {text : List Char} {moves : List (LinearMove α)}
    (h : parseNcFile path text cfg = .ok moves) :
    parseNcFile path text cfg' = .ok (moves.map (LinearMove.mapFeed f)) := by
  have hrun : ∀ lines, runLines cfg' lines = (runLines cfg lines).mapFeed f := by
    intro lines
    induction lines using List.reverseRecOn with
    | nil =>
        rw [runLines, runLines, List.foldl_nil, List.foldl_nil, ParserState.start, hfeed]
        rfl
    | append_singleton lines line ih =>
        rw [runLines_concat, runLines_concat, ih, execWords_mapFeed hf hvmax]
  obtain ⟨hmoves, hne⟩ := parseNcFile_ok h
  unfold parseNcFile
  dsimp only
  rw [parseLines_eq, hrun, hmoves]
  exact if_neg (by simpa [ParserState.mapFeed, hmoves] using hne)

end Feeds

end GalvoCtrl.Nc
