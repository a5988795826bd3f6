import Mathlib.Data.Rat.Floor
import GalvoCtrl.Lib.Hypot
import GalvoCtrl.Lib.Rounding
import GalvoCtrl.Nc.Text
import GalvoCtrl.Split.Config

/-!
# Nc — Parser

`parse_words` and `parse_nc_file`. The modal state of the loop over the lines is
a record, one line is one step, and the text is what `read_text` returns.
Coordinates are the exact decimals of the text; feeds are of the number type of
the configuration.
-/

namespace GalvoCtrl.Nc

open GalvoCtrl.Lib GalvoCtrl.Split

/-- `LinearMove` -/
structure LinearMove (α : Type*) where
  startX : ℚ
  startY : ℚ
  endX : ℚ
  endY : ℚ
  feed : α
  laserCommand : ℤ
  rapid : Bool
deriving DecidableEq, Repr

/-- A dictionary of words. -/
abbrev Words := List Char → Option ℚ

/-- `words[letter.upper()] = float(value)` -/
def setWord (words : Words) (word : Char × List Char) : Words :=
  Function.update words (upper [word.1]) (some (float word.2))

/-- `parse_words` -/
def parseWords (line : List Char) : Words := (findall line).foldl setWord fun _ => none

/-- The variables of the loop of `parse_nc_file`. -/
structure ParserState (α : Type*) where
  x : ℚ
  y : ℚ
  feed : α
  motionMode : Option ℤ
  laserCommand : ℤ
  moves : List (LinearMove α)

section Lines

variable {α : Type*} [RatCast α]

/-- The blocks `if "M" in words` and `if "S" in words`. -/
def laserAfter (words : Words) (laserCommand : ℤ) : ℤ :=
  let laserCommand :=
    match words ['M'] with
    | some m =>
        let mCode : ℤ := truncZ m
        if mCode = 3 ∨ mCode = 4 then 1 else if mCode = 5 then 0 else laserCommand
    | none => laserCommand
  match words ['S'] with
  | some s => if s > 0 then 1 else 0
  | none => laserCommand

/-- The block `if "F" in words and words["F"] > 0.0`. -/
def feedAfter (words : Words) (feed : α) : α :=
  match words ['F'] with
  | some f => if f > 0 then ((f / 60 : ℚ) : α) else feed
  | none => feed

/-- The block `if "G" in words`. -/
def modeAfter (words : Words) (motionMode : Option ℤ) : Option ℤ :=
  match words ['G'] with
  | some g =>
      let gCode : ℤ := truncZ g
      if gCode = 0 ∨ gCode = 1 then some gCode else motionMode
  | none => motionMode

/-- The motion at the end of the loop body. -/
def moveTo (cfg : Config α) (words : Words) (s : ParserState α) : ParserState α :=
  if (s.motionMode = some 0 ∨ s.motionMode = some 1)
      ∧ ((words ['X']).isSome ∨ (words ['Y']).isSome) then
    let nextX := (words ['X']).getD s.x
    let nextY := (words ['Y']).getD s.y
    let rapid : Bool := s.motionMode = some 0
    let moveFeed := if rapid then cfg.axisVmax else s.feed
    let moveLaser := if rapid then 0 else s.laserCommand
    let moves :=
      if 0 < hypot (nextX - s.x : ℚ) (nextY - s.y : ℚ) then
        s.moves ++ [⟨s.x, s.y, nextX, nextY, moveFeed, moveLaser, rapid⟩]
      else s.moves
    { s with x := nextX, y := nextY, moves := moves }
  else s

/-- The loop body on the words of a line. -/
def execWords (cfg : Config α) (words : Words) (s : ParserState α) : ParserState α :=
  moveTo cfg words
    { s with
      laserCommand := laserAfter words s.laserCommand
      feed := feedAfter words s.feed
      motionMode := modeAfter words s.motionMode }

/-- The loop body. -/
def parseLine (cfg : Config α) (s : ParserState α) (rawLine : List Char) : ParserState α :=
  let line := upper (stripGcodeComments rawLine)
  if line.isEmpty then s else execWords cfg (parseWords line) s

/-- The variables before the loop. -/
def ParserState.start (cfg : Config α) : ParserState α := ⟨0, 0, cfg.defaultFeed, none, 0, []⟩

/-- The loop over the lines of a text. -/
def parseLines (cfg : Config α) (lines : List (List Char)) : ParserState α :=
  lines.foldl (parseLine cfg) (.start cfg)

/-- `parse_nc_file`, on the text of the file at `path`. -/
def parseNcFile (path : String) (text : List Char) (cfg : Config α) :
    Except String (List (LinearMove α)) :=
  let moves := (parseLines cfg (splitlines text)).moves
  if moves.isEmpty then .error ("No G0/G1 XY moves found in NC file: " ++ path) else .ok moves

end Lines

end GalvoCtrl.Nc
