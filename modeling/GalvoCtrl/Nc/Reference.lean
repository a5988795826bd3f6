import GalvoCtrl.Nc.Grammar
import GalvoCtrl.Nc.Parser

/-!
# Nc — Reference

What a program means: a modal machine that takes the words of a line in the
order M, S, F, G and then moves. It knows nothing of text; the parser is compared
with it.
-/

namespace GalvoCtrl.Nc

open GalvoCtrl.Lib GalvoCtrl.Split

/-- The two motion modes, G0 and G1. -/
inductive Motion where
  | rapid
  | linear
deriving DecidableEq, Repr

/-- The modal state. -/
structure Modal (α : Type*) where
  x : ℚ
  y : ℚ
  feed : α
  motion : Option Motion
  laser : Bool

variable {α : Type*} [RatCast α]

/-- At the origin, no motion mode, the laser off. -/
def Modal.start (cfg : Config α) : Modal α := ⟨0, 0, cfg.defaultFeed, none, false⟩

/-- The number of the word with letter `l`. -/
def Line.value? (line : Line) (l : Letter) : Option ℚ := line.lookup l

/-- M3 and M4 switch the laser on, M5 off; other codes do nothing. -/
def laserCode (code : ℤ) (laser : Bool) : Bool :=
  match code with
  | 3 => true
  | 4 => true
  | 5 => false
  | _ => laser

/-- The code that sets a motion mode. -/
def Motion.code : Motion → ℤ
  | .rapid => 0
  | .linear => 1

/-- G0 and G1 set the motion mode; other codes do nothing. -/
def motionCode (code : ℤ) (motion : Option Motion) : Option Motion :=
  match code with
  | 0 => some .rapid
  | 1 => some .linear
  | _ => motion

/-- The modal words of a line: M and then S for the laser, F, G. -/
def Modal.set (line : Line) (s : Modal α) : Modal α :=
  let byM := (line.value? .M).elim s.laser fun m => laserCode (truncZ m) s.laser
  { s with
    laser := (line.value? .S).elim byM fun v => decide (0 < v)
    feed := (line.value? .F).elim s.feed fun f => if 0 < f then ((f / 60 : ℚ) : α) else s.feed
    motion := (line.value? .G).elim s.motion fun g => motionCode (truncZ g) s.motion }

/-- The motion of a line, in the state its modal words have left: nothing without
a motion mode or without X and Y, and no move over no distance. -/
def Modal.move (cfg : Config α) (line : Line) (s : Modal α) :
    Modal α × List (LinearMove α) :=
  match s.motion with
  | none => (s, [])
  | some motion =>
    if line.value? .X = none ∧ line.value? .Y = none then (s, []) else
    let x := (line.value? .X).getD s.x
    let y := (line.value? .Y).getD s.y
    let move : LinearMove α :=
      match motion with
      | .rapid => ⟨s.x, s.y, x, y, cfg.axisVmax, 0, true⟩
      | .linear => ⟨s.x, s.y, x, y, s.feed, if s.laser then 1 else 0, false⟩
    ({ s with x := x, y := y }, if (x, y) = (s.x, s.y) then [] else [move])

/-- The moves of a program, in order. -/
def Modal.run (cfg : Config α) (s : Modal α) : Program → List (LinearMove α)
  | [] => []
  | line :: program =>
      let (s, moves) := (s.set line).move cfg line
      moves ++ Modal.run cfg s program

/-- What a program means. -/
def meaning (cfg : Config α) (program : Program) : List (LinearMove α) :=
  (Modal.start cfg).run cfg program

end GalvoCtrl.Nc
