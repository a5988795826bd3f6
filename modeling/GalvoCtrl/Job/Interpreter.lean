import GalvoCtrl.Lib.Delimited
import GalvoCtrl.Lib.EventRun
import GalvoCtrl.Nc.Text
import GalvoCtrl.Job.Program

/-!
# Job — Interpreter

A reference interpreter for BASIC jobs: what a line says, and what a controller does
with it. `MOVEABS` starts a move at the current speed and `WAIT IDLE` completes it;
everything else takes effect at once. The interpreter follows one output, the one the
laser is on.
-/

namespace GalvoCtrl.Job

open GalvoCtrl.Lib GalvoCtrl.Nc

/-! ## Reading a line -/

inductive Command where
  | base (x y : ℤ)
  | atype (value : PyFloat)
  | speed (value : PyFloat)
  | accel (value : PyFloat)
  | decel (value : PyFloat)
  | moveAbs (p : Point)
  | waitIdle
  | op (output : ℤ) (on : Bool)
deriving DecidableEq

def PyFloat.neg : PyFloat → PyFloat
  | .finite negative magnitude => .finite (!negative) magnitude
  | .infinite negative => .infinite (!negative)
  | .nan => .nan

def readUnsigned (s : List Char) : Option PyFloat :=
  if s = "inf".toList then some (.infinite false)
  else if s = "nan".toList then some .nan
  else (readDecimal s).map (.finite false)

/-- A number, exactly. -/
def readFloat : List Char → Option PyFloat
  | '-' :: s => (readUnsigned s).map PyFloat.neg
  | s => readUnsigned s

def readNat (s : List Char) : Option ℕ :=
  if s ≠ [] ∧ s.all Char.isDigit then some (Nat.ofDigitChars 10 s 0) else none

def readInt : List Char → Option ℤ
  | '-' :: s => (readNat s).map fun n => -n
  | s => (readNat s).map Int.ofNat

/-- The two arguments of a call, from behind the opening parenthesis on. -/
def readArguments (s : List Char) : Option (List Char × List Char) :=
  let inner := s.takeWhile (· ≠ ')')
  if s.dropWhile (· ≠ ')') = [')'] ∧ ',' ∈ inner then
    some (inner.takeWhile (· ≠ ','), (inner.dropWhile (· ≠ ',')).drop 1)
  else none

def readSetting (name : List Char) (value : PyFloat) : Option Command :=
  if name = "ATYPE".toList then some (.atype value)
  else if name = "SPEED".toList then some (.speed value)
  else if name = "ACCEL".toList then some (.accel value)
  else if name = "DECEL".toList then some (.decel value)
  else none

def readState (s : List Char) : Option Bool :=
  if s = "ON".toList then some true
  else if s = "OFF".toList then some false
  else none

def readCall (name a b : List Char) : Option Command :=
  if name = "BASE".toList then
    (readInt a).bind fun x => (readInt b).map fun y => .base x y
  else if name = "MOVEABS".toList then
    (readFloat a).bind fun x => (readFloat b).map fun y => .moveAbs ⟨x, y⟩
  else if name = "OP".toList then
    (readInt a).bind fun output => (readState b).map fun on => .op output on
  else none

/-- A line without blanks around it: a setting, a call or `WAIT IDLE`. -/
def readCommand (line : List Char) : Option Command :=
  let name := line.takeWhile Char.isUpper
  match line.dropWhile Char.isUpper with
  | '=' :: value => (readFloat value).bind (readSetting name)
  | '(' :: s => (readArguments s).bind fun arguments => readCall name arguments.1 arguments.2
  | _ => if line = "WAIT IDLE".toList then some .waitIdle else none

/-! ## Reading a file -/

def isComment (line : List Char) : Bool := "'".toList.isPrefixOf line

/-- The lines with a command on them, up to `END`. -/
def commandLines : List (List Char) → List (List Char)
  | [] => []
  | rawLine :: lines =>
      let line := strip rawLine
      if line = [] ∨ isComment line = true then commandLines lines
      else if upper line = "END".toList then []
      else line :: commandLines lines

/-! ## Executing -/

/-- A move that was started, and not completed. -/
structure Pending where
  target : Point
  speed : PyFloat

structure Motion where
  speed : PyFloat
  output : Bool
  position : Point
  pending : Option Pending

/-- Nothing pending. -/
def Motion.idle (speed : PyFloat) (output : Bool) (position : Point) : Motion :=
  ⟨speed, output, position, none⟩

/-- A command, with the state that it was executed in. -/
structure Executed where
  before : Motion
  command : Command

/-- One command. A move that is started while another one is pending replaces it. -/
def Motion.step (laserOutput : ℤ) (s : Motion) : Command → Motion
  | .speed value => { s with speed := value }
  | .moveAbs p => { s with pending := some ⟨p, s.speed⟩ }
  | .waitIdle =>
      match s.pending with
      | some move => { s with position := move.target, pending := none }
      | none => s
  | .op output on => if output = laserOutput then { s with output := on } else s
  | .base _ _ => s
  | .atype _ => s
  | .accel _ => s
  | .decel _ => s

/-- A controller with the laser off, at some position and speed. -/
def interpreter (laserOutput : ℤ) (speed : PyFloat) (position : Point) :
    Machine Motion Command Executed where
  init := .idle speed false position
  boot := []
  step := Motion.step laserOutput
  emit s command := [⟨s, command⟩]

/-- A completed move. -/
structure Move where
  laserOn : Bool
  speed : PyFloat
  source : Point
  target : Point
deriving DecidableEq

/-- The move that a command completes. -/
def Executed.move (e : Executed) : Option Move :=
  match e.command, e.before.pending with
  | .waitIdle, some move => some ⟨e.before.output, move.speed, e.before.position, move.target⟩
  | _, _ => none

/-- All that a program does. -/
structure Execution where
  trace : List Executed
  final : Motion

def Execution.moves (e : Execution) : List Move := e.trace.filterMap Executed.move

/-- The commands on `lines`, executed one after the other. -/
def execute (M : Machine Motion Command Executed) (lines : List (List Char)) : Option Execution :=
  (lines.mapM readCommand).map fun commands => ⟨M.trace commands, M.run commands⟩

/-- The text of a `.bas` file, executed. -/
def executeFile (M : Machine Motion Command Executed) (text : List Char) : Option Execution :=
  execute M (commandLines (getlines '\n' text))

end GalvoCtrl.Job
