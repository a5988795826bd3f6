import Mathlib.Data.Rat.Defs
import Mathlib.Algebra.Field.Rat
import GalvoCtrl.Lib.Scan

/-!
# Nc — Text

What `position_velocity_joint_mpc_split_demo.py` uses of Python's strings and
regular expressions: line splitting, blanks, upper case, the comment pattern,
`WORD_RE` and `float`. A string is a list of characters; `float` is exact.
-/

namespace GalvoCtrl.Nc

open GalvoCtrl.Lib

/-! ## Characters -/

def spaceCodes : List Nat :=
  [0x9, 0xA, 0xB, 0xC, 0xD, 0x1C, 0x1D, 0x1E, 0x1F, 0x20, 0x85, 0xA0, 0x1680, 0x2000, 0x2001,
    0x2002, 0x2003, 0x2004, 0x2005, 0x2006, 0x2007, 0x2008, 0x2009, 0x200A, 0x2028, 0x2029,
    0x202F, 0x205F, 0x3000]

/-- `str.isspace`, also `\s` in a pattern. -/
def isSpace (c : Char) : Bool := c.toNat ∈ spaceCodes

/-- The characters `str.splitlines` splits at. -/
def isLineBreak (c : Char) : Bool :=
  c.toNat ∈ [0xA, 0xB, 0xC, 0xD, 0x1C, 0x1D, 0x1E, 0x85, 0x2028, 0x2029]

/-- The zeros of the Unicode decimal digits; nine more digits follow each. -/
def decimalZeros : List Nat :=
  [0x30, 0x660, 0x6F0, 0x7C0, 0x966, 0x9E6, 0xA66, 0xAE6, 0xB66, 0xBE6, 0xC66, 0xCE6, 0xD66,
    0xDE6, 0xE50, 0xED0, 0xF20, 0x1040, 0x1090, 0x17E0, 0x1810, 0x1946, 0x19D0, 0x1A80,
    0x1A90, 0x1B50, 0x1BB0, 0x1C40, 0x1C50, 0xA620, 0xA8D0, 0xA900, 0xA9D0, 0xA9F0, 0xAA50,
    0xABF0, 0xFF10, 0x104A0, 0x10D30, 0x11066, 0x110F0, 0x11136, 0x111D0, 0x112F0, 0x11450,
    0x114D0, 0x11650, 0x116C0, 0x11730, 0x118E0, 0x11950, 0x11C50, 0x11D50, 0x11DA0, 0x16A60,
    0x16AC0, 0x16B50, 0x1D7CE, 0x1D7D8, 0x1D7E2, 0x1D7EC, 0x1D7F6, 0x1E140, 0x1E2F0, 0x1E950,
    0x1FBF0]

/-- The value of a decimal digit. -/
def digitValue (c : Char) : Option Nat :=
  (decimalZeros.find? fun z => z ≤ c.toNat && c.toNat < z + 10).map (c.toNat - ·)

/-- `\d` in a pattern. -/
def isDigit (c : Char) : Bool := (digitValue c).isSome

/-- The ASCII letters and the four characters that case folding identifies with
one. -/
def letterCodes : List Nat :=
  List.range' 0x41 26 ++ List.range' 0x61 26 ++ [0x130, 0x131, 0x17F, 0x212A]

/-- `[A-Z]` under `IGNORECASE`. -/
def isWordLetter (c : Char) : Bool := c.toNat ∈ letterCodes

/-- `str.upper` of one character. Beyond ASCII only the characters whose upper
case has an ASCII letter are listed; the upper case of the others is no part of
any word and is left out. -/
def upperChar (c : Char) : List Char :=
  if 'a' ≤ c ∧ c ≤ 'z' then [Char.ofNat (c.toNat - 32)]
  else match c.toNat with
    | 0xDF => ['S', 'S']
    | 0x131 => ['I']
    | 0x149 => [Char.ofNat 0x2BC, 'N']
    | 0x17F => ['S']
    | 0x1F0 => ['J', Char.ofNat 0x30C]
    | 0x1E96 => ['H', Char.ofNat 0x331]
    | 0x1E97 => ['T', Char.ofNat 0x308]
    | 0x1E98 => ['W', Char.ofNat 0x30A]
    | 0x1E99 => ['Y', Char.ofNat 0x30A]
    | 0x1E9A => ['A', Char.ofNat 0x2BE]
    | 0xFB00 => ['F', 'F']
    | 0xFB01 => ['F', 'I']
    | 0xFB02 => ['F', 'L']
    | 0xFB03 => ['F', 'F', 'I']
    | 0xFB04 => ['F', 'F', 'L']
    | 0xFB05 => ['S', 'T']
    | 0xFB06 => ['S', 'T']
    | _ => [c]

/-- `str.upper` -/
def upper (s : List Char) : List Char := s.flatMap upperChar

/-! ## Lines and comments -/

/-- `str.splitlines` -/
def splitlines : List Char → List (List Char)
  | [] => []
  | '\r' :: '\n' :: s => [] :: splitlines s
  | c :: s =>
      if isLineBreak c then [] :: splitlines s
      else match splitlines s with
        | [] => [[c]]
        | line :: lines => (c :: line) :: lines

/-- `str.strip` -/
def strip (s : List Char) : List Char :=
  ((s.dropWhile isSpace).reverse.dropWhile isSpace).reverse

/-- `re.sub(r"\([^)]*\)", "", line)`. An opening parenthesis starts a match if a
closing one follows anywhere; `inside` is set within a match. -/
def subComments : (inside : Bool) → List Char → List Char
  | _, [] => []
  | true, c :: s => if c = ')' then subComments false s else subComments true s
  | false, c :: s =>
      if c = '(' ∧ ')' ∈ s then subComments true s else c :: subComments false s

theorem subComments_close (s : List Char) :
    subComments true (')' :: s) = subComments false s := rfl

theorem subComments_skip {c : Char} (h : c ≠ ')') (s : List Char) :
    subComments true (c :: s) = subComments true s := if_neg h

theorem subComments_open {s : List Char} (h : ')' ∈ s) :
    subComments false ('(' :: s) = subComments true s := if_pos ⟨rfl, h⟩

theorem subComments_keep {c : Char} {s : List Char} (h : ¬(c = '(' ∧ ')' ∈ s)) :
    subComments false (c :: s) = c :: subComments false s := if_neg h

/-- The line without its comments: what stands before the first semicolon left
over by `re.sub`. -/
def uncomment (line : List Char) : List Char := (subComments false line).takeWhile (· ≠ ';')

/-- `strip_gcode_comments` -/
def stripGcodeComments (line : List Char) : List Char := strip (uncomment line)

/-! ## Words and numbers -/

/-- `\.\d*` at the front of `s`, without the point. -/
def matchFraction : List Char → Option (List Char)
  | '.' :: s => some (s.takeWhile isDigit)
  | _ => none

/-- `\d+(?:\.\d*)?|\.\d+` at the front of `s`. -/
def matchUnsigned (s : List Char) : Option (List Char) :=
  let digits := s.takeWhile isDigit
  if digits.isEmpty then
    match matchFraction s with
    | some fraction => if fraction.isEmpty then none else some ('.' :: fraction)
    | none => none
  else match matchFraction (s.dropWhile isDigit) with
    | some fraction => some (digits ++ '.' :: fraction)
    | none => some digits

/-- The second group of `WORD_RE` at the front of `s`. -/
def matchNumber : List Char → Option (List Char)
  | [] => none
  | c :: s =>
      if c = '-' ∨ c = '+' then (matchUnsigned s).map (c :: ·) else matchUnsigned (c :: s)

/-- `WORD_RE` at the front of `s`: the two groups and the length of the match. -/
def matchWord : List Char → Option ((Char × List Char) × Nat)
  | [] => none
  | c :: s =>
      if isWordLetter c then
        (matchNumber (s.dropWhile isSpace)).map fun value =>
          ((c, value), (s.takeWhile isSpace).length + value.length + 1)
      else none

/-- `WORD_RE.findall` -/
def findall (s : List Char) : List (Char × List Char) := scan matchWord 0 s

/-- The number that a sequence of digits denotes. -/
def ofDigits (digits : List Char) : Nat :=
  digits.foldl (fun n c => 10 * n + (digitValue c).getD 0) 0

/-- `float` of digits, a point and digits, as an exact decimal. -/
def unsignedFloat (s : List Char) : ℚ :=
  let whole := s.takeWhile (· ≠ '.')
  let fraction := (s.dropWhile (· ≠ '.')).drop 1
  ofDigits (whole ++ fraction) / 10 ^ fraction.length

/-- `float` of a matched number. -/
def float : List Char → ℚ
  | '-' :: s => -unsignedFloat s
  | '+' :: s => unsignedFloat s
  | s => unsignedFloat s

example : findall "G1X10 Y -.5".toList =
    [('G', ['1']), ('X', ['1', '0']), ('Y', ['-', '.', '5'])] := by decide

end GalvoCtrl.Nc
