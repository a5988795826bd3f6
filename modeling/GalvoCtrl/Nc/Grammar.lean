import GalvoCtrl.Nc.Text

/-!
# Nc — Grammar

The programs the parser is meant for, and all ways to write them down. A program
is a list of lines of words, a word a letter and a number. A text of it chooses
case, blanks, the spelling of each number, comments and extra blank lines; the
texts are syntax trees, so that `render` and the meaning are both read off them.
-/

namespace GalvoCtrl.Nc

/-! ## Programs -/

/-- `A` to `Z`. -/
abbrev Letter := Fin 26

abbrev Word := Letter × ℚ

abbrev Line := List Word

abbrev Program := List Line

namespace Letter

def upperCase (l : Letter) : Char := Char.ofNat (0x41 + l)

def lowerCase (l : Letter) : Char := Char.ofNat (0x61 + l)

def F : Letter := 5

def G : Letter := 6

def M : Letter := 12

def S : Letter := 18

def X : Letter := 23

def Y : Letter := 24

end Letter

/-! ## Numbers -/

abbrev Digit := Fin 10

def Digit.char (d : Digit) : Char := Char.ofNat (0x30 + d)

def digitsValue (ds : List Digit) : Nat := ds.foldl (fun n d => 10 * n + d.val) 0

/-- An unsigned decimal: `12`, `12.` or `12.5`, `.5`. -/
inductive NumberText where
  | whole (digits : List Digit) (ne : digits ≠ [])
  | fraction (digits decimals : List Digit) (ne : digits ≠ [])
  | point (decimals : List Digit) (ne : decimals ≠ [])

def NumberText.render : NumberText → List Char
  | .whole digits _ => digits.map Digit.char
  | .fraction digits decimals _ => digits.map Digit.char ++ '.' :: decimals.map Digit.char
  | .point decimals _ => '.' :: decimals.map Digit.char

def NumberText.value : NumberText → ℚ
  | .whole digits _ => digitsValue digits
  | .fraction digits decimals _ => digitsValue (digits ++ decimals) / 10 ^ decimals.length
  | .point decimals _ => digitsValue decimals / 10 ^ decimals.length

inductive Sign where
  | none
  | plus
  | minus

/-- A signed decimal. -/
structure SignedText where
  sign : Sign
  number : NumberText

def SignedText.render (s : SignedText) : List Char :=
  match s.sign with
  | .none => s.number.render
  | .plus => '+' :: s.number.render
  | .minus => '-' :: s.number.render

def SignedText.value (s : SignedText) : ℚ :=
  match s.sign with
  | .none => s.number.value
  | .plus => s.number.value
  | .minus => -s.number.value

/-! ## Lines -/

/-- A blank that does not end the line. -/
abbrev Blank := { c : Char // isSpace c = true ∧ isLineBreak c = false }

def Blank.space : Blank := ⟨' ', by decide⟩

def renderBlanks (bl : List Blank) : List Char := bl.map Subtype.val

/-- The text in a pair of parentheses. -/
abbrev CommentText := { s : List Char // ∀ c ∈ s, c ≠ '(' ∧ c ≠ ')' ∧ isLineBreak c = false }

/-- The text behind a semicolon. -/
abbrev TailText := { s : List Char // ∀ c ∈ s, isLineBreak c = false }

/-- What may stand between words. -/
inductive GapItem where
  | blank (c : Blank)
  | comment (text : CommentText)

def GapItem.render : GapItem → List Char
  | .blank c => [c.val]
  | .comment text => '(' :: (text.val ++ [')'])

abbrev Gap := List GapItem

def Gap.render (g : Gap) : List Char := g.flatMap GapItem.render

/-- A word: a letter in either case, blanks, a number. -/
structure WordText where
  letter : Letter
  lower : Bool
  blanks : List Blank
  number : SignedText

def WordText.render (w : WordText) : List Char :=
  (if w.lower then w.letter.lowerCase else w.letter.upperCase)
    :: (renderBlanks w.blanks ++ w.number.render)

def WordText.word (w : WordText) : Word := (w.letter, w.number.value)

/-- A line: words with gaps before them, a last gap, a semicolon comment. -/
structure LineText where
  words : List (Gap × WordText)
  gap : Gap
  tail : Option TailText

def LineText.renderTail (l : LineText) : List Char :=
  match l.tail with
  | none => []
  | some t => ';' :: t.val

def LineText.render (l : LineText) : List Char :=
  (l.words.flatMap fun gw => Gap.render gw.1 ++ gw.2.render)
    ++ (Gap.render l.gap ++ l.renderTail)

def LineText.line (l : LineText) : Line := l.words.map fun gw => gw.2.word

/-! ## Texts -/

/-- `text` is a way to write down `program`: its lines in order, blank and
comment-only lines anywhere, a line end after the last line or not. -/
inductive Renders : Program → List Char → Prop where
  | nil : Renders [] []
  | last (l : LineText) : Renders [l.line] l.render
  | line {program text} (l : LineText) : Renders program text →
      Renders (l.line :: program) (l.render ++ '\n' :: text)
  | blank {program text} (l : LineText) : l.words = [] → Renders program text →
      Renders program (l.render ++ '\n' :: text)
  | lastBlank (l : LineText) : l.words = [] → Renders [] l.render

end GalvoCtrl.Nc
