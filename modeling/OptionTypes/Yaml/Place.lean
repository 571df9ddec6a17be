import OptionTypes.Number.Arithmetic
import OptionTypes.Number.Reading
import OptionTypes.Text.Escape

/-!
# Places in a YAML document

A place is what is left of a document, with line and column. Past the end the next character is
`Place.none`, which no document may hold; so the tests of a place need no case for the end.

A `Scan` goes on from a place. It fails where the document is malformed; an escape that denotes no
character is told apart, and a number that is too long.
-/

namespace OptionTypes.Yaml

/-- Why a scalar is not of the kind that its tag names, or has more pieces than count. -/
inductive Misfit where
  | noTruth (word : Text)
  | noDate
  | empty
  | tooManyPieces
  deriving DecidableEq

/-- The wording of the failure. -/
def Misfit.message : Misfit → Text
  | noTruth word => Quoted.quote word
  | noDate => "'NoneType' object has no attribute 'groupdict'"
  | empty => "string index out of range"
  | tooManyPieces => Text.ofString Arithmetic.Error.integerTooLarge.message

/-- Why a document has no value. -/
inductive Error where
  | malformed
  | escape (e : Escape.Error)
  | number (e : Reading.Error)
  /-- A date that no calendar has, with the wording of what is wrong. -/
  | date (message : String)
  | misfit (e : Misfit)
  deriving DecidableEq

/-- A place in a document. -/
structure Place where
  rest : List Char
  index : Nat
  line : Nat
  column : Nat

namespace Place

/-- What is found past the end. -/
def none : Char := '\x00'

/-- Whether a character ends a line. -/
def isBreak (c : Char) : Bool :=
  c == '\n' || c == '\r' || c == Char.ofNat 0x85 || c == Char.ofNat 0x2028 || c == Char.ofNat 0x2029

/-- Whether a character ends a line or the document. -/
def isEnd (c : Char) : Bool := c == none || isBreak c

/-- Whether a character is a space or ends a line or the document. -/
def isGap (c : Char) : Bool := c == ' ' || isEnd c

/-- Whether a character is a space, a tab, or ends a line or the document. -/
def isBlank (c : Char) : Bool := c == '\t' || isGap c

/-- Whether a character may stand in the name of an anchor, a tag handle or a directive. -/
def isNamePart (c : Char) : Bool := c.isAlphanum || c == '-' || c == '_'

/-- The place at the start of a document. -/
def atStart (cs : List Char) : Place := ⟨cs, 0, 0, 0⟩

/-- The character `n` places further on. -/
def peekAt (n : Nat) (p : Place) : Char := (p.rest[n]?).getD none

/-- The next character. -/
def peek (p : Place) : Char := p.peekAt 0

/-- The place after the next character. -/
def step (p : Place) : Place :=
  match p.rest with
  | [] => p
  | c :: rest =>
    if isBreak c && !(c == '\r' && rest.head? == some '\n') then ⟨rest, p.index + 1, p.line + 1, 0⟩
    else if c == Char.ofNat 0xFEFF then ⟨rest, p.index + 1, p.line, p.column⟩
    else ⟨rest, p.index + 1, p.line, p.column + 1⟩

/-- The place `n` characters further on. -/
def forward : Nat → Place → Place
  | 0, p => p
  | n + 1, p => forward n p.step

/-- Whether a mark of three characters stands here, with a blank after it. -/
def atMark (mark : String) (p : Place) : Bool :=
  mark.toList.isPrefixOf p.rest && isBlank (p.peekAt 3)

/-- Whether a mark between documents stands here. -/
def atDocumentMark (p : Place) : Bool := p.atMark "---" || p.atMark "..."

end Place

/-- Going on from a place. -/
abbrev Scan := StateT Place (Except Error)

namespace Scan

/-- The document is malformed. -/
def fail {α : Type} : Scan α := fun _ => .error .malformed

/-- The next character. -/
def peek : Scan Char := do return (← get).peek

/-- The character `n` places further on. -/
def peekAt (n : Nat) : Scan Char := do return (← get).peekAt n

/-- Go on by `n` characters. -/
def forward (n : Nat) : Scan Unit := modify (Place.forward n)

/-- The column of the place. -/
def column : Scan Nat := do return (← get).column

/-- A bound for the number of steps that are left. -/
def bound : Scan Nat := do return (← get).rest.length + 1

/-- The characters with a property that come next. -/
def takeWhile (p : Char → Bool) : Scan (List Char) := do
  let run := (← get).rest.takeWhile p
  forward run.length
  return run

/-- Go on while characters have a property. -/
def skipWhile (p : Char → Bool) : Scan Unit := do
  let _ ← takeWhile p

/-- The next character has a property. -/
def expect (p : Char → Bool) : Scan Unit := do
  if p (← peek) then return () else fail

/-- Whether a character is a space. -/
def isSpace (c : Char) : Bool := c == ' '

/-- Pass spaces. -/
def skipSpaces : Scan Unit := skipWhile isSpace

/-- Pass the end of a line: what stands for it in a text, which is empty where no line ends. -/
def lineBreak : Scan (List Char) := do
  let c ← peek
  if c == '\n' || c == '\r' || c == Char.ofNat 0x85 then
    forward (if c == '\r' && (← peekAt 1) == '\n' then 2 else 1)
    return ['\n']
  else if Place.isBreak c then
    forward 1
    return [c]
  else return []

/-- Pass a comment if one stands here. -/
def skipComment : Scan Unit := do
  if (← peek) == '#' then skipWhile fun c => !Place.isEnd c

/-- Pass what may stand at the end of a line: spaces and a comment. -/
def endOfLine : Scan Unit := do
  skipSpaces
  skipComment
  expect Place.isEnd
  let _ ← lineBreak

/-- A name of an anchor or a directive. -/
def name : Scan (List Char) := do
  let run ← takeWhile Place.isNamePart
  if run.isEmpty then fail else return run

end Scan

end OptionTypes.Yaml
