import OptionTypes.Terminal.Cell
import OptionTypes.Text.Blank

/-!
# Lines of a terminal

A text is broken into lines that fit into a number of cells. A line is broken before a word, and a
word that fits on no line is folded or cut off.

* `Lines.words` cuts a line into words with the blanks after them.
* `Lines.arrange` packs words into lines, as many as fit.
* `Lines.wrap` is the whole for a text with line ends and tabs.
-/

namespace OptionTypes.Lines

/-- What becomes of a word that fits on no line: it is continued on the next line, or cut off with
a mark at the end. -/
inductive Overflow where
  | fold
  | ellipsis
  deriving DecidableEq

/-- The mark for text that is cut off. -/
def ellipsis : CodePoint := .char '…'

/-- Whether a code point controls a terminal and is dropped from every text. -/
def isControl (c : CodePoint) : Bool :=
  c.is fun c => c == '\x07' || c == '\x08' || c == '\x0b' || c == '\x0c' || c == '\r'

/-- The text without controls. -/
def clean (t : Text) : Text := t.filter fun c => !isControl c

/-- A line in which every tab is spaces up to the next multiple of eight cells. -/
def expandTabs (t : Text) : Text := go 0 t
where
  go (used : Nat) : Text → Text
    | [] => []
    | .char '\t' :: rest =>
      let n := 8 - used % 8
      Cell.blanks n ++ go (used + n) rest
    | c :: rest => c :: go (used + Cell.count c) rest

/-- Pieces of a text, cut wherever a blank is followed by something else. -/
def cut : Text → List Text
  | [] => []
  | c :: rest =>
    match cut rest with
    | [] => [[c]]
    | piece :: more =>
      if Blank.isBlank c && !(piece.head?.any Blank.isBlank) then [c] :: piece :: more
      else (c :: piece) :: more

/-- The words of a line. A word has the blanks after it, and the first one those before it too. A
line of blanks has no words. -/
def words (t : Text) : List Text :=
  match cut (t.dropWhile Blank.isBlank) with
  | [] => []
  | first :: more => (t.takeWhile Blank.isBlank ++ first) :: more

/-- The pieces in which a word that does not fit onto the current line goes to the next ones. -/
def pieces (width : Nat) (o : Overflow) (word : Text) : List Text :=
  if width < Cell.size (Blank.trimEnd word) && o = .fold then Cell.chop width word else [word]

/-- Words packed into lines, the first of which holds `line` already. -/
def arrange (width : Nat) (o : Overflow) (line : Text) : List Text → List Text
  | [] => [line]
  | word :: more =>
    if Cell.size line + Cell.size (Blank.trimEnd word) ≤ width then
      arrange width o (line ++ word) more
    else
      let parts := pieces width o word
      let done := if line.isEmpty then parts.dropLast else line :: parts.dropLast
      done ++ arrange width o (parts.getLast?.getD []) more

/-- The lines of one line. -/
def breakLine (width : Nat) (o : Overflow) (t : Text) : List Text :=
  match words t with
  | [] => [t]
  | ws => arrange width o [] ws

/-- A line without the blanks at its end that lie beyond a number of code points. -/
def cropEnd (width : Nat) (t : Text) : Text :=
  let blanks := t.length - (Blank.trimEnd t).length
  t.take (t.length - min blanks (t.length - width))

/-- A line cut off at a number of cells. -/
def cutOff (width : Nat) (o : Overflow) (t : Text) : Text :=
  if Cell.size t ≤ width then t
  else
    match o with
    | .fold => Cell.padEnd width (Cell.fit width t)
    | .ellipsis => Cell.padEnd (width - 1) (Cell.fit (width - 1) t) ++ [ellipsis]

/-- The lines of a text, each at most `width` cells. -/
def wrap (width : Nat) (o : Overflow) (t : Text) : List Text :=
  (Text.splitOn (.char '\n') (clean t)).flatMap fun line =>
    (breakLine width o (expandTabs line)).map fun l => cutOff width o (cropEnd width l)

end OptionTypes.Lines
