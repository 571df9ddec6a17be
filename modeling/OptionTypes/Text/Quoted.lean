import OptionTypes.Text.CodePoint
import OptionTypes.Text.PrintableTable

/-!
# Quoted texts

A message shows a piece of text between quotation marks on one line. Single marks are preferred;
double marks are used where the text holds a single mark and no double one. A backslash, the
chosen mark and every code point that has no visible form are written as escapes.
-/

namespace OptionTypes.Quoted

/-- The `width` lowest hexadecimal digits of a number. -/
def hex : Nat → Nat → List Char
  | 0, _ => []
  | width + 1, n => hex width (n / 16) ++ [Nat.digitChar (n % 16)]

/-- Whether a code point is written as an escape whatever the mark. -/
def isHidden (c : CodePoint) : Bool :=
  let n := c.value
  n < 0x20 || (0x7F ≤ n && PrintableTable.hidden.any fun (a, b) => a ≤ n && n ≤ b)

/-- The escape of a code point by its number, with two, four or eight digits. -/
def numbered (n : Nat) : List Char :=
  if n < 0x100 then '\\' :: 'x' :: hex 2 n
  else if n < 0x10000 then '\\' :: 'u' :: hex 4 n
  else '\\' :: 'U' :: hex 8 n

/-- What stands for one code point between two marks. -/
def spell (mark : Char) (c : CodePoint) : Text :=
  match c with
  | .char '\\' => "\\\\"
  | .char '\n' => "\\n"
  | .char '\r' => "\\r"
  | .char '\t' => "\\t"
  | c =>
    if c = .char mark then [.char '\\', c]
    else if isHidden c then Text.ofChars (numbered c.value)
    else [c]

/-- The mark that encloses a text. -/
def mark (t : Text) : Char := if t.contains (.char '\'') && !t.contains (.char '"') then '"' else '\''

/-- The text between quotation marks. -/
def quote (t : Text) : Text :=
  let m := mark t
  .char m :: t.flatMap (spell m) ++ [.char m]

end OptionTypes.Quoted
