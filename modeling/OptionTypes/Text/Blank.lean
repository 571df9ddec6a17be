import OptionTypes.Text.CodePoint

/-!
# Blanks and line ends

Three classes of code points that separate: blanks of any script, the six ASCII blanks at which
a description may be broken, and line ends.
-/

namespace OptionTypes.Blank

/-- Whether a number is that of a blank of any script. The separators U+001C to U+001F count. -/
def isBlankNumber (n : Nat) : Bool :=
  (0x09 ≤ n && n ≤ 0x0D) || (0x1C ≤ n && n ≤ 0x20) || n == 0x85 || n == 0xA0 || n == 0x1680
    || (0x2000 ≤ n && n ≤ 0x200A) || n == 0x2028 || n == 0x2029 || n == 0x202F || n == 0x205F
    || n == 0x3000

/-- Whether a code point is a blank of any script. -/
def isBlank (c : CodePoint) : Bool := isBlankNumber c.value

/-- Whether a character is an ASCII blank: tab, line feed, vertical tab, form feed, carriage
return or space. -/
def isAsciiBlank (c : Char) : Bool :=
  c == '\t' || c == '\n' || c == '\x0b' || c == '\x0c' || c == '\r' || c == ' '

/-- The text without blanks at its start and end. -/
def trim (t : Text) : Text := Text.dropEndWhile isBlank (t.dropWhile isBlank)

/-- The text without blanks at its end. -/
def trimEnd (t : Text) : Text := t.dropEndWhile isBlank

/-- Whether the text consists of blanks. -/
def isAllBlank (t : Text) : Bool := t.all isBlank

/-- Whether a number is that of a code point which ends a line. -/
def isLineEndNumber (n : Nat) : Bool :=
  (0x0A ≤ n && n ≤ 0x0D) || (0x1C ≤ n && n ≤ 0x1E) || n == 0x85 || n == 0x2028 || n == 0x2029

/-- The text up to the first line end, or all of it. -/
def firstLine (t : Text) : Text := t.takeWhile fun c => !isLineEndNumber c.value

/-- Characters with every line end CR LF or CR read as LF. -/
def unifyLines : List Char → List Char
  | [] => []
  | '\r' :: '\n' :: rest => '\n' :: unifyLines rest
  | '\r' :: rest => '\n' :: unifyLines rest
  | c :: rest => c :: unifyLines rest

/-- A text in which every CR LF is LF. -/
def unifyPairs : Text → Text
  | [] => []
  | .char '\r' :: .char '\n' :: rest => .char '\n' :: unifyPairs rest
  | c :: rest => c :: unifyPairs rest

end OptionTypes.Blank
