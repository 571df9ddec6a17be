import OptionTypes.Text.Quoted
import OptionTypes.Value.Conversion

/-!
# JSON text of values

A value as JSON, in one of several layouts: on one line with chosen separators, or with one member
per line and an indent. Functions, complex numbers and further scalars have no JSON form and are
written as texts.

Infinite numbers and NaN are written by name.
-/

namespace OptionTypes.Json

/-- How JSON is laid out: the separators on one line, or the indent of a nested line; and whether
text beyond ASCII is written as escapes. -/
structure Layout where
  itemSeparator : String
  keySeparator : String
  indent : Option Nat
  asciiOnly : Bool

namespace Layout

/-- One line without blanks, text as it is. -/
def compact : Layout := ⟨",", ":", none, false⟩

/-- One line with a blank after every separator, ASCII only. -/
def spaced : Layout := ⟨", ", ": ", none, true⟩

/-- One member per line, indented by two, text as it is. -/
def indented : Layout := ⟨",", ": ", some 2, false⟩

end Layout

/-- Why a value has no JSON text. -/
inductive WriteError where
  | number (e : Reading.Error)
  | key (type : String)
  deriving DecidableEq

namespace WriteError

/-- The wording of the failure. -/
def message : WriteError → Text
  | number e => e.message
  | key type => "keys must be str, int, float, bool or None, not " ++ Text.ofString type

end WriteError

/-- The escape of a number below `0x10000`. -/
def unicodeEscape (n : Nat) : Text := Text.ofChars ('\\' :: 'u' :: (Quoted.hex 4 n))

/-- What stands for a code point inside a JSON string. -/
def spell (asciiOnly : Bool) (c : CodePoint) : Text :=
  match c with
  | .char '"' => "\\\""
  | .char '\\' => "\\\\"
  | .char '\n' => "\\n"
  | .char '\r' => "\\r"
  | .char '\t' => "\\t"
  | .char '\x08' => "\\b"
  | .char '\x0c' => "\\f"
  | c =>
    let n := c.value
    if n < 0x20 then unicodeEscape n
    else if asciiOnly && 0x7F ≤ n then
      if n < 0x10000 then unicodeEscape n
      else
        unicodeEscape (0xD800 + (n - 0x10000) / 0x400) ++ unicodeEscape (0xDC00 + n % 0x400)
    else [c]

/-- A JSON string. -/
def quote (asciiOnly : Bool) (t : Text) : Text :=
  .char '"' :: t.flatMap (spell asciiOnly) ++ [.char '"']

/-- A JSON number. -/
def writeNumber : Number → Except WriteError Text
  | .int n => (Reading.writeInteger n).mapError .number
  | .float x =>
    .ok (if x.isNaN then "NaN" else if x.isInf then (if 0 < x then "Infinity" else "-Infinity")
      else Text.ofString (Shortest.write x))

/-- The text that a key becomes. -/
def keyText : Key → Except WriteError Text
  | .text t => .ok t
  | .null => .ok "null"
  | .bool b => .ok (if b then "true" else "false")
  | .number n => writeNumber n
  | .foreign type _ => .error (.key type)

/-- A line break and the indent of a depth, if the layout has lines. -/
def Layout.breakAt (l : Layout) (depth : Nat) : Text :=
  match l.indent with
  | none => []
  | some n => .char '\n' :: List.replicate (n * depth) (.char ' ')

/-- Written members or items between brackets. -/
def Layout.enclose (l : Layout) (depth : Nat) (opening closing : Char) (parts : List Text) : Text :=
  if parts.isEmpty then [.char opening, .char closing]
  else
    let separator := Text.ofString l.itemSeparator ++ l.breakAt (depth + 1)
    .char opening :: l.breakAt (depth + 1) ++ Text.join separator parts ++ l.breakAt depth
      ++ [.char closing]

mutual

/-- The JSON text of a value that stands `depth` levels deep. -/
def writeAt (l : Layout) (depth : Nat) : Value → Except WriteError Text
  | .null => .ok "null"
  | .bool b => .ok (if b then "true" else "false")
  | .number n => writeNumber n
  | .text t => .ok (quote l.asciiOnly t)
  | .list items => do return l.enclose depth '[' ']' (← writeItems l (depth + 1) items)
  | .object members => do
    return l.enclose depth '\x7b' '\x7d' (← writeMembers l (depth + 1) members)
  | .function _ => .ok (quote l.asciiOnly "[Function]")
  | .complex re im => .ok (quote l.asciiOnly (Value.complexText re im))
  | .foreign _ shown => .ok (quote l.asciiOnly shown)

/-- The JSON texts of the items of a list. -/
def writeItems (l : Layout) (depth : Nat) : List Value → Except WriteError (List Text)
  | [] => .ok []
  | item :: items => do return (← writeAt l depth item) :: (← writeItems l depth items)

/-- The JSON texts of the members of an object. -/
def writeMembers (l : Layout) (depth : Nat) : List (Key × Value) → Except WriteError (List Text)
  | [] => .ok []
  | (k, v) :: members => do
    let name := quote l.asciiOnly (← keyText k)
    let value ← writeAt l depth v
    return (name ++ Text.ofString l.keySeparator ++ value) :: (← writeMembers l depth members)

end

/-- The JSON text of a value. -/
def write (l : Layout) (v : Value) : Except WriteError Text := writeAt l 0 v

end OptionTypes.Json
