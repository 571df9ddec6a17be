import OptionTypes.Syntax.Dialect
import OptionTypes.Syntax.TypeLayer

/-!
# Erasure of types

A script with types becomes one without them: the bytes of its type layer turn into blanks, line
ends excepted. So every offset, line and column stays what it was, and a fault found afterwards is
reported where it is in the source with types.

* `Erasure.blank` turns the bytes of spans into blanks.
* `Erasure.erase` is the text without its types.
-/

namespace OptionTypes.Erasure

open Syntax

/-- The byte of a blank. -/
def space : UInt8 := 0x20

/-- Whether a byte ends a line. -/
def endsLine (b : UInt8) : Bool := b == 0x0A || b == 0x0D

/-- What becomes of the byte at an offset. -/
def blankAt (spans : List TypeLayer.Span) (offset : Nat) (b : UInt8) : UInt8 :=
  if !endsLine b && spans.any (·.contains offset) then space else b

/-- The bytes from an offset on with those in spans turned into blanks. -/
def blankFrom (spans : List TypeLayer.Span) : Nat → Bytes → Bytes
  | _, [] => []
  | offset, b :: rest => blankAt spans offset b :: blankFrom spans (offset + 1) rest

/-- The bytes with those in spans turned into blanks. -/
def blank (spans : List TypeLayer.Span) (bytes : Bytes) : Bytes := blankFrom spans 0 bytes

/-- Why a text cannot be erased: it has no encoding, or what is left encodes nothing. -/
inductive Error where
  | encoding (e : Utf8.EncodeError)
  | decoding (e : Utf8.DecodeError)
  deriving DecidableEq

/-- A text without the bytes in spans of its encoding. -/
def eraseSpans (spans : List TypeLayer.Span) (chars : List Char) : Except Utf8.DecodeError Text :=
  (Utf8.decode (blank spans (Utf8.encode chars))).map Text.ofChars

/-- A text without its types. -/
def erase (text : Text) : Except Error Text := do
  let chars ← (Utf8.charsOfText text).mapError .encoding
  (eraseSpans (TypeLayer.spans (Dialect.typescript.parse chars)) chars).mapError .decoding

end OptionTypes.Erasure
