import OptionTypes.Text.CodePoint

/-!
# UTF-8

Encoding and decoding of texts, over lists of bytes. A surrogate cannot be encoded, and bytes may
be no encoding at all: both failures say where they are, and decoding also says which of the three
rules of the format is broken.

* `Utf8.encodeChar` lists the bytes of one character, `Utf8.encode` those of many.
* `Utf8.encodeText` fails at the first run of surrogates.
* `Utf8.decode` fails at the first byte that starts no well-formed character.
-/

namespace OptionTypes

/-- A sequence of bytes. -/
abbrev Bytes := List UInt8

namespace Utf8

/-- The bytes of one character. -/
def encodeChar (c : Char) : Bytes :=
  let n := c.toNat
  if n < 0x80 then [n.toUInt8]
  else if n < 0x800 then [(0xC0 + n / 64).toUInt8, (0x80 + n % 64).toUInt8]
  else if n < 0x10000 then
    [(0xE0 + n / 4096).toUInt8, (0x80 + n / 64 % 64).toUInt8, (0x80 + n % 64).toUInt8]
  else
    [(0xF0 + n / 262144).toUInt8, (0x80 + n / 4096 % 64).toUInt8, (0x80 + n / 64 % 64).toUInt8,
      (0x80 + n % 64).toUInt8]

/-- The number of bytes of one character. -/
def size (c : Char) : Nat :=
  let n := c.toNat
  if n < 0x80 then 1 else if n < 0x800 then 2 else if n < 0x10000 then 3 else 4

/-- The bytes of a sequence of characters. -/
def encode (cs : List Char) : Bytes := cs.flatMap encodeChar

/-- A run of surrogates that has no encoding: its first code point, where it starts, and how many
code points it has. -/
structure EncodeError where
  first : Fin 2048
  start : Nat
  count : Nat
  deriving DecidableEq

/-- The characters of a text, or the first run of surrogates in it. -/
def charsOfText (t : Text) : Except EncodeError (List Char) := go 0 t
where
  go (position : Nat) : Text → Except EncodeError (List Char)
    | [] => .ok []
    | .char c :: rest => do return c :: (← go (position + 1) rest)
    | .surrogate n :: rest =>
      .error ⟨n, position, 1 + (rest.takeWhile CodePoint.isSurrogate).length⟩

/-- The bytes of a text, or the first run of surrogates in it. -/
def encodeText (t : Text) : Except EncodeError Bytes := (charsOfText t).map encode

/-- The rule of the format that a byte sequence breaks. -/
inductive Violation where
  | invalidStart
  | invalidContinuation
  | unexpectedEnd
  deriving DecidableEq

/-- Bytes that encode nothing: the first of them, where they start, how many they are, and the
rule they break. -/
structure DecodeError where
  first : UInt8
  start : Nat
  count : Nat
  violation : Violation
  deriving DecidableEq

/-- Whether a byte continues a character. -/
def isContinuation (b : UInt8) : Bool := 0x80 ≤ b && b < 0xC0

/-- The character with a number, for numbers that the decoder has checked. -/
def charOf (n : Nat) : Char := Char.ofNat n

/-- One character at the start of the bytes and its length, or the number of offending bytes and
the broken rule. -/
def decodeOne : Bytes → Except (Nat × Violation) (Char × Nat)
  | [] => .error (0, .unexpectedEnd)
  | a :: rest =>
    if a < 0x80 then .ok (charOf a.toNat, 1)
    else if a < 0xC2 then .error (1, .invalidStart)
    else if a < 0xE0 then
      match rest with
      | [] => .error (1, .unexpectedEnd)
      | b :: _ =>
        if isContinuation b then .ok (charOf ((a.toNat - 0xC0) * 64 + (b.toNat - 0x80)), 2)
        else .error (1, .invalidContinuation)
    else if a < 0xF0 then
      match rest with
      | [] => .error (1, .unexpectedEnd)
      | b :: rest =>
        if !isContinuation b || (if b < 0xA0 then a == 0xE0 else a == 0xED) then
          .error (1, .invalidContinuation)
        else
          match rest with
          | [] => .error (2, .unexpectedEnd)
          | c :: _ =>
            if isContinuation c then
              .ok (charOf ((a.toNat - 0xE0) * 4096 + (b.toNat - 0x80) * 64 + (c.toNat - 0x80)), 3)
            else .error (2, .invalidContinuation)
    else if a < 0xF5 then
      match rest with
      | [] => .error (1, .unexpectedEnd)
      | b :: rest =>
        if !isContinuation b || (if b < 0x90 then a == 0xF0 else a == 0xF4) then
          .error (1, .invalidContinuation)
        else
          match rest with
          | [] => .error (2, .unexpectedEnd)
          | c :: rest =>
            if !isContinuation c then .error (2, .invalidContinuation)
            else
              match rest with
              | [] => .error (3, .unexpectedEnd)
              | d :: _ =>
                if isContinuation d then
                  .ok (charOf ((a.toNat - 0xF0) * 262144 + (b.toNat - 0x80) * 4096
                    + (c.toNat - 0x80) * 64 + (d.toNat - 0x80)), 4)
                else .error (3, .invalidContinuation)
    else .error (1, .invalidStart)

/-- The characters that the bytes encode, or the first bytes that encode nothing. -/
def decode (bytes : Bytes) : Except DecodeError (List Char) := go 0 0 bytes
where
  /-- `skip` bytes still belong to the character read last; `position` counts bytes. -/
  go (position : Nat) : Nat → Bytes → Except DecodeError (List Char)
    | _, [] => .ok []
    | skip + 1, _ :: rest => go (position + 1) skip rest
    | 0, b :: rest =>
      match decodeOne (b :: rest) with
      | .ok (c, n) => do return c :: (← go (position + 1) (n - 1) rest)
      | .error (n, violation) => .error ⟨b, position, n, violation⟩

/-- The characters that the bytes encode, with U+FFFD for every maximal piece that encodes
nothing. -/
def decodeLossy (bytes : Bytes) : List Char := go 0 bytes
where
  go : Nat → Bytes → List Char
    | _, [] => []
    | skip + 1, _ :: rest => go skip rest
    | 0, b :: rest =>
      match decodeOne (b :: rest) with
      | .ok (c, n) => c :: go (n - 1) rest
      | .error (n, _) => Char.ofNat 0xFFFD :: go (n - 1) rest

end Utf8

end OptionTypes
