import OptionTypes.Text.Digit

/-!
# Escapes of string literals

The body of a string literal is text with escapes. An escape is a backslash and, in order of
preference,

1. `u{…}` with at least one hexadecimal digit, `u` with four or `x` with two of them,
2. one to three octal digits, as many as there are,
3. a line end, which stands for nothing,
4. one of `n t r b f v`, or any other code point, which stands for itself.

A backslash at the very end stays. Two neighbouring surrogates that form a pair are one character,
whichever way each of them was written.

* `Escape.step` reads one escape and tells how many code points it takes.
* `Escape.decode` reads a body.
-/

namespace OptionTypes.Escape

/-- Why a braced escape denotes no code point: its number is too large, or so large that it does
not even fit a signed 32-bit word. -/
inductive Error where
  | beyondUnicode
  | beyondWord
  deriving DecidableEq, Repr

namespace Error

/-- The wording of the failure. -/
def message : Error → String
  | beyondUnicode => "chr() arg not in range(0x110000)"
  | beyondWord => "Python int too large to convert to C int"

end Error

/-- The code point of a number. -/
def codePoint (n : Nat) : Except Error CodePoint :=
  match CodePoint.ofNat? n with
  | some c => .ok c
  | none => .error (if n < 0x80000000 then .beyondUnicode else .beyondWord)

/-- Whether a code point is a hexadecimal digit. -/
def isHex (c : CodePoint) : Bool := c.is Digit.isHex

/-- Whether a code point is an octal digit. -/
def isOctal (c : CodePoint) : Bool := c.is Digit.isOctal

/-- The value of a hexadecimal digit; other code points count as zero. -/
def digitValue : CodePoint → Nat
  | .char c => (Digit.hexValue? c).getD 0
  | .surrogate _ => 0

/-- The number that digits of a base write. -/
def number (base : Nat) (digits : Text) : Nat := Digit.number base (digits.map digitValue)

/-- The hexadecimal digits between braces at the start of a text, if there is at least one. -/
def braced? : Text → Option Text
  | .char '{' :: rest =>
    let digits := rest.takeWhile isHex
    match rest.drop digits.length with
    | .char '}' :: _ => if digits.isEmpty then none else some digits
    | _ => none
  | _ => none

/-- Exactly `n` hexadecimal digits at the start of a text. -/
def fixed? (n : Nat) (t : Text) : Option Text :=
  let digits := t.take n
  if digits.length = n && digits.all isHex then some digits else none

/-- Whether a character ends a line. -/
def isLineEnd (c : Char) : Bool :=
  c == '\n' || c == '\r' || c == Char.ofNat 0x2028 || c == Char.ofNat 0x2029

/-- What a backslash before a single code point stands for. -/
def simple : CodePoint → Text
  | .char 'n' => [.char '\n']
  | .char 't' => [.char '\t']
  | .char 'r' => [.char '\r']
  | .char 'b' => [.char '\x08']
  | .char 'f' => [.char '\x0c']
  | .char 'v' => [.char '\x0b']
  | c => if c.is isLineEnd then [] else [c]

/-- The escape whose backslash stands before a non-empty text: what it denotes, and how many code
points of the text belong to it. -/
def step (c : CodePoint) (rest : Text) : Except Error (Text × Nat) :=
  match c with
  | .char 'u' =>
    match braced? rest with
    | some digits => do return ([← codePoint (number 16 digits)], digits.length + 3)
    | none =>
      match fixed? 4 rest with
      | some digits => do return ([← codePoint (number 16 digits)], 5)
      | none => .ok (simple c, 1)
  | .char 'x' =>
    match fixed? 2 rest with
    | some digits => do return ([← codePoint (number 16 digits)], 3)
    | none => .ok (simple c, 1)
  | .char '\r' =>
    match rest with
    | .char '\n' :: _ => .ok ([], 2)
    | _ => .ok ([], 1)
  | c =>
    if isOctal c then
      let digits := c :: (rest.take 2).takeWhile isOctal
      do return ([← codePoint (number 8 digits)], digits.length)
    else .ok (simple c, 1)

/-- The body with its escapes replaced, surrogates not yet paired. `skip` code points still belong
to the escape read last. -/
def decodeFrom : Nat → Text → Except Error Text
  | _, [] => .ok []
  | skip + 1, _ :: rest => decodeFrom skip rest
  | 0, .char '\\' :: c :: rest => do
    let (denoted, taken) ← step c rest
    return denoted ++ (← decodeFrom taken (c :: rest))
  | 0, c :: rest => do return c :: (← decodeFrom 0 rest)

/-- The character that two surrogates form, if the first is a leading and the second a trailing
one. -/
def pairOf? (a b : Fin 2048) : Option CodePoint :=
  if a.val < 0x400 ∧ 0x400 ≤ b.val then
    CodePoint.ofNat? (0x10000 + a.val * 0x400 + (b.val - 0x400))
  else none

/-- Every leading surrogate that a trailing one follows becomes one character with it. -/
def pairSurrogates : Text → Text
  | .surrogate a :: .surrogate b :: rest =>
    match pairOf? a b with
    | some c => c :: pairSurrogates rest
    | none => .surrogate a :: pairSurrogates (.surrogate b :: rest)
  | c :: rest => c :: pairSurrogates rest
  | [] => []

/-- The text that the body of a string literal denotes. -/
def decode (body : Text) : Except Error Text := (decodeFrom 0 body).map pairSurrogates

end OptionTypes.Escape
