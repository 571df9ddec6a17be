import OptionTypes.Number.Binary64
import OptionTypes.Text.Blank
import OptionTypes.Text.Digit
import OptionTypes.Text.Quoted

/-!
# Reading numbers

Integers and floating-point numbers from text. Blanks around the number, decimal digits of any
script and a sign are accepted in both.

* `Reading.integer` reads an integer in a base. Base zero takes the base from the prefix `0x`,
  `0o` or `0b`, and then a decimal number has no leading zero. Single underscores may separate
  digits.
* `Reading.float` reads a decimal number with optional fraction and exponent, an infinity or a
  NaN.
-/

namespace OptionTypes.Reading

/-- Why a text is no number. -/
inductive Error where
  | notInteger (base : Nat) (text : Text)
  | tooManyDigits (count : Nat)
  | notFloat (text : Text)
  | tooLongToWrite
  deriving DecidableEq

/-- The longest decimal integer that is read or written. -/
def digitLimit : Nat := 4300

namespace Error

/-- The wording of the failure. -/
def message : Error → Text
  | notInteger base text =>
    "invalid literal for int() with base " ++ Text.ofNat base ++ ": "
      ++ (Quoted.quote text).take 200
  | tooManyDigits count =>
    "Exceeds the limit (" ++ Text.ofNat digitLimit
      ++ " digits) for integer string conversion: value has " ++ Text.ofNat count
      ++ " digits; use sys.set_int_max_str_digits() to increase the limit"
  | notFloat text => "could not convert string to float: " ++ Quoted.quote text
  | tooLongToWrite =>
    "Exceeds the limit (" ++ Text.ofNat digitLimit
      ++ " digits) for integer string conversion; use sys.set_int_max_str_digits()"
      ++ " to increase the limit"

end Error

/-- A code point as a number sees it: beyond ASCII a blank counts as a space, a decimal digit as
its ASCII form, and anything else belongs to no number. -/
def plain : CodePoint → Char
  | .surrogate _ => '?'
  | .char c =>
    if c.toNat < 127 then c
    else if Blank.isBlank (.char c) then ' '
    else
      match Digit.decimalValue? (.char c) with
      | some d => Char.ofNat (48 + d)
      | none => '?'

/-- The characters of a text as a number sees them, without ASCII blanks around them. -/
def body (t : Text) : List Char :=
  let cs := (t.map plain).dropWhile Blank.isAsciiBlank
  (cs.reverse.dropWhile Blank.isAsciiBlank).reverse

/-- A sign and what follows it. -/
def sign : List Char → Bool × List Char
  | '-' :: rest => (true, rest)
  | '+' :: rest => (false, rest)
  | cs => (false, cs)

/-- The value of a digit in any base up to thirty-six. -/
def digitValue (c : Char) : Nat :=
  if '0' ≤ c ∧ c ≤ '9' then c.toNat - 48
  else if 'a' ≤ c ∧ c ≤ 'z' then c.toNat - 87
  else if 'A' ≤ c ∧ c ≤ 'Z' then c.toNat - 55
  else 36

/-- The digits of a base at the start of the characters, with single underscores between them, and
what follows. -/
def digitRun (base : Nat) : List Char → List Nat × List Char
  | [] => ([], [])
  | '_' :: c :: rest =>
    if digitValue c < base then
      let (ds, more) := digitRun base rest
      (digitValue c :: ds, more)
    else ([], '_' :: c :: rest)
  | c :: rest =>
    if digitValue c < base then
      let (ds, more) := digitRun base rest
      (digitValue c :: ds, more)
    else ([], c :: rest)

/-- The base that a prefix announces and what follows the prefix, one underscore included. -/
def afterPrefix (base : Nat) (cs : List Char) : Nat × List Char :=
  let skipUnderscore : List Char → List Char
    | '_' :: rest => rest
    | rest => rest
  match cs with
  | '0' :: x :: rest =>
    if (base = 0 ∨ base = 16) ∧ (x = 'x' ∨ x = 'X') then (16, skipUnderscore rest)
    else if (base = 0 ∨ base = 8) ∧ (x = 'o' ∨ x = 'O') then (8, skipUnderscore rest)
    else if (base = 0 ∨ base = 2) ∧ (x = 'b' ∨ x = 'B') then (2, skipUnderscore rest)
    else (if base = 0 then 10 else base, cs)
  | _ => (if base = 0 then 10 else base, cs)

/-- Whether a base is read digit by digit, without regard to the length. -/
def isBinaryBase (base : Nat) : Bool := base == 2 || base == 8 || base == 16

/-- The integer that a text writes in a base, or in the base of its prefix if the base is zero. -/
def integer (base : Nat) (t : Text) : Except Error Int :=
  let (negative, unsigned) := sign (body t)
  let (actual, cs) := afterPrefix base unsigned
  let (digits, rest) :=
    match cs with
    | '_' :: _ => ([], cs)
    | _ => digitRun actual cs
  if digits.isEmpty || rest.head? == some '_' then .error (.notInteger base t)
  else if !isBinaryBase actual && digitLimit < digits.length then
    .error (.tooManyDigits digits.length)
  else
    let n := Digit.number actual digits
    let zeroFirst := base == 0 && actual == 10 && unsigned.head? == some '0'
    if !rest.isEmpty || (zeroFirst && n != 0) then .error (.notInteger base t)
    else .ok (if negative then -(n : Int) else n)

/-- The decimal digits of an integer. Integers beyond the length limit are not written. -/
def writeInteger (n : Int) : Except Error Text :=
  let digits := Nat.toDigits 10 n.natAbs
  if digitLimit < digits.length then .error .tooLongToWrite
  else .ok (Text.ofChars (if n < 0 then '-' :: digits else digits))

/-- Whether a character is a decimal digit. -/
def isDigit (c : Char) : Bool := '0' ≤ c && c ≤ '9'

/-- The `Float` nearest to `± digits · 10 ^ exponent`. Exponents far outside the range of finite
values are not expanded. -/
def ofDecimal (negative : Bool) (digits : List Char) (exponent : Int) : Float :=
  let n := Digit.number 10 (digits.map digitValue)
  let top : Int := (digits.dropWhile (· == '0')).length + exponent
  if n = 0 then Binary64.ofMagnitude negative 0
  else if 400 < top then Binary64.ofMagnitude negative Binary64.infinityBits
  else if top < -400 then Binary64.ofMagnitude negative 0
  else if 0 ≤ exponent then Binary64.ofRatio negative (n * Nat.pow 10 exponent.toNat) 1
  else Binary64.ofRatio negative n (Nat.pow 10 (-exponent).toNat)

/-- The exponent at the start of the characters, zero if there is none. Nothing may follow it. -/
def exponent? : List Char → Option Int
  | [] => some 0
  | e :: rest =>
    if e = 'e' ∨ e = 'E' then
      let (negative, digits) := sign rest
      if digits.isEmpty || !digits.all isDigit then none
      else
        let n : Int := Digit.number 10 (digits.map digitValue)
        some (if negative then -n else n)
    else none

/-- The value of an unsigned decimal number. -/
def decimal? (negative : Bool) (cs : List Char) : Option Float :=
  let whole := cs.takeWhile isDigit
  let rest := cs.dropWhile isDigit
  let (fraction, rest) :=
    match rest with
    | '.' :: more => (more.takeWhile isDigit, more.dropWhile isDigit)
    | _ => ([], rest)
  if whole.isEmpty && fraction.isEmpty then none
  else do
    let e ← exponent? rest
    return ofDecimal negative (whole ++ fraction) (e - fraction.length)

/-- The value of an unsigned word for an infinity or a NaN. -/
def named? (negative : Bool) (cs : List Char) : Option Float :=
  let word := String.ofList (cs.map Char.toLower)
  if word = "inf" ∨ word = "infinity" then
    some (Binary64.ofMagnitude negative Binary64.infinityBits)
  else if word = "nan" then some (0.0 / 0.0)
  else none

/-- The number that characters write, if they write one. -/
def float? (cs : List Char) : Option Float :=
  let (negative, unsigned) := sign cs
  decimal? negative unsigned <|> named? negative unsigned

/-- The `Float` that a text writes. -/
def float (t : Text) : Except Error Float :=
  match float? (body t) with
  | some x => .ok x
  | none => .error (.notFloat t)

end OptionTypes.Reading
