import OptionTypes.Number.Reading

/-!
# Number literals of a script

A literal denotes an integer whenever its value is integral; otherwise it denotes a `Float`. The
notations are tried in a fixed order on the text without its separators `_`:

1. with the suffix `n`, an integer whose prefix gives the base,
2. with a prefix `0x`, `0o` or `0b`, an integer in that base,
3. with a leading zero and digits only, an octal integer unless a digit rules that out,
4. otherwise a decimal number.

`Number.normal` is the normal form: no `Float` with an integral value.
-/

namespace OptionTypes

/-- A number: an integer of any size, or a `Float`. -/
inductive Number where
  | int (n : Int)
  | float (x : Float)
  deriving DecidableEq, Inhabited

namespace Number

/-- A number whose integral finite values are integers. -/
def normal : Number → Number
  | int n => int n
  | float x =>
    match Binary64.toInt? x with
    | some n => int n
    | none => float x

/-- Whether a number is a finite `Float` with an integral value. -/
def isIntegralFloat : Number → Bool
  | int _ => false
  | float x => (Binary64.toInt? x).isSome

theorem isIntegralFloat_normal (n : Number) : n.normal.isIntegralFloat = false := by
  cases n with
  | int n => rfl
  | float x => cases h : Binary64.toInt? x <;> simp [normal, isIntegralFloat, h]

/-- The normal form of a number without integral `Float` is the number itself. -/
theorem normal_eq_self {n : Number} (h : n.isIntegralFloat = false) : n.normal = n := by
  cases n with
  | int n => rfl
  | float x => cases hx : Binary64.toInt? x <;> simp_all [normal, isIntegralFloat]

end Number

namespace Literal

/-- The text without separators. -/
def withoutSeparators (t : Text) : Text := t.filter (· != .char '_')

/-- Whether a text announces a base by its prefix. -/
def hasBasePrefix : Text → Bool
  | .char '0' :: .char c :: _ => "xXoObB".toList.contains c
  | _ => false

/-- Whether a text is a zero followed by digits only, of whatever script. -/
def isLegacyOctal : Text → Bool
  | .char '0' :: c :: rest => (c :: rest).all Digit.isDigit
  | _ => false

/-- Whether every code point is an octal digit. -/
def isOctal (t : Text) : Bool := t.all fun c => c.is Digit.isOctal

/-- The number that a literal denotes. -/
def parse (t : Text) : Except Reading.Error Number :=
  let bare := withoutSeparators t
  if bare.getLast? = some (.char 'n') then (Reading.integer 0 bare.dropLast).map .int
  else if hasBasePrefix bare then (Reading.integer 0 bare).map .int
  else if isLegacyOctal bare then
    (Reading.integer (if isOctal bare then 8 else 10) bare).map .int
  else (Reading.float bare).map fun x => (Number.float x).normal

end Literal

end OptionTypes
