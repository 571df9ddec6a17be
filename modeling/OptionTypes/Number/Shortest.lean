import OptionTypes.Number.Binary64
import OptionTypes.Text.CodePoint

/-!
# Shortest decimal digits

A `Float` is written with the fewest digits that read back as the same `Float`, and of those with
the ones nearest to it. `Shortest.digits?` finds them on the decimal grids of one, two, up to
seventeen digits, by testing the two neighbours of the value on each grid in exact arithmetic.

`Shortest.write` lays the digits out: positionally while the decimal point stands from four places
before the digits to sixteen places after their start, otherwise with an exponent of at least two
digits. An integral value keeps the fraction `.0`.
-/

namespace OptionTypes.Shortest

/-- A positive decimal `0.d₁d₂… · 10 ^ point`, with its digits as one number of `count` digits. -/
structure Decimal where
  digits : Nat
  count : Nat
  point : Int
  deriving DecidableEq, Repr

/-- `num / den · 10 ^ shift` as a numerator and a denominator. -/
def scale (num den : Nat) (shift : Int) : Nat × Nat :=
  if 0 ≤ shift then (num * Nat.pow 10 shift.toNat, den) else (num, den * Nat.pow 10 (-shift).toNat)

/-- The number of decimal digits of a natural number; zero has one. -/
def digitCount (n : Nat) : Nat := (Nat.toDigits 10 n).length

/-- The `point` with `10 ^ (point - 1) ≤ num / den < 10 ^ point`, for positive numbers. -/
def pointOf (num den : Nat) : Int :=
  let guess : Int := (digitCount num : Int) - digitCount den
  let (n, d) := scale num den (-guess)
  if n < d then guess else guess + 1

/-- Whether the decimal `digits · 10 ^ (point - count)` reads back as the magnitude `bits`. -/
def readsBack (bits digits : Nat) (shift : Int) : Bool :=
  let (n, d) := scale digits 1 shift
  Binary64.magnitudeOfRatio n d == bits

/-- The nearest point of the grid of `count` digits that reads back, if one does. -/
def onGrid? (bits num den : Nat) (point : Int) (count : Nat) : Option Decimal :=
  let shift := point - count
  let (n, d) := scale num den (-shift)
  let low := n / d
  let r := n % d
  let lowFits := readsBack bits low shift
  let highFits := readsBack bits (low + 1) shift
  let pickHigh := highFits && (!lowFits || d < 2 * r || (d == 2 * r && low % 2 == 1))
  if pickHigh then
    if low + 1 = Nat.pow 10 count then some ⟨1, 1, point + 1⟩ else some ⟨low + 1, count, point⟩
  else if lowFits && low != 0 then some ⟨low, count, point⟩
  else none

/-- The first grid, of at most `fuel` further ones, with a point that reads back. -/
def search (bits num den : Nat) (point : Int) : Nat → Nat → Option Decimal
  | 0, _ => none
  | fuel + 1, count =>
    match onGrid? bits num den point count with
    | some d => some d
    | none => search bits num den point fuel (count + 1)

/-- The shortest decimal of a positive finite `Float` given by mantissa and exponent. -/
def digits? (p : Binary64.Parts) : Option Decimal :=
  let (num, den) := Binary64.scale p.mantissa 1 p.exponent
  search (Binary64.magnitudeOfRatio num den) num den (pointOf num den) 17 1

/-- The digits of a decimal, without zeros at their end. -/
def Decimal.text (d : Decimal) : List Char :=
  ((Nat.toDigits 10 d.digits).reverse.dropWhile (· == '0')).reverse

/-- An exponent with its sign and at least two digits. -/
def exponentText (e : Int) : List Char :=
  let digits := Nat.toDigits 10 e.natAbs
  (if e < 0 then '-' else '+') :: (if digits.length < 2 then '0' :: digits else digits)

/-- The layout of a decimal. -/
def Decimal.layout (d : Decimal) : List Char :=
  let digits := d.text
  let n : Int := digits.length
  if -4 < d.point ∧ d.point ≤ 16 then
    if d.point ≤ 0 then
      '0' :: '.' :: List.replicate (-d.point).toNat '0' ++ digits
    else if n ≤ d.point then
      digits ++ List.replicate (d.point - n).toNat '0' ++ ['.', '0']
    else digits.take d.point.toNat ++ '.' :: digits.drop d.point.toNat
  else
    let mantissa :=
      match digits with
      | [] => []
      | [c] => [c]
      | c :: rest => c :: '.' :: rest
    mantissa ++ 'e' :: exponentText (d.point - 1)

/-- The text of a `Float`. -/
def write (x : Float) : String :=
  match Binary64.parts? x with
  | none => if x.isNaN then "nan" else if x < 0 then "-inf" else "inf"
  | some p =>
    let sign := if p.negative then "-" else ""
    if p.mantissa = 0 then sign ++ "0.0"
    else
      match digits? p with
      | none => sign ++ "0.0"
      | some d => sign ++ String.ofList d.layout

end OptionTypes.Shortest
