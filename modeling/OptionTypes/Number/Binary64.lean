/-!
# Binary floating point, exactly

A finite `Float` is a sign, a mantissa and a power of two. This module goes back and forth between
the two views in exact arithmetic: `Binary64.parts?` decodes, `Binary64.ofRatio` rounds a quotient
of natural numbers to the nearest `Float`, ties to the even neighbour.

* `Binary64.toInt?` is the integer that an integral `Float` denotes.
* `Binary64.ofInt?` is the nearest `Float` to an integer, unless it is too large.
* `Binary64.remainder?` is the exact remainder of truncating division.
-/

namespace OptionTypes.Binary64

/-- A finite value `± mantissa · 2 ^ exponent`. -/
structure Parts where
  negative : Bool
  mantissa : Nat
  exponent : Int
  deriving DecidableEq, Repr

/-- Sign, mantissa and exponent of a finite `Float`. -/
def parts? (x : Float) : Option Parts :=
  let bits := x.toBits.toNat
  let biased : Nat := bits / Nat.pow 2 52 % Nat.pow 2 11
  let fraction : Nat := bits % Nat.pow 2 52
  if biased = 2047 then none
  else
    let negative := decide (Nat.pow 2 63 ≤ bits)
    if biased = 0 then some ⟨negative, fraction, -1074⟩
    else some ⟨negative, Nat.pow 2 52 + fraction, (biased : Int) - 1075⟩

/-- The number of the bit pattern of positive infinity. -/
def infinityBits : Nat := 2047 * Nat.pow 2 52

/-- The `Float` whose magnitude has the given bit pattern; a pattern beyond the finite ones is
infinity. -/
def ofMagnitude (negative : Bool) (bits : Nat) : Float :=
  let magnitude := min bits infinityBits
  Float.ofBits (if negative then Nat.pow 2 63 + magnitude else magnitude).toUInt64

/-- `num / den` rounded to the nearest integer, a tie to the even one. -/
def roundDiv (num den : Nat) : Nat :=
  let q := num / den
  let r := num % den
  if 2 * r < den then q
  else if den < 2 * r then q + 1
  else q + q % 2

/-- `num · 2 ^ shift / den` as a numerator and a denominator. -/
def scale (num den : Nat) (shift : Int) : Nat × Nat :=
  if 0 ≤ shift then (num * Nat.pow 2 shift.toNat, den) else (num, den * Nat.pow 2 (-shift).toNat)

/-- The exponent `e` with `2 ^ e ≤ num / den < 2 ^ (e + 1)`, for positive numbers. -/
def exponentOf (num den : Nat) : Int :=
  let e : Int := (num.log2 : Int) - den.log2
  let (n, d) := scale num den (-e)
  if n < d then e - 1 else e

/-- The bit pattern of the `Float` nearest to `num / den`. -/
def magnitudeOfRatio (num den : Nat) : Nat :=
  if num = 0 then 0
  else
    let unit := max (exponentOf num den - 52) (-1074)
    if 971 < unit then infinityBits
    else
      let (n, d) := scale num den (-unit)
      (unit + 1074).toNat * Nat.pow 2 52 + roundDiv n d

/-- The `Float` nearest to `± num / den`, a tie to the even mantissa. Quotients beyond the finite
range become infinite. -/
def ofRatio (negative : Bool) (num den : Nat) : Float :=
  ofMagnitude negative (magnitudeOfRatio num den)

/-- The integer that a `Float` denotes, if it denotes one. -/
def toInt? (x : Float) : Option Int := do
  let p ← parts? x
  let sign : Int := if p.negative then -1 else 1
  if 0 ≤ p.exponent then some (sign * (p.mantissa * Nat.pow 2 p.exponent.toNat : Nat))
  else
    let d := Nat.pow 2 (-p.exponent).toNat
    if p.mantissa % d = 0 then some (sign * (p.mantissa / d : Nat)) else none

/-- The `Float` nearest to an integer, unless its magnitude is beyond the finite range. -/
def ofInt? (n : Int) : Option Float :=
  let bits := magnitudeOfRatio n.natAbs 1
  if bits < infinityBits then some (ofMagnitude (decide (n < 0)) bits) else none

/-- The `Float` nearest to a quotient of integers, unless its magnitude is beyond the finite
range. The denominator is not zero. -/
def ofQuotient? (a b : Int) : Option Float :=
  let bits := magnitudeOfRatio a.natAbs b.natAbs
  if bits < infinityBits then some (ofMagnitude (decide (a < 0) != decide (b < 0)) bits) else none

/-- The remainder of dividing `x` by `y` toward zero. It has the sign of `x` and is computed
without rounding. There is none if `x` is infinite or `y` is zero. -/
def remainder? (x y : Float) : Option Float :=
  if x.isNaN || y.isNaN then some (x + y)
  else
    match parts? x, parts? y with
    | none, _ => none
    | some _, none => some x
    | some p, some q =>
      if q.mantissa = 0 then none
      else
        let low := min p.exponent q.exponent
        let a := p.mantissa * Nat.pow 2 (p.exponent - low).toNat
        let b := q.mantissa * Nat.pow 2 (q.exponent - low).toNat
        let (n, d) := scale (a % b) 1 low
        some (ofRatio p.negative n d)

end OptionTypes.Binary64
