import OptionTypes.Number.Literal

/-!
# Arithmetic

The six operators on numbers. Two integers stay exact except under division, remainder and negative
powers; as soon as a `Float` takes part the operation is carried out on `Float`s. Operations
without a result say why.

A power of a negative number with a fractional exponent is complex.
-/

namespace OptionTypes

/-- An arithmetic operator. -/
inductive Operator where
  | add
  | sub
  | mul
  | div
  | rem
  | pow
  deriving DecidableEq

namespace Arithmetic

/-- Why an operation has no result. -/
inductive Error where
  | integerByZero
  | floatByZero
  | quotientTooLarge
  | integerTooLarge
  | domain
  | zeroToNegative
  | range
  | complexRange
  deriving DecidableEq

/-- The wording of the failure. -/
def Error.message : Error → String
  | integerByZero => "division by zero"
  | floatByZero => "float division by zero"
  | quotientTooLarge => "integer division result too large for a float"
  | integerTooLarge => "int too large to convert to float"
  | domain => "math domain error"
  | zeroToNegative => "0.0 cannot be raised to a negative power"
  | range => "(34, 'Numerical result out of range')"
  | complexRange => "complex exponentiation"

/-- The result of an operation. -/
inductive Result where
  | number (n : Number)
  | complex (re im : Float)
  deriving DecidableEq

/-- The result that is an integer. -/
def Result.int (n : Int) : Result := .number (.int n)

/-- The result that is a `Float`. -/
def Result.float (x : Float) : Result := .number (.float x)

/-- The `Float` nearest to a number. -/
def toFloat : Number → Except Error Float
  | .float x => .ok x
  | .int n =>
    match Binary64.ofInt? n with
    | some x => .ok x
    | none => .error .integerTooLarge

/-- Whether a `Float` is an odd integer. -/
def isOdd (x : Float) : Bool :=
  match Binary64.toInt? x with
  | some n => n % 2 != 0
  | none => false

/-- Whether the sign of a `Float` is negative, zeros included. -/
def isNegative (x : Float) : Bool := Nat.pow 2 63 ≤ x.toBits.toNat

/-- The magnitude of `x` with the sign of `y`. -/
def withSign (x y : Float) : Float := if isNegative y then -x.abs else x.abs

/-- The power of a negative base and a fractional exponent, in polar form. -/
def complexPower (x y : Float) : Except Error Result :=
  let length := Float.pow x.abs y
  let phase := Float.atan2 0 x * y
  let re := length * Float.cos phase
  let im := length * Float.sin phase
  if re.isInf || im.isInf then .error .complexRange else .ok (.complex re im)

/-- The power of a positive base, neither operand infinite, with a sign added afterwards. -/
def finitePower (negative : Bool) (x y : Float) : Except Error Result :=
  if x == 1 then .ok (.float (if negative then -1 else 1))
  else
    let p := Float.pow x y
    if p.isInf then .error .range else .ok (.float (if negative then -p else p))

/-- The power of two `Float`s. The cases are tried in order. -/
def floatPower (x y : Float) : Except Error Result :=
  if y == 0 then .ok (.float 1)
  else if x.isNaN then .ok (.float x)
  else if y.isNaN then .ok (.float (if x == 1 then 1 else y))
  else if y.isInf then
    let size := x.abs
    .ok (.float (if size == 1 then 1 else if decide (0 < y) == decide (1 < size) then y.abs else 0))
  else if x.isInf then
    .ok (.float (if 0 < y then (if isOdd y then x else x.abs)
      else if isOdd y then withSign 0 x else 0))
  else if x == 0 then
    if y < 0 then .error .zeroToNegative else .ok (.float (if isOdd y then x else 0))
  else if x < 0 then
    if (Binary64.toInt? y).isSome then finitePower (isOdd y) (-x) y else complexPower x y
  else finitePower false x y

/-- The power of two integers: exact unless the exponent is negative. -/
def integerPower (a b : Int) : Except Error Result :=
  if b < 0 then do floatPower (← toFloat (.int a)) (← toFloat (.int b))
  else if a = 0 ∨ a = 1 then .ok (.int (if b = 0 then 1 else a))
  else if a = -1 then .ok (.int (if b % 2 = 0 then 1 else -1))
  else .ok (.int (Int.pow a b.toNat))

/-- The quotient of two integers, rounded once. -/
def integerQuotient (a b : Int) : Except Error Result :=
  if b = 0 then .error .integerByZero
  else
    match Binary64.ofQuotient? a b with
    | some x => .ok (.float x)
    | none => .error .quotientTooLarge

/-- The remainder of two `Float`s. -/
def floatRemainder (x y : Float) : Except Error Result :=
  match Binary64.remainder? x y with
  | some r => .ok (.float r)
  | none => .error .domain

/-- An operation on two `Float`s. -/
def onFloats (op : Operator) (x y : Float) : Except Error Result :=
  match op with
  | .add => .ok (.float (x + y))
  | .sub => .ok (.float (x - y))
  | .mul => .ok (.float (x * y))
  | .div => if y == 0 then .error .floatByZero else .ok (.float (x / y))
  | .rem => floatRemainder x y
  | .pow => floatPower x y

/-- An operation on two integers. -/
def onInts (op : Operator) (a b : Int) : Except Error Result :=
  match op with
  | .add => .ok (.int (a + b))
  | .sub => .ok (.int (a - b))
  | .mul => .ok (.int (a * b))
  | .div => integerQuotient a b
  | .rem => do floatRemainder (← toFloat (.int a)) (← toFloat (.int b))
  | .pow => integerPower a b

/-- An operation on two numbers. -/
def apply (op : Operator) (a b : Number) : Except Error Result :=
  match a, b with
  | .int m, .int n => onInts op m n
  | a, b => do onFloats op (← toFloat a) (← toFloat b)

/-- A number with the opposite sign. -/
def negate : Number → Number
  | .int n => .int (-n)
  | .float x => .float (-x)

end Arithmetic

end OptionTypes
