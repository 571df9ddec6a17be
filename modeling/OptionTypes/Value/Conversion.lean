import OptionTypes.Number.Shortest
import OptionTypes.Value

/-!
# Conversions of values

The text and the truth of a value, by the rules of the script that it comes from: `null` and
`undefined` are one value, a list is the text of its items between commas, an object is only
named, a function is its source. Containers are always true.
-/

namespace OptionTypes.Value

/-- The text of a `Float`, without the fraction `.0`. -/
def floatTextPlain (x : Float) : Text :=
  let t := Shortest.write x
  Text.ofString (if t.endsWith ".0" then (t.dropEnd 2).toString else t)

/-- The text of a complex number. A positive zero as real part is left out. -/
def complexText (re im : Float) : Text :=
  let imaginary := floatTextPlain im
  if re == 0 && re.toBits == 0 then imaginary ++ "j"
  else
    let sign : Text := if imaginary.head? = some (.char '-') then [] else "+"
    "(" ++ floatTextPlain re ++ sign ++ imaginary ++ "j)"

/-- The text of a number. -/
def numberText (n : Number) : Except Reading.Error Text :=
  match n.normal with
  | .int n => Reading.writeInteger n
  | .float x =>
    .ok (if x.isNaN then "NaN" else if x.isInf then (if 0 < x then "Infinity" else "-Infinity")
      else Text.ofString (Shortest.write x))

mutual

/-- The text of a value. Integers too long to be written have none. -/
def toText : Value → Except Reading.Error Text
  | null => .ok "undefined"
  | bool b => .ok (if b then "true" else "false")
  | number n => numberText n
  | complex re im => .ok (complexText re im)
  | text t => .ok t
  | list items => itemsToText items
  | object _ => .ok "[object Object]"
  | function source => .ok source
  | foreign _ shown => .ok shown

/-- The text of the items of a list between commas, nothing standing for null. -/
def itemsToText : List Value → Except Reading.Error Text
  | [] => .ok []
  | item :: items => do
    let head ← if item.isNull then .ok [] else toText item
    if items.isEmpty then return head
    else return head ++ "," ++ (← itemsToText items)

end

/-- Whether a number counts as true. -/
def numberTruth : Number → Bool
  | .int n => n != 0
  | .float x => !x.isNaN && x != 0

/-- Whether a value counts as true. -/
def truth : Value → Bool
  | null => false
  | bool b => b
  | number n => numberTruth n
  | complex re im => re != 0 || im != 0
  | text t => !t.isEmpty
  | list _ | object _ | function _ | foreign .. => true

end OptionTypes.Value
