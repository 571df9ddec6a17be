import OptionTypes.Value.Conversion

/-!
# Checking the shape of values

A value from outside is checked before it becomes a field of a structure. A check either gives the
field or the list of issues, each with the path to the offending value and the rule that it
breaks. All fields of a structure are checked, so that every issue is listed.

The checks are lenient where a reading is obvious: `0` and `1` are truth values, a text may write a
number, an integral `Float` is an integer.
-/

namespace OptionTypes.Check

/-- The shapes between which a field may choose. -/
inductive Shape where
  | truth
  | text
  | texts
  deriving DecidableEq

/-- One step from a value to a part of it. -/
inductive Step where
  | field (name : String)
  | key (k : Key)
  | index (n : Nat)
  /-- The key of a member itself, not its value. -/
  | keyItself
  | variant (shape : Shape)
  deriving DecidableEq

/-- The rule that a value breaks. -/
inductive Rule where
  | text
  | encodableText
  | list
  | object
  | truth
  | readableTruth
  | integer
  | readableInteger
  | integerSize
  | wholeNumber
  | finiteNumber
  | float
  | readableFloat
  | above
  | atLeast
  | textKey
  deriving DecidableEq

/-- A broken rule and the path to the value that breaks it. -/
structure Issue where
  path : List Step
  rule : Rule
  deriving DecidableEq

/-- The result of a check. -/
abbrev Checked (α : Type) := Except (List Issue) α

/-- A single issue at the value itself. -/
def reject {α : Type} (rule : Rule) : Checked α := .error [⟨[], rule⟩]

/-- Issues of a part, located in the whole. -/
def located (step : Step) (issues : List Issue) : List Issue :=
  issues.map fun issue => { issue with path := step :: issue.path }

/-- The check of a part, its issues located in the whole. -/
def within {α : Type} (step : Step) (c : Checked α) : Checked α := c.mapError (located step)

/-- Two checks, with the issues of both. -/
def both {α β : Type} (a : Checked α) (b : Checked β) : Checked (α × β) :=
  match a, b with
  | .ok x, .ok y => .ok (x, y)
  | .error es, .ok _ => .error es
  | .ok _, .error es => .error es
  | .error es, .error fs => .error (es ++ fs)

/-- A check that continues with the result of another and keeps the issues of both. -/
def andAlso {α β γ : Type} (f : α → β → γ) (a : Checked α) (b : Checked β) : Checked γ :=
  (both a b).map fun (x, y) => f x y

/-- The checks of the items of a list, from position `n` on. -/
def itemsFrom {α : Type} (check : Value → Checked α) : Nat → List Value → Checked (List α)
  | _, [] => .ok []
  | n, v :: vs => andAlso List.cons (within (.index n) (check v)) (itemsFrom check (n + 1) vs)

/-- A text. -/
def text : Value → Checked Text
  | .text t => .ok t
  | _ => reject .text

/-- A text, or nothing for null. -/
def text? : Value → Checked (Option Text)
  | .null => .ok none
  | v => (text v).map some

/-- A list whose items are left unchecked. -/
def list : Value → Checked (List Value)
  | .list items => .ok items
  | _ => reject .list

/-- A list of texts. -/
def texts (v : Value) : Checked (List Text) := do itemsFrom text 0 (← list v)

/-- The members of an object with text keys and checked values. -/
def members {α : Type} (check : Value → Checked α) : Members → Checked (List (Text × α))
  | [] => .ok []
  | (k, v) :: rest =>
    let name : Checked Text :=
      match k with
      | .text t => .ok t
      | _ => within .keyItself (reject .text)
    andAlso List.cons (within (.key k) (both name (check v))) (members check rest)

/-- An object with text keys and checked values. -/
def object {α : Type} (check : Value → Checked α) : Value → Checked (List (Text × α))
  | .object ms => members check ms
  | _ => reject .object

/-- Whether an integer fits a signed 64-bit word. -/
def isWord (n : Int) : Bool := -Int.pow 2 63 ≤ n && n < Int.pow 2 63

/-- The integer of a number, if it is integral and fits a word. -/
def word? (n : Number) : Option Int :=
  match n.normal with
  | .int n => if isWord n then some n else none
  | .float _ => none

/-- A truth value; the numbers zero and one count. -/
def truth : Value → Checked Bool
  | .bool b => .ok b
  | .number n =>
    match word? n with
    | some 0 => .ok false
    | some 1 => .ok true
    | some _ => reject .readableTruth
    | none => reject .truth
  | _ => reject .truth

/-- Whether a blank is trimmed before a number is read: the separators U+001C to U+001F are not. -/
def isTrimmed (c : Char) : Bool :=
  Blank.isBlankNumber c.toNat && !(0x1C ≤ c.toNat && c.toNat ≤ 0x1F)

/-- The characters of a text that is to be read as a number. -/
def characters (t : Text) : Checked (List Char) :=
  match Text.chars? t with
  | some cs => .ok cs
  | none => reject .encodableText

/-- Characters without the blanks around them. -/
def trim (cs : List Char) : List Char :=
  ((cs.dropWhile isTrimmed).reverse.dropWhile isTrimmed).reverse

/-- Digits without zeros and underscores before the first other digit. One digit is kept. -/
def withoutLeadingZeros : List Char → Option (List Char)
  | '0' :: rest => go '0' rest
  | c :: rest => if c = '-' ∨ ('1' ≤ c ∧ c ≤ '9') then some (c :: rest) else none
  | [] => none
where
  /-- `last` is the character before the rest. -/
  go (last : Char) : List Char → Option (List Char)
    | [] => some [last]
    | c :: rest =>
      if c = '0' ∨ c = '_' then go c rest
      else if c = '-' ∨ ('1' ≤ c ∧ c ≤ '9') then some (c :: rest)
      else if c = '.' then some (last :: c :: rest)
      else none

/-- Digits without a fraction, if the fraction is zeros. -/
def withoutZeroFraction (cs : List Char) : Option (List Char) :=
  let whole := cs.takeWhile (· != '.')
  match cs.drop whole.length with
  | [] => some cs
  | _ :: fraction =>
    if !fraction.isEmpty && fraction.all (· == '0') then some whole else none

/-- Characters without single underscores between others. -/
def withoutUnderscores (cs : List Char) : Option (List Char) :=
  if cs.head? = some '_' ∨ cs.getLast? = some '_' then none
  else if (cs.zip (cs.drop 1)).any fun (a, b) => a = '_' ∧ b = '_' then none
  else some (cs.filter (· != '_'))

/-- The integer that characters write, with an optional sign, zeros in front and a zero
fraction. -/
def integerOf? (cs : List Char) : Option (List Char) := do
  let unsigned ←
    match cs with
    | '+' :: '-' :: _ => none
    | '+' :: rest => some rest
    | cs => some cs
  let whole ← withoutZeroFraction (← withoutLeadingZeros unsigned)
  let digits ← if whole.take 2 = ['-', '_'] then none else withoutUnderscores whole
  let magnitude := if digits.head? = some '-' then digits.drop 1 else digits
  if magnitude.isEmpty || !magnitude.all Reading.isDigit then none else some digits

/-- An integer. Truth values, integral floats and texts that write an integer are accepted. -/
def integer : Value → Checked Int
  | .bool b => .ok (if b then 1 else 0)
  | .number (.int n) => .ok n
  | .number (.float x) =>
    if x.isNaN || x.isInf then reject .finiteNumber
    else
      match (Number.float x).normal with
      | .float _ => reject .wholeNumber
      | .int n => if -Int.pow 2 63 < n && n < Int.pow 2 63 then .ok n else reject .integerSize
  | .text t => do
    let cs ← characters t
    match integerOf? (trim cs) with
    | none => reject .readableInteger
    | some digits =>
      if 4300 < digits.length then reject .integerSize
      else
        let n : Int := Digit.number 10 ((digits.filter (· != '-')).map Reading.digitValue)
        return if digits.head? = some '-' then -n else n
  | _ => reject .integer

/-- An integer that is at least `low`. -/
def integerFrom (low : Nat) (v : Value) : Checked Nat := do
  let n ← integer v
  if n < low then reject .atLeast else return n.toNat

/-- A `Float`. Integers, truth values and texts that write a number are accepted, with blanks around
it or with underscores in it. -/
def float : Value → Checked Float
  | .bool b => .ok (if b then 1 else 0)
  | .number (.float x) => .ok x
  | .number (.int n) =>
    match Binary64.ofInt? n with
    | some x => .ok x
    | none => reject .float
  | .text t => do
    let cs ← characters t
    match Reading.float? (trim cs) <|> (withoutUnderscores cs).bind Reading.float? with
    | some x => return x
    | none => reject .readableFloat
  | _ => reject .float

/-- A `Float` above zero. -/
def positive (v : Value) : Checked Float := do
  let x ← float v
  if 0 < x then return x else reject .above

end OptionTypes.Check
