import OptionTypes.Value

/-!
# Reading JSON

A strict reader: one value between blanks, nothing else. Beyond the standard it knows `NaN`,
`Infinity` and `-Infinity`, and a string may hold a surrogate alone, written as an escape. A
failure names the rule that is broken and where.

The depth of a document is bounded by a fuel that its length provides, so every function here is
structural.
-/

namespace OptionTypes.Json

/-- The rule of the format that a document breaks. -/
inductive Violation where
  | byteOrderMark
  | value
  | propertyName
  | colon
  | comma
  | controlCharacter
  | unterminated
  | escape
  | unicodeEscape
  | extraData
  deriving DecidableEq

namespace Violation

/-- The wording of a rule. -/
def message : Violation → String
  | byteOrderMark => "Unexpected UTF-8 BOM (decode using utf-8-sig)"
  | value => "Expecting value"
  | propertyName => "Expecting property name enclosed in double quotes"
  | colon => "Expecting ':' delimiter"
  | comma => "Expecting ',' delimiter"
  | controlCharacter => "Invalid control character at"
  | unterminated => "Unterminated string starting at"
  | escape => "Invalid \\escape"
  | unicodeEscape => "Invalid \\uXXXX escape"
  | extraData => "Extra data"

end Violation

/-- Why a document is not read: a broken rule at a position, or a number too long to be read. -/
inductive ReadError where
  | violation (rule : Violation) (position : Nat)
  | number (e : Reading.Error)
  deriving DecidableEq

/-- The wording of a broken rule, with line and column of its position in the document. -/
def describe (document : Text) (rule : Violation) (position : Nat) : Text :=
  let before := document.take position
  let line := before.count (.char '\n') + 1
  let column := (before.reverse.takeWhile (· != .char '\n')).length + 1
  Text.ofString rule.message ++ ": line " ++ Text.ofNat line ++ " column " ++ Text.ofNat column
    ++ " (char " ++ Text.ofNat position ++ ")"

/-- A place in a document: what is left, and how many code points precede it. -/
structure Place where
  rest : Text
  position : Nat

namespace Place

/-- The next code point as a character. -/
def peek (p : Place) : Option Char := p.rest.head?.bind CodePoint.char?

/-- The place `n` code points further on. -/
def skip (n : Nat) (p : Place) : Place := ⟨p.rest.drop n, p.position + n⟩

/-- Whether a code point is a blank of the format. -/
def isBlank : CodePoint → Bool
  | .char c => c == ' ' || c == '\t' || c == '\n' || c == '\r'
  | _ => false

/-- The place after the blanks. -/
def skipBlanks (p : Place) : Place := p.skip (p.rest.takeWhile isBlank).length

/-- A broken rule at this place. -/
def fail {α : Type} (p : Place) (rule : Violation) : Except ReadError α :=
  .error (.violation rule p.position)

end Place

/-- The number of four hexadecimal digits at the start of a text that has at least five code
points. -/
def fourDigits? (t : Text) : Option Nat :=
  let digits := t.take 4
  if digits.length = 4 ∧ 4 < t.length ∧ digits.all (·.is Digit.isHex) then
    some (Digit.ofHex (digits.filterMap CodePoint.char?))
  else none

/-- What a one-letter escape stands for. -/
def simpleEscape? : Char → Option Char
  | '"' => some '"'
  | '\\' => some '\\'
  | '/' => some '/'
  | 'b' => some '\x08'
  | 'f' => some '\x0c'
  | 'n' => some '\n'
  | 'r' => some '\r'
  | 't' => some '\t'
  | _ => none

/-- The character that a leading surrogate and the escape after it form, if they do. `rest` begins
after the four digits of the first escape. -/
def joined? (high : Nat) (rest : Text) (position : Nat) : Except ReadError (Option CodePoint) :=
  match rest with
  | .char '\\' :: .char 'u' :: more =>
    if 0xD800 ≤ high ∧ high < 0xDC00 ∧ 4 < more.length then
      match fourDigits? more with
      | none => .error (.violation .unicodeEscape (position + 1))
      | some low =>
        if 0xDC00 ≤ low ∧ low < 0xE000 then
          .ok (CodePoint.ofNat? (0x10000 + (high - 0xD800) * 0x400 + (low - 0xDC00)))
        else .ok none
    else .ok none
  | _ => .ok none

/-- The text of a string up to its closing quote, and the place after it. `start` is the position
of the opening quote, `skip` counts code points that belong to the escape read last. -/
def stringFrom (start : Nat) : Nat → Nat → Text → Except ReadError (Text × Place)
  | _, _, [] => .error (.violation .unterminated start)
  | skip + 1, position, _ :: rest => stringFrom start skip (position + 1) rest
  | 0, position, c :: rest =>
    match c with
    | .char '"' => .ok ([], ⟨rest, position + 1⟩)
    | .char '\\' =>
      match rest with
      | [] => .error (.violation .unterminated start)
      | .char 'u' :: more =>
        match fourDigits? more with
        | none => .error (.violation .unicodeEscape (position + 1))
        | some n => do
          match ← joined? n (more.drop 4) (position + 6) with
          | some joined =>
            let (t, p) ← stringFrom start 11 (position + 1) rest
            return (joined :: t, p)
          | none =>
            let (t, p) ← stringFrom start 5 (position + 1) rest
            return ((CodePoint.ofNat? n).toList ++ t, p)
      | e :: _ =>
        match e.char?.bind simpleEscape? with
        | none => .error (.violation .escape position)
        | some d => do
          let (t, p) ← stringFrom start 1 (position + 1) rest
          return (.char d :: t, p)
    | c => do
      if c.value < 0x20 then .error (.violation .controlCharacter position)
      else
        let (t, p) ← stringFrom start 0 (position + 1) rest
        return (c :: t, p)

/-- The ASCII digits at the start of the characters. -/
def digits (cs : List Char) : List Char := cs.takeWhile Reading.isDigit

/-- The fraction at the start of the characters, with its point. -/
def fraction : List Char → List Char
  | '.' :: rest =>
    let ds := digits rest
    if ds.isEmpty then [] else '.' :: ds
  | _ => []

/-- The exponent at the start of the characters, with its letter. -/
def exponent : List Char → List Char
  | e :: rest =>
    if e = 'e' ∨ e = 'E' then
      let sign := (rest.take 1).filter fun c => c == '+' || c == '-'
      let ds := digits (rest.drop sign.length)
      if ds.isEmpty then [] else e :: sign ++ ds
    else []
  | [] => []

/-- The number at the start of the characters and its length, if there is one. -/
def number? (cs : List Char) : Option (Except Reading.Error Number × Nat) :=
  let sign := (cs.take 1).filter (· == '-')
  let unsigned := cs.drop sign.length
  let whole :=
    match unsigned with
    | '0' :: _ => ['0']
    | cs => digits cs
  if whole.isEmpty then none
  else
    let rest := unsigned.drop whole.length
    let frac := fraction rest
    let exp := exponent (rest.drop frac.length)
    let all := sign ++ whole ++ frac ++ exp
    let number :=
      if frac.isEmpty && exp.isEmpty then (Reading.integer 10 (Text.ofChars all)).map Number.int
      else (Reading.float (Text.ofChars all)).map Number.float
    some (number, all.length)

/-- The characters at the start of a text that may belong to a number. -/
def numberChars (t : Text) : List Char :=
  t.map (fun c => c.char?.getD ' ') |>.takeWhile fun c =>
    Reading.isDigit c || "+-.eE".toList.contains c

/-- Names of values and the values that they denote. -/
def names : List (String × Value) :=
  [("null", .null), ("true", .bool true), ("false", .bool false),
    ("NaN", .number (.float (0.0 / 0.0))),
    ("Infinity", .number (.float (Binary64.ofMagnitude false Binary64.infinityBits))),
    ("-Infinity", .number (.float (Binary64.ofMagnitude true Binary64.infinityBits)))]

/-- A named value or a number. -/
def scalar (p : Place) : Except ReadError (Value × Place) :=
  match names.find? fun (name, _) => Text.startsWith p.rest name with
  | some (name, v) => .ok (v, p.skip name.length)
  | none =>
    match number? (numberChars p.rest) with
    | none => p.fail .value
    | some (.error e, _) => .error (.number e)
    | some (.ok n, length) => .ok (.number n, p.skip length)

mutual

/-- The value at a place, and the place after it. -/
def valueAt : Nat → Place → Except ReadError (Value × Place)
  | 0, p => p.fail .value
  | fuel + 1, p =>
    match p.peek with
    | some '"' => do
      let (t, q) ← stringFrom p.position 0 (p.position + 1) (p.rest.drop 1)
      return (.text t, q)
    | some '[' =>
      let q := (p.skip 1).skipBlanks
      if q.peek = some ']' then .ok (.list [], q.skip 1)
      else do
        let (items, r) ← itemsAt fuel q
        return (.list items, r)
    | some '\x7b' =>
      let q := (p.skip 1).skipBlanks
      if q.peek = some '\x7d' then .ok (.object [], q.skip 1)
      else do
        let (members, r) ← membersAt fuel [] q
        return (.object members, r)
    | _ => scalar p

/-- The items of a list up to its closing bracket. -/
def itemsAt : Nat → Place → Except ReadError (List Value × Place)
  | 0, p => p.fail .value
  | fuel + 1, p => do
    let (item, q) ← valueAt fuel p
    let q := q.skipBlanks
    match q.peek with
    | some ']' => return ([item], q.skip 1)
    | some ',' =>
      let (items, r) ← itemsAt fuel (q.skip 1).skipBlanks
      return (item :: items, r)
    | _ => q.fail .comma

/-- The members of an object up to its closing brace, written over those read before. -/
def membersAt : Nat → Members → Place → Except ReadError (Members × Place)
  | 0, _, p => p.fail .value
  | fuel + 1, before, p => do
    if p.peek ≠ some '"' then p.fail .propertyName
    else
      let (name, q) ← stringFrom p.position 0 (p.position + 1) (p.rest.drop 1)
      let q := q.skipBlanks
      if q.peek ≠ some ':' then q.fail .colon
      else
        let (v, q) ← valueAt fuel (q.skip 1).skipBlanks
        let members := before.insert (.text name) v
        let q := q.skipBlanks
        match q.peek with
        | some '\x7d' => return (members, q.skip 1)
        | some ',' => membersAt fuel members (q.skip 1).skipBlanks
        | _ => q.fail .comma

end

/-- The value of a document. -/
def read (document : Text) : Except ReadError Value := do
  if document.head?.map CodePoint.value = some 0xFEFF then
    .error (.violation .byteOrderMark 0)
  else
    let (v, p) ← valueAt (2 * document.length + 2) (Place.skipBlanks ⟨document, 0⟩)
    let p := p.skipBlanks
    if p.rest.isEmpty then return v else p.fail .extraData

end OptionTypes.Json
