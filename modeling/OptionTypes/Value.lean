import OptionTypes.Number.Literal

/-!
# Values

What a literal expression denotes and what a configuration file holds. Objects keep the order in
which their members were first written; writing a member again replaces its value in place.

Keys are texts in scripts. A configuration file may have other scalars as keys, and there `1`,
`1.0` and `true` are one key.
-/

namespace OptionTypes

/-- The key of an object member. -/
inductive Key where
  | text (t : Text)
  | null
  | bool (b : Bool)
  | number (n : Number)
  | foreign (type : String) (shown : Text)
  deriving DecidableEq

namespace Key

/-- The number that a key counts as when keys are compared. -/
def number? : Key → Option Number
  | .bool b => some (.int (if b then 1 else 0))
  | .number n => some n.normal
  | _ => none

/-- Whether two keys name the same member. -/
def same (a b : Key) : Bool :=
  match a, b with
  | .text s, .text t => s = t
  | .null, .null => true
  | .foreign k s, .foreign l t => k = l ∧ s = t
  | a, b =>
    match a.number?, b.number? with
    | some m, some n => m = n
    | _, _ => false

end Key

/-- A value: a scalar, a list, an object, the source of a function, or a scalar of a further type
of which only the type's name and the text are kept. -/
inductive Value where
  | null
  | bool (b : Bool)
  | number (n : Number)
  | complex (re im : Float)
  | text (t : Text)
  | list (items : List Value)
  | object (members : List (Key × Value))
  | function (source : Text)
  | foreign (type : String) (shown : Text)
  deriving Inhabited

/-- The members of an object, in order. -/
abbrev Members := List (Key × Value)

namespace Members

/-- Write a member: in place if its key is there already, at the end otherwise. -/
def insert (k : Key) (v : Value) : Members → Members
  | [] => [(k, v)]
  | (k0, v0) :: rest => if k0.same k then (k0, v) :: rest else (k0, v0) :: insert k v rest

/-- Write members one after the other. -/
def insertAll (ms new : Members) : Members := new.foldl (fun acc (k, v) => insert k v acc) ms

/-- The value of a key. -/
def get? (k : Key) : Members → Option Value
  | [] => none
  | (k0, v0) :: rest => if k0.same k then some v0 else get? k rest

/-- The value of a text key. -/
def find? (name : Text) (ms : Members) : Option Value := get? (.text name) ms

/-- Members without the one of a key. -/
def erase (k : Key) (ms : Members) : Members := ms.filter fun (k0, _) => !k0.same k

end Members

namespace Value

/-- Whether a value is null. -/
def isNull : Value → Bool
  | null => true
  | _ => false

/-- An integer. -/
def int (n : Int) : Value := .number (.int n)

/-- A text given as a string. -/
def str (s : String) : Value := .text s

/-- An object with text keys. -/
def record (fields : List (String × Value)) : Value :=
  .object (fields.map fun (k, v) => (.text k, v))

/-- The name of a value's type, as messages give it. -/
def typeName : Value → String
  | null => "NoneType"
  | bool _ => "bool"
  | number (.int _) => "int"
  | number (.float _) => "float"
  | complex .. => "complex"
  | text _ => "str"
  | list _ => "list"
  | object _ => "dict"
  | function _ => "JsFunction"
  | foreign type _ => type

end Value

end OptionTypes
