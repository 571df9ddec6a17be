import OptionTypes.Yaml.Date

/-!
# Kinds of YAML nodes

A tag names the kind of a node. A plain scalar without a tag shows its kind by its form: `yes` is a
truth value, `0x1F` an integer, `1.5` a number, `2020-01-31` a date.

Left out are the kinds that no setting can have: binary data, sets, and lists of pairs, ordered or
not. A node with one of their tags is of an unknown kind here, and so is not read. An alias inside
the node that it names, which would make a value without an end, is not read either, nor is the
stand-in for a value where a tag makes a scalar of it.
-/

namespace OptionTypes.Yaml

/-- The kind of a node. -/
inductive Kind where
  | null
  | truth
  | integer
  | float
  | date
  /-- The key of a mapping that is merged into the one around it. -/
  | merge
  /-- The key of the value that a mapping stands for. -/
  | standIn
  | text
  | list
  | object
  | unknown
  deriving DecidableEq

namespace Kind

/-- What the names of the common kinds begin with. -/
def common : List Char := "tag:yaml.org,2002:".toList

/-- The kinds that a tag may name. -/
def names : List (String × Kind) :=
  [("null", .null), ("bool", .truth), ("int", .integer), ("float", .float), ("timestamp", .date),
    ("merge", .merge), ("value", .standIn), ("str", .text), ("seq", .list), ("map", .object)]

/-- The kind that a tag names. -/
def ofTag (tag : List Char) : Kind :=
  match names.find? fun (name, _) => tag = common ++ name.toList with
  | some (_, kind) => kind
  | none => .unknown

/-- The words for null. -/
def nullWords : List String := ["", "~", "null", "Null", "NULL"]

/-- The words for truth values. -/
def truthWords : List (String × Bool) :=
  [("yes", true), ("Yes", true), ("YES", true), ("no", false), ("No", false), ("NO", false),
    ("true", true), ("True", true), ("TRUE", true), ("false", false), ("False", false),
    ("FALSE", false), ("on", true), ("On", true), ("ON", true), ("off", false), ("Off", false),
    ("OFF", false)]

/-- Characters without a sign in front. -/
def unsigned : List Char → List Char
  | '-' :: rest => rest
  | '+' :: rest => rest
  | cs => cs

/-- Whether characters are not empty and all have a property. -/
def someAll (p : Char → Bool) (cs : List Char) : Bool := !cs.isEmpty && cs.all p

/-- Whether a character is a digit or an underscore. -/
def isSpacedDigit (c : Char) : Bool := c.isDigit || c == '_'

/-- Whether characters are digits and underscores that begin with a digit. -/
def isSpacedNumber : List Char → Bool
  | [] => false
  | c :: rest => c.isDigit && rest.all isSpacedDigit

/-- Whether characters are one or two digits that count up to sixty. -/
def isSixtieth : List Char → Bool
  | [c] => c.isDigit
  | [c, d] => '0' ≤ c && c ≤ '5' && d.isDigit
  | _ => false

/-- The pieces between colons. -/
def pieces : List Char → List (List Char)
  | [] => [[]]
  | ':' :: rest => [] :: pieces rest
  | c :: rest =>
    match pieces rest with
    | [] => [[c]]
    | piece :: more => (c :: piece) :: more

/-- Whether characters are a number and sixtieths after colons, at least one. -/
def isSexagesimal (cs : List Char) : Bool :=
  match pieces cs with
  | first :: second :: more => isSpacedNumber first && (second :: more).all isSixtieth
  | _ => false

/-- Whether characters are an integer. -/
def isInteger (cs : List Char) : Bool :=
  match unsigned cs with
  | ['0'] => true
  | '0' :: 'b' :: rest => someAll (fun c => c == '0' || c == '1' || c == '_') rest
  | '0' :: 'x' :: rest => someAll (fun c => Digit.isHex c || c == '_') rest
  | '0' :: rest => someAll (fun c => Digit.isOctal c || c == '_') rest
  | cs => isSpacedNumber cs || isSexagesimal cs

/-- Whether characters are an exponent with a sign, or nothing. -/
def isExponent : List Char → Bool
  | [] => true
  | e :: sign :: rest =>
    (e == 'e' || e == 'E') && (sign == '+' || sign == '-') && someAll Char.isDigit rest
  | _ => false

/-- Whether characters are a number with a point. -/
def isFloat (cs : List Char) : Bool :=
  let body := unsigned cs
  let whole := body.takeWhile (· != '.')
  match body.dropWhile (· != '.') with
  | [] => false
  | _ :: rest =>
    let fraction := rest.takeWhile isSpacedDigit
    let exponent := rest.dropWhile isSpacedDigit
    let word := String.ofList rest
    if whole.isEmpty then
      ["inf", "Inf", "INF"].contains word
        || (body.length = cs.length
          && (["nan", "NaN", "NAN"].contains word
            || (isSpacedNumber fraction && isExponent exponent)))
    else (isSpacedNumber whole && isExponent exponent) || (isSexagesimal whole && exponent.isEmpty)

/-- The kind of a plain scalar without a tag. -/
def ofPlain (cs : List Char) : Kind :=
  let word := String.ofList cs
  if nullWords.contains word then .null
  else if truthWords.any fun (w, _) => w = word then .truth
  else if isFloat cs then .float
  else if isInteger cs then .integer
  else if word = "<<" then .merge
  else if word = "=" then .standIn
  else if Date.isWritten cs then .date
  else .text

end Kind

end OptionTypes.Yaml
