import OptionTypes.Text.Case
import OptionTypes.Value
import OptionTypes.Yaml.Node

/-!
# Values of YAML documents

The value of a document. Scalars are read by their kind; the members of a mapping under the merge
key come before its own, which replace them in place. A collection is no key.
-/

namespace OptionTypes.Yaml

/-- A malformed document. -/
def malformed {α : Type} : Except Error α := .error .malformed

/-- Text without underscores. -/
def withoutSpacers (t : Text) : Text := t.filter (· != .char '_')

/-- A sign in front of a text and the text without it. -/
def splitSign : Text → Bool × Text
  | .char '-' :: rest => (true, rest)
  | .char '+' :: rest => (false, rest)
  | t => (false, t)

/-- The integer that a text writes in a base. -/
def integerIn (base : Nat) (t : Text) : Except Error Int := (Reading.integer base t).mapError .number

/-- The sum of pieces that count sixty times as much each, the last one counting once. -/
def sixties {α : Type} (zero : α) (add : α → α → Nat → α) (pieces : List α) : α :=
  (pieces.reverse.foldl (fun (sum, weight) x => (add sum x weight, weight * 60)) (zero, 1)).1

/-- The integer that a scalar writes. -/
def integer (t : Text) : Except Error Int := do
  let (negative, body) := splitSign (withoutSpacers t)
  let magnitude : Int ←
    match body with
    | [] => .error (.misfit .empty)
    | [.char '0'] => pure 0
    | .char '0' :: .char 'b' :: rest => integerIn 2 rest
    | .char '0' :: .char 'x' :: rest => integerIn 16 rest
    | .char '0' :: _ => integerIn 8 body
    | _ =>
      if body.contains (.char ':') then
        let parts ← (Text.splitOn (.char ':') body).mapM (integerIn 10)
        pure (sixties 0 (fun (sum x : Int) weight => sum + x * weight) parts)
      else integerIn 10 body
  return if negative then -magnitude else magnitude

/-- The floating-point number that a text writes. -/
def floatOf (t : Text) : Except Error Float := (Reading.float t).mapError .number

/-- The floating-point number that a scalar writes. -/
def float (t : Text) : Except Error Float := do
  let all := withoutSpacers t
  let (negative, body) := splitSign (Case.lower all)
  let magnitude : Float ←
    if all.isEmpty then .error (.misfit .empty)
    else if body = Text.ofString ".inf" then pure (1.0 / 0.0)
    else if body = Text.ofString ".nan" then pure (0.0 / 0.0)
    else if body.contains (.char ':') then
      let parts ← (Text.splitOn (.char ':') body).mapM floatOf
      if (Binary64.ofInt? (Nat.pow 60 (parts.length - 1))).isNone then
        .error (.misfit .tooManyPieces)
      else pure (sixties 0.0 (fun (sum x : Float) weight => sum + x * Float.ofNat weight) parts)
    else floatOf body
  return if negative then -magnitude else magnitude

/-- The value that a scalar of a kind denotes. -/
def scalarValue (kind : Kind) (t : Text) : Except Error Value :=
  match kind with
  | .null => .ok .null
  | .truth =>
    match Kind.truthWords.find? fun (w, _) => Text.ofString w = Case.lower t with
    | some (_, b) => .ok (.bool b)
    | none => .error (.misfit (.noTruth (Case.lower t)))
  | .integer => do return .int (← integer t)
  | .float => do return .number (.float (← float t))
  | .date =>
    match (Text.chars? t).bind Date.parse? with
    | none => .error (.misfit .noDate)
    | some d =>
      match d.fault? with
      | some fault => .error (.date fault)
      | none => .ok (.foreign d.typeName (Text.ofString d.text))
  | .text => .ok (.text t)
  | _ => malformed

/-- The key that a value is. -/
def keyOf : Value → Except Error Key
  | .text t => .ok (.text t)
  | .null => .ok .null
  | .bool b => .ok (.bool b)
  | .number n => .ok (.number n)
  | .foreign type shown => .ok (.foreign type shown)
  | _ => malformed

/-- Whether a node is a scalar of a kind. -/
def isOf (kind : Kind) : Node → Bool
  | .scalar k _ => k = kind
  | _ => false

/-- The text of a scalar. -/
def textOf : Node → Text
  | .scalar _ t => t
  | _ => []

mutual

/-- The value of a node. -/
def valueOf : Node → Except Error Value
  | .scalar kind t => scalarValue kind t
  | .list kind items => if kind = .list then do return .list (← valuesOf items) else malformed
  | .object kind members =>
    if kind = .object then do
      let (merged, own) ← membersOf members
      return .object (Members.insertAll [] (merged ++ own))
    else malformed

/-- The values of nodes. -/
def valuesOf : List Node → Except Error (List Value)
  | [] => .ok []
  | n :: rest => do return (← valueOf n) :: (← valuesOf rest)

/-- The members that are merged into a mapping, and its own. -/
def membersOf : List (Node × Node) → Except Error (Members × Members)
  | [] => .ok ([], [])
  | (k, v) :: rest => do
    if isOf .merge k then
      let first ← mergedOf v
      let (merged, own) ← membersOf rest
      return (first ++ merged, own)
    else
      let key ← if isOf .standIn k then pure (.text (textOf k)) else keyOf (← valueOf k)
      let value ← valueOf v
      let (merged, own) ← membersOf rest
      return (merged, (key, value) :: own)

/-- The members of a mapping, or those of mappings in a list, the last mapping first. -/
def mergedOf : Node → Except Error Members
  | .object _ members => do
    let (merged, own) ← membersOf members
    return merged ++ own
  | .list _ items => mergedOfAll items
  | .scalar .. => malformed

/-- The members of mappings, the last mapping first. -/
def mergedOfAll : List Node → Except Error Members
  | [] => .ok []
  | n :: rest => do
    let first ← mappingMembers n
    return (← mergedOfAll rest) ++ first

/-- The members of a mapping. -/
def mappingMembers : Node → Except Error Members
  | .object _ members => do
    let (merged, own) ← membersOf members
    return merged ++ own
  | _ => malformed

end

/-- The value of a document, null if there is none. -/
def read (cs : List Char) : Except Error Value := do
  match ← Node.ofTokens (tokens cs) with
  | none => return .null
  | some root => valueOf root

end OptionTypes.Yaml
