import OptionTypes.Yaml.Kind
import OptionTypes.Yaml.Token

/-!
# Nodes of YAML documents

A document is one node: a scalar, a list, or an object whose keys are nodes as well. `Node.ofTokens`
builds the node of the only document that tokens hold; without a document there is none.

A name that an anchor gave to a node stands for that node from there on; no name is given twice, and
a node does not contain itself.

The functions that build nodes are structural on a number of rounds, which the number of tokens
bounds.
-/

namespace OptionTypes.Yaml

/-- A node with its kind. -/
inductive Node where
  | scalar (kind : Kind) (text : Text)
  | list (kind : Kind) (items : List Node)
  | object (kind : Kind) (members : List (Node × Node))

namespace Node

/-- The node where nothing is written. -/
def empty : Node := .scalar .null []

/-- What is known while nodes are built: the tokens left, what tag handles stand for, and the nodes
with names. A node that is not finished has a name already. -/
structure State where
  tokens : List Token
  handles : List (List Char × List Char)
  anchors : List (List Char × Option Node)

/-- Building from tokens. -/
abbrev Build := StateT State (Except Error)

/-- The document is malformed. -/
def fail {α : Type} : Build α := fun _ => .error .malformed

/-- The next token, if there is one. -/
def peek : Build (Option Token) := fun s =>
  match s.tokens with
  | .fault e :: _ => .error e
  | t :: _ => .ok (some t, s)
  | [] => .ok (none, s)

/-- Pass a token. -/
def pass : Build Unit := modify fun s => { s with tokens := s.tokens.drop 1 }

/-- Whether the next token is this one. -/
def at? (t : Token) : Build Bool := do return (← peek) = some t

/-- Pass this token. -/
def expect (t : Token) : Build Unit := do if ← at? t then pass else fail

/-- Whether the next token is one of these. -/
def atAny (ts : List Token) : Build Bool := do
  match ← peek with
  | some t => return ts.contains t
  | none => return false

/-! ## Tags and anchors -/

/-- The tag that a written tag denotes. -/
def tagOf (t : WrittenTag) : Build (List Char) := do
  match t.handle with
  | none => return t.suffix
  | some handle =>
    match (← get).handles.find? fun (h, _) => h = handle with
    | some (_, expansion) => return expansion ++ t.suffix
    | none => fail

/-- A tag if one comes next. -/
def tag? : Build (Option (List Char)) := do
  match ← peek with
  | some (.tag t) =>
    pass
    return some (← tagOf t)
  | _ => return none

/-- The name of an anchor if one comes next. -/
def anchor? : Build (Option (List Char)) := do
  match ← peek with
  | some (.anchor name) =>
    pass
    return some name
  | _ => return none

/-- The anchor and the tag before a node, in either order. -/
def properties : Build (Option (List Char) × Option (List Char)) := do
  match ← anchor? with
  | some name => return (some name, ← tag?)
  | none =>
    match ← tag? with
    | some tag => return (← anchor?, some tag)
    | none => return (none, none)

/-- Give a name to a node that is not finished. -/
def reserve (name : List Char) : Build Unit := do
  if (← get).anchors.any fun (n, _) => n = name then fail
  else modify fun s => { s with anchors := (name, none) :: s.anchors }

/-- Finish the node of a name. -/
def finish (name : List Char) (node : Node) : Build Unit :=
  modify fun s =>
    { s with anchors := s.anchors.map fun (n, old) => (n, if n = name then some node else old) }

/-- The node of a name. -/
def named (name : List Char) : Build Node := do
  match (← get).anchors.find? fun (n, _) => n = name with
  | some (_, some node) => return node
  | _ => fail

/-- The tag that leaves the kind to the form of the node. -/
def plainTag : List Char := ['!']

/-- The kind of a scalar. Quoted text without a tag is a text. -/
def scalarKind (tag : Option (List Char)) (plain : Bool) (t : Text) : Kind :=
  let byForm :=
    match Text.chars? t with
    | some cs => Kind.ofPlain cs
    | none => .text
  match tag with
  | none => if plain then byForm else .text
  | some tag => if tag = plainTag then byForm else .ofTag tag

/-- The kind of a collection. -/
def collectionKind (tag : Option (List Char)) (standard : Kind) : Kind :=
  match tag with
  | none => standard
  | some tag => if tag = plainTag then standard else .ofTag tag

/-! ## Nodes -/

mutual

/-- A node. Only where blocks may begin can it be one; where a key or a value of a block stands its
items may be as little indented as the key. -/
def node (blocks unindented : Bool) : Nat → Build Node
  | 0 => fail
  | n + 1 => do
    match ← peek with
    | some (.repetition name) =>
      pass
      named name
    | _ =>
      let (anchor, tag) ← properties
      match anchor with
      | none => content blocks unindented tag tag.isSome n
      | some name =>
        reserve name
        let made ← content blocks unindented tag true n
        finish name made
        return made

/-- A node after its anchor and tag. After those it may be empty. -/
def content (blocks unindented : Bool) (tag : Option (List Char)) (optional : Bool) :
    Nat → Build Node
  | 0 => fail
  | n + 1 => do
    let listKind := collectionKind tag .list
    let objectKind := collectionKind tag .object
    let t ← peek
    if t = some .entry && unindented then return .list listKind (← unindentedItems n)
    else if t = some .listOpen then
      pass
      return .list listKind (← flowItems true n)
    else if t = some .objectOpen then
      pass
      return .object objectKind (← flowMembers true n)
    else if t = some .sequenceStart && blocks then
      pass
      return .list listKind (← blockItems n)
    else if t = some .mappingStart && blocks then
      pass
      return .object objectKind (← blockMembers n)
    else
      match t with
      | some (.scalar plain text) =>
        pass
        return .scalar (scalarKind tag plain text) text
      | _ => if optional then return .scalar (scalarKind tag true []) [] else fail

/-- A node, or the empty one where one of these tokens comes next. -/
def part (stops : List Token) (blocks unindented : Bool) : Nat → Build Node
  | 0 => fail
  | n + 1 => do if ← atAny stops then return empty else node blocks unindented n

/-- A value after its mark, or the empty node where there is no mark. -/
def valuePart (stops : List Token) (blocks unindented : Bool) : Nat → Build Node
  | 0 => fail
  | n + 1 => do
    if ← at? .value then
      pass
      part stops blocks unindented n
    else return empty

/-- The items of a block. -/
def blockItems : Nat → Build (List Node)
  | 0 => fail
  | n + 1 => do
    if ← at? .entry then
      pass
      let first ← part [.entry, .blockEnd] true false n
      return first :: (← blockItems n)
    else
      expect .blockEnd
      return []

/-- The items of a block that is as little indented as what it belongs to. -/
def unindentedItems : Nat → Build (List Node)
  | 0 => fail
  | n + 1 => do
    if ← at? .entry then
      pass
      let first ← part [.entry, .key, .value, .blockEnd] true false n
      return first :: (← unindentedItems n)
    else return []

/-- The members of a block. -/
def blockMembers : Nat → Build (List (Node × Node))
  | 0 => fail
  | n + 1 => do
    if ← at? .key then
      pass
      let stops := [Token.key, .value, .blockEnd]
      let key ← part stops true true n
      let value ← valuePart stops true true n
      return (key, value) :: (← blockMembers n)
    else
      expect .blockEnd
      return []

/-- The items between brackets. -/
def flowItems (first : Bool) : Nat → Build (List Node)
  | 0 => fail
  | n + 1 => do
    if ← at? .listClose then
      pass
      return []
    else
      if !first then expect .comma
      if ← at? .listClose then
        pass
        return []
      else
        let item ← flowItem n
        return item :: (← flowItems false n)

/-- An item between brackets, which may be a single member. -/
def flowItem : Nat → Build Node
  | 0 => fail
  | n + 1 => do
    if ← at? .key then
      pass
      let key ← part [.value, .comma, .listClose] false false n
      let value ← valuePart [.comma, .listClose] false false n
      return .object .object [(key, value)]
    else node false false n

/-- The members between braces. -/
def flowMembers (first : Bool) : Nat → Build (List (Node × Node))
  | 0 => fail
  | n + 1 => do
    if ← at? .objectClose then
      pass
      return []
    else
      if !first then expect .comma
      if ← at? .objectClose then
        pass
        return []
      else if ← at? .key then
        pass
        let key ← part [.value, .comma, .objectClose] false false n
        let value ← valuePart [.comma, .objectClose] false false n
        return (key, value) :: (← flowMembers false n)
      else
        let key ← node false false n
        return (key, empty) :: (← flowMembers false n)

end

/-! ## Documents -/

/-- What tag handles stand for unless a directive says otherwise. -/
def standardHandles : List (List Char × List Char) := [(['!'], ['!']), (['!', '!'], Kind.common)]

/-- The directives before a document: what tag handles stand for. -/
def directives (versioned : Bool) (handles : List (List Char × List Char)) :
    Nat → Build (List (List Char × List Char))
  | 0 => fail
  | n + 1 => do
    match ← peek with
    | some (.directive d) =>
      pass
      match d with
      | .version major =>
        if versioned || major ≠ 1 then fail else directives true handles n
      | .handle handle expansion =>
        if handles.any fun (h, _) => h = handle then fail
        else directives versioned ((handle, expansion) :: handles) n
      | .other => directives versioned handles n
    | _ => return handles

/-- Pass marks that end documents. -/
def passEnds : Nat → Build Unit
  | 0 => fail
  | n + 1 => do
    if ← at? .documentEnd then
      pass
      passEnds n

/-- The node of the only document, if there is one. -/
def document (rounds : Nat) : Build (Option Node) := do
  let root ←
    match ← peek with
    | some (.directive _) | some .documentStart | none => do
      passEnds rounds
      if (← peek).isNone then pure none
      else
        let handles ← directives false [] rounds
        modify fun s => { s with handles := handles ++ standardHandles }
        expect .documentStart
        match ← peek with
        | some (.directive _) | some .documentStart | some .documentEnd | none => pure (some empty)
        | _ => do pure (some (← node true false rounds))
    | _ => do pure (some (← node true false rounds))
  passEnds rounds
  if (← peek).isSome then fail else return root

/-- The node of the only document that tokens hold. -/
def ofTokens (ts : List Token) : Except Error (Option Node) :=
  let rounds := 4 * ts.length + 8
  ((document rounds).run ⟨ts, standardHandles, []⟩).map Prod.fst

end Node

end OptionTypes.Yaml
