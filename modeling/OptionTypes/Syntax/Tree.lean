import OptionTypes.Syntax.Kind
import OptionTypes.Text.Utf8

/-!
# Syntax trees

A tree is read over the bytes of a source. Every node knows the bytes that it spans, the part that
it plays in its parent, and its children in order, punctuation included. Where the source breaks
the grammar a node is a fault, or a leaf that spans nothing and is marked as missing.

* `Tree.size` counts nodes; it bounds every walk.
* `Tree.namedChildren` leaves the punctuation out.
* `Place.lineOf` and `Place.columnOf` locate an offset.
-/

namespace OptionTypes.Syntax

/-- What a node is: a named construct, a piece of punctuation or a keyword, or a fault. -/
inductive Label where
  | kind (k : Kind)
  | token (text : String)
  | fault
  deriving DecidableEq

/-- A node over the bytes from `start` to `stop`. -/
inductive Tree where
  | node (label : Label) (field : Option Field) (start stop : Nat) (missing : Bool)
      (children : List Tree)

namespace Tree

/-- What a node is. -/
def label : Tree → Label
  | node l .. => l

/-- The part that a node plays in its parent. -/
def field : Tree → Option Field
  | node _ f .. => f

/-- The offset of the first byte. -/
def start : Tree → Nat
  | node _ _ s .. => s

/-- The offset after the last byte. -/
def stop : Tree → Nat
  | node _ _ _ e .. => e

/-- Whether a node stands for something that the source lacks. -/
def missing : Tree → Bool
  | node _ _ _ _ m _ => m

/-- The children of a node. -/
def children : Tree → List Tree
  | node _ _ _ _ _ cs => cs

instance : Inhabited Tree := ⟨node .fault none 0 0 false []⟩

/-- A node of a kind. -/
def ofKind (k : Kind) (start stop : Nat) (children : List Tree) : Tree :=
  node (.kind k) none start stop false children

/-- A piece of punctuation or a keyword. -/
def ofToken (text : String) (start stop : Nat) : Tree := node (.token text) none start stop false []

/-- The node in another part of its parent. -/
def withField (f : Field) : Tree → Tree
  | node l _ s e m cs => node l (some f) s e m cs

/-- The node as another kind. -/
def withKind (k : Kind) : Tree → Tree
  | node _ f s e m cs => node (.kind k) f s e m cs

/-- Whether a node is of a kind. -/
def is (k : Kind) (t : Tree) : Bool := t.label = .kind k

/-- Whether a node is a given piece of punctuation or keyword. -/
def isToken (text : String) (t : Tree) : Bool := t.label = .token text

/-- Whether a node is a construct or a fault, and no punctuation. -/
def isNamed (t : Tree) : Bool :=
  match t.label with
  | .token _ => false
  | _ => true

/-- Whether a node is a comment. -/
def isComment (t : Tree) : Bool := t.is .comment

/-- The kind of a node, if it is a construct. -/
def kind? (t : Tree) : Option Kind :=
  match t.label with
  | .kind k => some k
  | _ => none

/-- The children that are no punctuation. -/
def namedChildren (t : Tree) : List Tree := t.children.filter isNamed

/-- The named children without comments. -/
def operands (t : Tree) : List Tree := t.namedChildren.filter fun c => !c.isComment

/-- The first child that plays a part. -/
def child? (f : Field) (t : Tree) : Option Tree := t.children.find? fun c => c.field = some f

/-- Whether the source breaks the grammar at this very node. -/
def isFaulty (t : Tree) : Bool := t.label = .fault || t.missing

mutual

/-- The number of nodes of a tree. -/
def size : Tree → Nat
  | node _ _ _ _ _ cs => sizeAll cs + 1

/-- The number of nodes of trees. -/
def sizeAll : List Tree → Nat
  | [] => 0
  | t :: ts => size t + sizeAll ts

end

/-- The name of a node: its kind, its own text, or `ERROR`. -/
def name (t : Tree) : String :=
  match t.label with
  | .kind k => k.name
  | .token text => text
  | .fault => "ERROR"

end Tree

/-- The bytes of a source from an offset to another. -/
def slice (source : Bytes) (start stop : Nat) : Bytes := (source.drop start).take (stop - start)

/-- The text of a node. -/
def Tree.text (source : Bytes) (t : Tree) : Text :=
  Text.ofChars (Utf8.decodeLossy (slice source t.start t.stop))

namespace Place

/-- The number of the line that holds an offset, from one. -/
def lineOf (source : Bytes) (offset : Nat) : Nat := (source.take offset).count 0x0A + 1

/-- The number of the byte at an offset within its line, from one. -/
def columnOf (source : Bytes) (offset : Nat) : Nat :=
  ((source.take offset).reverse.takeWhile (· != 0x0A)).length + 1

end Place

/-! ## Walking a tree -/

/-- A node and its parent. -/
structure Visit where
  tree : Tree
  parent : Option Tree

/-- The nodes that a walk goes on to below a node. -/
def Tree.walked (named : Bool) (t : Tree) : List Tree :=
  if named then t.namedChildren else t.children

/-- The visits of at most `fuel` nodes, those pending first. -/
def walkFrom (named : Bool) : Nat → List Visit → List Visit
  | 0, _ => []
  | _, [] => []
  | fuel + 1, v :: pending =>
    v :: walkFrom named fuel ((v.tree.walked named).map (⟨·, some v.tree⟩) ++ pending)

/-- All nodes below a tree with their parents, in the order in which they start; with `named` the
punctuation is left out. -/
def walk (named : Bool) (root : Tree) : List Visit := walkFrom named root.size [⟨root, none⟩]

/-- The first node at which the source breaks the grammar. -/
def firstFault? (root : Tree) : Option Tree :=
  ((walk false root).find? (·.tree.isFaulty)).map Visit.tree

end OptionTypes.Syntax
