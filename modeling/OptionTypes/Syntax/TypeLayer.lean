import OptionTypes.Syntax.Tree

/-!
# The type layer of a script

The bytes of a script with types that say something about types only. The rest is a script
without types.

A list of nodes is worked off: `TypeLayer.step` says which bytes a node contributes and which nodes
are left to look at below it, and `TypeLayer.spans` goes on until none is left. A node is looked at
together with its neighbours, because a specifier that goes takes one comma along.
-/

namespace OptionTypes.Syntax.TypeLayer

/-- The bytes from an offset to another. -/
structure Span where
  start : Nat
  stop : Nat
  deriving DecidableEq

/-- Whether an offset lies in a span. -/
def Span.contains (s : Span) (n : Nat) : Bool := s.start ≤ n && n < s.stop

/-- The bytes of a node. -/
def Span.of (t : Tree) : Span := ⟨t.start, t.stop⟩

/-- A node between its neighbours. -/
structure Placed where
  before : Option Tree
  tree : Tree
  after : Option Tree

/-- Siblings between their neighbours, after a first neighbour. -/
def placedAfter : Option Tree → List Tree → List Placed
  | _, [] => []
  | before, t :: ts => ⟨before, t, ts.head?⟩ :: placedAfter (some t) ts

/-- The children of a node between their neighbours. -/
def placed (t : Tree) : List Placed := placedAfter none t.children

/-- The kinds of nodes that belong to the type layer as a whole. -/
def wholeKinds : List Kind :=
  [.typeClause, .assertsClause, .predicateClause, .typeParameters, .typeArguments,
    .typeAliasDeclaration, .interfaceDeclaration, .ambientDeclaration, .implementsClause,
    .accessibilityModifier, .overrideModifier]

/-- The tokens that belong to the type layer where they stand directly below a node of a kind. -/
def tokensBelow : Kind → List String
  | .optionalParameter => ["?", "readonly"]
  | .requiredParameter => ["readonly"]
  | .publicFieldDefinition => ["?", "!", "readonly", "declare"]
  | _ => []

/-- The words that make an import or an export, or one of its specifiers, one of types. -/
def typeWords : List String := ["type", "typeof"]

/-- The kinds of declarations that declare types only. -/
def declaringKinds : List Kind := [.typeAliasDeclaration, .interfaceDeclaration]

/-- Whether one of these tokens stands directly below a node. -/
def hasToken (t : Tree) (words : List String) : Bool :=
  t.children.any fun c => words.any fun w => c.isToken w

/-- Whether an export exports types only. -/
def exportsType (t : Tree) : Bool :=
  ((t.child? .declaration).map fun d => declaringKinds.any fun k => d.is k).getD false
    || hasToken t typeWords

/-- The bytes of a specifier with the comma that follows it, or else the one that precedes it. -/
def specifierSpan (p : Placed) : Span :=
  match p.after, p.before with
  | some next, before =>
    if next.isToken "," then ⟨p.tree.start, next.stop⟩ else backward before
  | none, before => backward before
where
  /-- The specifier with the comma that precedes it. -/
  backward : Option Tree → Span
    | some last => if last.isToken "," then ⟨last.start, p.tree.stop⟩ else .of p.tree
    | none => .of p.tree

/-- The first child of a node. -/
def operand (t : Tree) : List Placed := (placed t).head?.toList

/-- The bytes that a node contributes, and the nodes below it that are looked at next. -/
def step (p : Placed) : List Span × List Placed :=
  let t := p.tree
  match t.kind? with
  | none => ([], placed t)
  | some kind =>
    if wholeKinds.contains kind then ([.of t], [])
    else
      match kind with
      | .importStatement => if hasToken t typeWords then ([.of t], []) else ([], placed t)
      | .exportStatement => if exportsType t then ([.of t], []) else ([], placed t)
      | .importSpecifier | .exportSpecifier =>
        if hasToken t typeWords then ([specifierSpan p], []) else ([], placed t)
      | .asExpression | .satisfiesExpression =>
        match t.children.find? fun c => c.isToken "as" || c.isToken "satisfies" with
        | some word => ([⟨word.start, t.stop⟩], operand t)
        | none => ([], operand t)
      | .nonNullExpression =>
        (((t.children.getLast?).map fun c => ⟨c.start, t.stop⟩).toList, operand t)
      | kind =>
        let gone := fun (q : Placed) => (tokensBelow kind).any fun w => q.tree.isToken w
        (((placed t).filter gone).map fun q => .of q.tree, (placed t).filter fun q => !gone q)

/-- The bytes that at most `fuel` nodes contribute, those pending first. -/
def spansFrom : Nat → List Placed → List Span
  | 0, _ => []
  | _, [] => []
  | fuel + 1, p :: pending => (step p).1 ++ spansFrom fuel ((step p).2 ++ pending)

/-- The bytes of the type layer of a tree. -/
def spans (root : Tree) : List Span := spansFrom root.size [⟨none, root, none⟩]

end OptionTypes.Syntax.TypeLayer
