import Mathlib.Data.Set.Basic
import Mathlib.Order.Interval.Set.Basic
import OptionTypes.Proofs.Tree
import OptionTypes.Syntax.TypeLayer

/-!
# The worked-off list yields the type layer

`TypeLayer.spans` works off a list of nodes that it stops at, skips or goes on below in several
ways. Said without the list, the type layer of a node is a set of bytes defined by recursion on the
tree: `TypeLayer.layer`.

The two agree because one step does: what a node contributes, together with the layers of the nodes
that it leaves to look at, is the layer of the node (`covered_step`). The invariant of the loop is
that what is contributed so far and the layers of all that is pending add up to the layer of the
root. No pending node is larger than what it came from, so the loop ends (`pendingSize_step_lt`).

* `TypeLayer.Runs` is the loop without a bound on its steps.
* `TypeLayer.runs_iff_and_covered_spans`: the loop ends, with the spans that cover the layer.
-/

namespace OptionTypes.Syntax.TypeLayer

/-! ## The type layer by recursion -/

/-- The offsets in a span. -/
def Span.bytes (s : Span) : Set Nat := Set.Ico s.start s.stop

/-- The offsets in at least one of several spans. -/
def covered (ss : List Span) : Set Nat := {n | ∃ s ∈ ss, n ∈ s.bytes}

/-- Whether a node is one of some tokens. -/
def isAnyToken (words : List String) (t : Tree) : Bool := words.any fun w => t.isToken w

/-- The keyword between an expression and the type that it is taken as. -/
def keyword? (t : Tree) : Option Tree :=
  t.children.find? fun c => c.isToken "as" || c.isToken "satisfies"

/-- The bytes from the start of a node, if there is one, on to another offset. -/
def suffixFrom (t : Option Tree) (stop : Nat) : List Span :=
  (t.map fun c => ⟨c.start, stop⟩).toList

/-- Whether a node belongs to the type layer as a whole: by its kind, or as an import or an export
of types. -/
def isWhole (t : Tree) : Bool :=
  match t.kind? with
  | some kind =>
    wholeKinds.contains kind || kind = .importStatement && hasToken t typeWords
      || kind = .exportStatement && exportsType t
  | none => false

/-- Whether a node is one of types among the names that an import or an export lists. -/
def isTypeSpecifier (t : Tree) : Bool :=
  (t.is .importSpecifier || t.is .exportSpecifier) && hasToken t typeWords

/-- Whether a node is an expression taken as of another type. -/
def isCast (t : Tree) : Bool := t.is .asExpression || t.is .satisfiesExpression

/-- The tokens that belong to the type layer directly below a node. -/
def tokensOf (t : Tree) : List String := (t.kind?.map tokensBelow).getD []

mutual

/-- The offsets that belong to the type layer of a node between its neighbours. -/
def layer (before after : Option Tree) : Tree → Set Nat
  | .node label field start stop missing children =>
    let t : Tree := .node label field start stop missing children
    if isWhole t then (Span.of t).bytes
    else if isTypeSpecifier t then (specifierSpan ⟨before, t, after⟩).bytes
    else if isCast t then covered (suffixFrom (keyword? t) stop) ∪ layerOfFirst children
    else if t.is .nonNullExpression then
      covered (suffixFrom children.getLast? stop) ∪ layerOfFirst children
    else layerOfAll (tokensOf t) none children

/-- The layer of the first of several siblings. -/
def layerOfFirst : List Tree → Set Nat
  | [] => ∅
  | t :: ts => layer none ts.head? t

/-- What siblings after a first neighbour contribute: some tokens their bytes, other nodes their
layers. -/
def layerOfAll (words : List String) (before : Option Tree) : List Tree → Set Nat
  | [] => ∅
  | t :: ts =>
    (if isAnyToken words t then (Span.of t).bytes else layer before ts.head? t)
      ∪ layerOfAll words (some t) ts

end

/-- The layer of a node between its neighbours. -/
def Placed.layer (p : Placed) : Set Nat := TypeLayer.layer p.before p.after p.tree

/-- The layers of several nodes together. -/
def layers (ps : List Placed) : Set Nat := {n | ∃ p ∈ ps, n ∈ p.layer}

/-! ## The loop without a bound -/

/-- The loop over pending nodes ends and yields the given spans. -/
inductive Runs : List Placed → List Span → Prop
  | done : Runs [] []
  | next (p : Placed) (pending : List Placed) (ss : List Span)
      (h : Runs ((step p).2 ++ pending) ss) : Runs (p :: pending) ((step p).1 ++ ss)

/-- The loop goes one way only. -/
theorem Runs.unique {pending : List Placed} {ss ss' : List Span} (h : Runs pending ss)
    (h' : Runs pending ss') : ss = ss' := by
  induction h generalizing ss' with
  | done =>
    cases h'
    rfl
  | next p pending ss _ ih =>
    cases h' with
    | next _ _ rest hrest => rw [ih hrest]

/-! ## What one step does -/

/-- The kind of a node decides on all that is asked of it in the loop. -/
theorem is_of_kind? {t : Tree} {kind : Kind} (h : t.kind? = some kind) (k : Kind) :
    t.is k = decide (kind = k) := by
  have hlabel : t.label = .kind kind := by
    rw [Tree.kind?] at h
    split at h
    next hk =>
      cases h
      exact hk
    next => cases h
  simp [Tree.is, hlabel]

theorem is_of_kind?_eq_none {t : Tree} (h : t.kind? = none) (k : Kind) : t.is k = false := by
  rw [Tree.kind?] at h
  split at h
  next => cases h
  next hk =>
    rw [Tree.is, decide_eq_false_iff_not]
    exact hk k

/-- A step by what the node is: one case for every way to stop, skip or go on. -/
theorem step_eq (p : Placed) :
    step p =
      if isWhole p.tree then ([.of p.tree], [])
      else if isTypeSpecifier p.tree then ([specifierSpan p], [])
      else if isCast p.tree then (suffixFrom (keyword? p.tree) p.tree.stop, operand p.tree)
      else if p.tree.is .nonNullExpression then
        (suffixFrom p.tree.children.getLast? p.tree.stop, operand p.tree)
      else
        (((placed p.tree).filter fun q => isAnyToken (tokensOf p.tree) q.tree).map fun q =>
            .of q.tree,
          (placed p.tree).filter fun q => !isAnyToken (tokensOf p.tree) q.tree) := by
  have hnothing : ∀ ps : List Placed, (ps.filter fun q => isAnyToken [] q.tree) = [] :=
    fun ps => List.filter_eq_nil_iff.mpr fun _ _ => Bool.false_ne_true
  have hall : ∀ ps : List Placed, (ps.filter fun q => !isAnyToken [] q.tree) = ps :=
    fun ps => List.filter_eq_self.mpr fun _ _ => rfl
  cases hkind : p.tree.kind? with
  | none =>
    -- a token or a fault has no kind, so none of the special cases is its own
    have his := is_of_kind?_eq_none hkind
    simp [step, isWhole, isTypeSpecifier, isCast, tokensOf, hkind, his, hnothing, hall]
  | some kind =>
    have his := is_of_kind? hkind
    by_cases hwhole : kind ∈ wholeKinds
    · simp [step, isWhole, hkind, hwhole]
    · -- one case for every arm of the step; the last one stands for all other kinds
      simp only [step, isWhole, isTypeSpecifier, isCast, tokensOf, hkind, his]
      split
      next h =>
        exact absurd (by simpa using h) hwhole
      next =>
        split
        · simp [hwhole, tokensBelow, hnothing, hall]
        · simp [hwhole, tokensBelow, hnothing, hall]
        · simp [hwhole, tokensBelow, hnothing, hall]
        · simp [hwhole, tokensBelow, hnothing, hall]
        · rw [← keyword?]
          cases keyword? p.tree with
          | none => simp [hwhole, suffixFrom]
          | some word => simp [hwhole, suffixFrom]
        · rw [← keyword?]
          cases keyword? p.tree with
          | none => simp [hwhole, suffixFrom]
          | some word => simp [hwhole, suffixFrom]
        · simp [hwhole, suffixFrom]
        next h₁ h₂ h₃ h₄ h₅ h₆ h₇ =>
          rw [imp_false] at h₁ h₂ h₃ h₄ h₅ h₆ h₇
          simp [hwhole, h₁, h₂, h₃, h₄, h₅, h₆, h₇, isAnyToken]

/-! ## The loop ends -/

/-- The number of nodes in and below those pending. -/
def pendingSize (ps : List Placed) : Nat := Tree.sizeAll (ps.map Placed.tree)

@[simp] theorem pendingSize_nil : pendingSize [] = 0 := rfl

@[simp] theorem pendingSize_cons (p : Placed) (ps : List Placed) :
    pendingSize (p :: ps) = p.tree.size + pendingSize ps := rfl

@[simp] theorem pendingSize_append (ps qs : List Placed) :
    pendingSize (ps ++ qs) = pendingSize ps + pendingSize qs := by
  rw [pendingSize, List.map_append, Tree.sizeAll_append]
  rfl

/-- Fewer trees have no more nodes. -/
theorem pendingSize_le_of_sublist {ps qs : List Placed} (h : ps.Sublist qs) :
    pendingSize ps ≤ pendingSize qs :=
  Tree.sizeAll_le_of_sublist (h.map Placed.tree)

theorem map_tree_placedAfter (before : Option Tree) (ts : List Tree) :
    (placedAfter before ts).map Placed.tree = ts := by
  induction ts generalizing before with
  | nil => rfl
  | cons t ts ih => rw [placedAfter, List.map_cons, ih]

/-- The children of a node have fewer nodes than the node. -/
theorem pendingSize_placed_lt (t : Tree) : pendingSize (placed t) < t.size := by
  rw [pendingSize, placed, map_tree_placedAfter]
  exact Tree.sizeAll_children_lt t

/-- A step leaves children of the node, each at most once. -/
theorem step_sublist (p : Placed) : (step p).2.Sublist (placed p.tree) := by
  -- the first child alone, where the rest of the node is erased or kept as it is
  have hoperand : (operand p.tree).Sublist (placed p.tree) := by
    rw [operand]
    cases placed p.tree with
    | nil => exact List.Sublist.refl []
    | cons q qs => exact List.singleton_sublist.mpr (List.mem_cons_self ..)
  rw [step_eq]
  split
  · exact List.nil_sublist _
  · split
    · exact List.nil_sublist _
    · split
      · exact hoperand
      · split
        · exact hoperand
        · exact List.filter_sublist

/-- A step leaves fewer nodes than there were. -/
theorem pendingSize_step_lt (p : Placed) : pendingSize (step p).2 < p.tree.size :=
  Nat.lt_of_le_of_lt (pendingSize_le_of_sublist (step_sublist p)) (pendingSize_placed_lt p.tree)

/-- As many steps as there are nodes suffice. -/
theorem runs_spansFrom {fuel : Nat} {pending : List Placed} (h : pendingSize pending ≤ fuel) :
    Runs pending (spansFrom fuel pending) := by
  induction fuel generalizing pending with
  | zero =>
    cases pending with
    | nil => exact .done
    | cons p pending =>
      -- a node counts itself, so no step is left for it only if none is pending
      have hpos := pendingSize_step_lt p
      rw [pendingSize_cons] at h
      omega
  | succ fuel ih =>
    cases pending with
    | nil => exact .done
    | cons p pending =>
      have hstep := pendingSize_step_lt p
      rw [pendingSize_cons] at h
      rw [spansFrom]
      refine .next p pending _ (ih ?_)
      rw [pendingSize_append]
      omega

/-! ## The invariant of the loop -/

@[simp] theorem covered_nil : covered [] = ∅ := by
  simp [covered]

@[simp] theorem covered_cons (s : Span) (ss : List Span) :
    covered (s :: ss) = s.bytes ∪ covered ss := by
  ext n
  simp [covered]

@[simp] theorem covered_append (ss ss' : List Span) :
    covered (ss ++ ss') = covered ss ∪ covered ss' := by
  ext n
  simp only [covered, List.mem_append, or_and_right, exists_or, Set.mem_ofPred_eq, Set.mem_union]

@[simp] theorem layers_nil : layers [] = ∅ := by
  simp [layers]

@[simp] theorem layers_cons (p : Placed) (ps : List Placed) :
    layers (p :: ps) = p.layer ∪ layers ps := by
  ext n
  simp [layers]

@[simp] theorem layers_append (ps qs : List Placed) :
    layers (ps ++ qs) = layers ps ∪ layers qs := by
  ext n
  simp only [layers, List.mem_append, or_and_right, exists_or, Set.mem_ofPred_eq, Set.mem_union]

/-- The layer of what is left of a cast: its first named child. -/
theorem layers_operand (t : Tree) : layers (operand t) = layerOfFirst t.children := by
  cases t with
  | node label field start stop missing children =>
    cases children with
    | nil => simp [operand, placed, placedAfter, Tree.children, layerOfFirst]
    | cons c cs =>
      simp [operand, placed, placedAfter, Tree.children, layerOfFirst, Placed.layer]

/-- Siblings contribute the bytes of the tokens among them and the layers of the others. -/
theorem layerOfAll_eq (words : List String) (before : Option Tree) (ts : List Tree) :
    layerOfAll words before ts
      = covered (((placedAfter before ts).filter fun q => isAnyToken words q.tree).map fun q =>
            .of q.tree)
        ∪ layers ((placedAfter before ts).filter fun q => !isAnyToken words q.tree) := by
  induction ts generalizing before with
  | nil => simp [layerOfAll, placedAfter]
  | cons t ts ih =>
    rw [layerOfAll, ih, placedAfter, List.filter_cons, List.filter_cons]
    -- the first sibling goes to the tokens or to the nodes that are looked at
    by_cases htoken : isAnyToken words t
    · simp [htoken, Set.union_assoc]
    · simp [htoken, Placed.layer, Set.union_left_comm]

/-- **One step keeps the sum.** What a node contributes and the layers of the nodes that it leaves
to look at make up the layer of the node. -/
theorem covered_step (p : Placed) : covered (step p).1 ∪ layers (step p).2 = p.layer := by
  obtain ⟨before, t, after⟩ := p
  cases t with
  | node label field start stop missing children =>
    rw [step_eq, Placed.layer, layer]
    simp only
    -- the branches of a step, in the order in which the node is looked at
    split
    · simp
    · split
      · simp
      · split
        · rw [layers_operand]
          rfl
        · split
          · rw [layers_operand]
            rfl
          · rw [layerOfAll_eq]
            rfl

/-- What a run yields covers the layers of all that was pending, and nothing else. Induction on the
run; the spans of one step and the nodes that it leaves add up to the layer that they replace. -/
theorem Runs.covered_eq {pending : List Placed} {ss : List Span} (h : Runs pending ss) :
    covered ss = layers pending := by
  induction h with
  | done => simp
  | next p pending ss _ ih =>
    rw [covered_append, ih, layers_append, layers_cons, ← covered_step p, Set.union_assoc]

/-- **The spans are exactly the type layer.** On any tree the loop ends, with the given spans and no
others, and a byte lies in one of them exactly when it belongs to the type layer of the tree.

The loop terminates since each step leaves fewer nodes (`pendingSize_step_lt`). Its invariant is
that the spans found so far and the layers of the nodes still to be looked at make up the layer of
the root (`Runs.covered_eq`). -/
theorem runs_iff_and_covered_spans (root : Tree) :
    (∀ ss, Runs [⟨none, root, none⟩] ss ↔ ss = spans root)
      ∧ covered (spans root) = layer none none root := by
  have hrun : Runs [⟨none, root, none⟩] (spans root) := runs_spansFrom (by simp)
  refine ⟨?_, ?_⟩
  · intro ss
    constructor
    · intro h
      exact h.unique hrun
    · rintro rfl
      exact hrun
  · rw [hrun.covered_eq, layers_cons, layers_nil, Set.union_empty]
    rfl

end OptionTypes.Syntax.TypeLayer
