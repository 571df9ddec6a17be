import OptionTypes.Proofs.Members
import OptionTypes.Proofs.Preorder
import OptionTypes.Syntax.Dump

/-!
# A dump lists what a walk visits

A dump is a value with values in it, made by recursion on the tree; a walk is a loop over a stack.
Listed with parents first, the entries of a dump are those of the nodes that the walk visits, in the
same order, and each entry is directly in that of the parent with which its node is visited.

* `Walks` is the loop of a walk without a bound on its steps, `Walks.eq` what it visits.
* `entries` lists the entries of a value with the ways to them, and `entries_dump` says what they
  are for a dump.
* `map_tree_visits`: the nodes that are visited.
* `dump_follows_walk`: the walk ends, and the dump agrees with it.
-/

namespace OptionTypes

/-- A member of an object, if the value is one. -/
def Value.member? (name : String) : Value → Option Value
  | .object ms => Members.find? name ms
  | _ => none

theorem Value.sizeOf_lt_of_member? {name : String} {v w : Value} (h : v.member? name = some w) :
    sizeOf w < sizeOf v := by
  cases v with
  | object ms =>
    obtain ⟨k, hmem⟩ := Members.exists_mem_of_get? h
    have hlt := List.sizeOf_lt_of_mem hmem
    simp only [Prod.mk.sizeOf_spec] at hlt
    simp only [Value.object.sizeOf_spec]
    omega
  | _ => cases h

namespace Syntax

/-! ## Walks -/

/-- The loop of a walk. The visit at the end of the stack is the next one; those of its children are
put on the stack in its place, the last child deepest. -/
inductive Walks (named : Bool) : List Visit → List Visit → Prop
  | done : Walks named [] []
  | next {stack rest : List Visit} {v : Visit} {vs : List Visit} (htop : stack = rest ++ [v])
    (h : Walks named (rest ++ (v.below named).reverse) vs) : Walks named stack (v :: vs)

variable {named : Bool} {stack vs : List Visit} {source : Bytes} {root t : Tree}

/-- The loop visits the nodes below each visit on the stack, the last one first. -/
theorem Walks.eq (h : Walks named stack vs) :
    vs = stack.reverse.flatMap fun v => (visits named v.parent v.tree).map Prod.snd := by
  induction h with
  | done => rfl
  | @next stack rest v vs htop _ ih =>
    rw [List.reverse_append, List.reverse_reverse, List.flatMap_append] at ih
    rw [htop, ih, List.reverse_concat, List.flatMap_cons, map_snd_visits, List.cons_append]

theorem Tree.sizeAll_reverse (ts : List Tree) : sizeAll ts.reverse = sizeAll ts := by
  induction ts with
  | nil => rfl
  | cons t ts ih =>
    rw [List.reverse_cons, sizeAll_append, ih, sizeAll, sizeAll, sizeAll]
    omega

/-- With as many steps as there are nodes the loop ends. Induction on the steps, as what is left on
the stack has fewer nodes after each. -/
theorem walks_walkFrom {fuel : Nat} (h : Tree.sizeAll (stack.map Visit.tree) ≤ fuel) :
    Walks named stack (walkFrom named fuel stack.reverse) := by
  induction fuel generalizing stack with
  | zero =>
    rcases List.eq_nil_or_concat stack with rfl | ⟨rest, v, rfl⟩
    · exact .done
    · have hpos := Tree.sizeAll_walked_lt named v.tree
      rw [List.concat_eq_append, List.map_append, Tree.sizeAll_append, List.map_singleton,
        Tree.sizeAll] at h
      omega
  | succ fuel ih =>
    rcases List.eq_nil_or_concat stack with rfl | ⟨rest, v, rfl⟩
    · exact .done
    · have hbelow := v.sizeAll_below_lt named
      rw [List.concat_eq_append, List.map_append, Tree.sizeAll_append, List.map_singleton,
        Tree.sizeAll] at h
      -- the stack from its top down is what the walk has pending
      have hstack : v.below named ++ rest.reverse = (rest ++ (v.below named).reverse).reverse := by
        rw [List.reverse_append, List.reverse_reverse]
      rw [List.concat_eq_append, List.reverse_concat, walkFrom_cons, hstack]
      refine .next rfl (ih ?_)
      rw [List.map_append, Tree.sizeAll_append, List.map_reverse, Tree.sizeAll_reverse]
      omega

/-- **The loop ends,** with the visits in pre-order and no others. -/
theorem walks_iff (named : Bool) (root : Tree) (vs : List Visit) :
    Walks named [⟨root, none⟩] vs ↔ vs = (visits named none root).map Prod.snd := by
  constructor
  · intro h
    rw [h.eq, List.reverse_singleton, List.flatMap_singleton]
  · rintro rfl
    have hsize : Tree.sizeAll ([(⟨root, none⟩ : Visit)].map Visit.tree) ≤ root.size := by
      simp [Tree.sizeAll]
    rw [← walk_eq]
    exact walks_walkFrom hsize

/-! ## The nodes that are visited -/

/-- Whether no punctuation has nodes below it. -/
def Tree.TokensAreLeaves (root : Tree) : Prop :=
  ∀ u ∈ root.nodes, u.isNamed = false → u.children = []

instance (root : Tree) : Decidable root.TokensAreLeaves :=
  inferInstanceAs (Decidable (∀ u ∈ root.nodes, _))

theorem map_tree_visits (named : Bool) (parent : Option Tree) (t : Tree) :
    (visits named parent t).map (fun x => x.2.tree)
      = t :: (t.walked named).flatMap fun c =>
          (visits named (some t) c).map fun x => x.2.tree := by
  have h := congrArg (List.map Visit.tree) (map_snd_visits named ⟨t, parent⟩)
  simpa [Visit.below, List.map_flatMap, List.flatMap_map, Function.comp_def] using h

theorem Tree.nodesAll_eq_flatMap (ts : List Tree) : nodesAll ts = ts.flatMap nodes := by
  induction ts with
  | nil => rfl
  | cons t ts ih => rw [nodesAll, ih, List.flatMap_cons]

/-- A walk through all children visits every node. -/
theorem map_tree_visits_false (parent : Option Tree) (t : Tree) :
    (visits false parent t).map (fun x => x.2.tree) = t.nodes := by
  induction t using Tree.below_induction generalizing parent with
  | step t ih =>
    rw [map_tree_visits, Tree.nodes_eq, Tree.nodesAll_eq_flatMap]
    exact congrArg (t :: ·) (List.flatMap_congr fun c hc => ih c hc c c.self_mem_nodes (some t))

theorem flatMap_filter_eq {α β : Type} {keep : α → Bool} {f g : α → List β} {xs : List α}
    (hkept : ∀ x ∈ xs, keep x = true → f x = g x) (hdropped : ∀ x ∈ xs, keep x = false → g x = []) :
    (xs.filter keep).flatMap f = xs.flatMap g := by
  induction xs with
  | nil => rfl
  | cons x xs ih =>
    obtain ⟨hx, hkept⟩ := List.forall_mem_cons.mp hkept
    obtain ⟨hx', hdropped⟩ := List.forall_mem_cons.mp hdropped
    rw [List.filter_cons, List.flatMap_cons, ← ih hkept hdropped]
    split
    next h => rw [List.flatMap_cons, hx h]
    next h => rw [hx' (Bool.eq_false_iff.mpr h), List.nil_append]

/-- A walk through the named children visits every named node, if punctuation has no children. -/
theorem map_tree_visits_true (parent : Option Tree) (t : Tree) (hleaves : t.TokensAreLeaves)
    (hnamed : t.isNamed = true) :
    (visits true parent t).map (fun x => x.2.tree) = t.nodes.filter Tree.isNamed := by
  induction t using Tree.below_induction generalizing parent with
  | step t ih =>
    have hchildren : ∀ c ∈ t.children, c.TokensAreLeaves := fun c hc u hu =>
      hleaves u (Tree.mem_nodes_of_mem_children hc hu)
    rw [map_tree_visits, Tree.nodes_eq, Tree.nodesAll_eq_flatMap, List.filter_cons_of_pos hnamed,
      List.filter_flatMap]
    refine congrArg (t :: ·) (flatMap_filter_eq ?_ ?_)
    · intro c hc hc'
      exact ih c hc c c.self_mem_nodes (some t) (hchildren c hc) hc'
    · -- what is below punctuation is the punctuation alone
      intro c hc hc'
      have hleaf := hchildren c hc c c.self_mem_nodes hc'
      rw [Tree.nodes_eq, hleaf, Tree.nodesAll, List.filter_cons_of_neg (by rw [hc']; decide)]
      rfl

/-! ## Entries of a dump -/

/-- The entries directly in an entry. -/
def entriesIn (entry : Value) : List Value :=
  match entry.member? "children" with
  | some (.list es) => es
  | _ => []

theorem sizeOf_lt_of_mem_entriesIn {entry e : Value} (h : e ∈ entriesIn entry) :
    sizeOf e < sizeOf entry := by
  unfold entriesIn at h
  split at h
  next es hmember =>
    have hlist := Value.sizeOf_lt_of_member? hmember
    have hitem := List.sizeOf_lt_of_mem h
    simp only [Value.list.sizeOf_spec] at hlist
    omega
  next => cases h

/-- An entry in a dump: the places of the entries on the way to it, and the one that it is in. -/
structure Listed where
  path : List Nat
  entry : Value
  outer : Option Value

/-- What is listed, seen from the entry around. -/
def Listed.under (i : Nat) (l : Listed) : Listed := { l with path := i :: l.path }

/-- An entry and those in it, parents first. -/
def entries (outer : Option Value) (entry : Value) : List Listed :=
  ⟨[], entry, outer⟩ :: (entriesIn entry).zipIdx.attach.flatMap fun x =>
    (entries (some entry) x.1.1).map (Listed.under x.1.2)
termination_by sizeOf entry
decreasing_by exact sizeOf_lt_of_mem_entriesIn (List.fst_mem_of_mem_zipIdx x.2)

theorem entries_eq (outer : Option Value) (entry : Value) :
    entries outer entry = ⟨[], entry, outer⟩ :: (entriesIn entry).zipIdx.flatMap fun x =>
      (entries (some entry) x.1).map (Listed.under x.2) := by
  have hattach := List.attach_map_subtype_val (entriesIn entry).zipIdx
  rw [entries]
  conv_rhs => rw [← hattach, List.flatMap_map]

theorem dumpAll_eq (source : Bytes) (ts : List Tree) :
    dumpAll source ts = (ts.filter Tree.isNamed).map (dump source) := by
  induction ts with
  | nil => rfl
  | cons t ts ih =>
    rw [dumpAll, List.filter_cons, ih]
    split
    · rfl
    · rfl

/-- What an entry says of its node: its kind, the bytes that it spans, its line and, if it has no
named children, its text. -/
structure Says (source : Bytes) (t : Tree) (entry : Value) : Prop where
  kind : entry.member? "type" = some (.str t.name)
  start : entry.member? "start" = some (.int t.start)
  stop : entry.member? "end" = some (.int t.stop)
  line : entry.member? "line" = some (.int (Place.lineOf source t.start))
  text : entry.member? "text"
    = if t.namedChildren.isEmpty then some (.text (t.text source)) else none

theorem says_dump (source : Bytes) (t : Tree) :
    Says source t (dump source t) ∧ (dump source t).member? "children"
      = if t.namedChildren.isEmpty then none
        else some (.list (t.namedChildren.map (dump source))) := by
  cases t with
  | node label field start stop missing children =>
    have hchildren : dumpAll source children
        = (Tree.node label field start stop missing children).namedChildren.map (dump source) :=
      dumpAll_eq source children
    rw [dump, hchildren]
    cases hempty : (Tree.node label field start stop missing children).namedChildren.isEmpty with
    | true =>
      cases field with
      | none => exact ⟨⟨rfl, rfl, rfl, rfl, by rw [hempty]; rfl⟩, rfl⟩
      | some f => exact ⟨⟨rfl, rfl, rfl, rfl, by rw [hempty]; rfl⟩, rfl⟩
    | false =>
      cases field with
      | none => exact ⟨⟨rfl, rfl, rfl, rfl, by rw [hempty]; rfl⟩, rfl⟩
      | some f => exact ⟨⟨rfl, rfl, rfl, rfl, by rw [hempty]; rfl⟩, rfl⟩

theorem entriesIn_dump (source : Bytes) (t : Tree) :
    entriesIn (dump source t) = t.namedChildren.map (dump source) := by
  rw [entriesIn, (says_dump source t).2]
  cases hempty : t.namedChildren.isEmpty with
  | true =>
    rw [List.isEmpty_iff.mp hempty]
    rfl
  | false => rfl

/-- What is listed for a visit: the dump of the node, and that of its parent around it. -/
def Listed.ofVisit (source : Bytes) (x : List Nat × Visit) : Listed :=
  ⟨x.1, dump source x.2.tree, x.2.parent.map (dump source)⟩

/-- **The entries of a dump** are those of the nodes that are visited. Induction on the tree. -/
theorem entries_dump (source : Bytes) (parent : Option Tree) (t : Tree) :
    entries (parent.map (dump source)) (dump source t)
      = (visits true parent t).map (Listed.ofVisit source) := by
  induction t using Tree.below_induction generalizing parent with
  | step t ih =>
    rw [entries_eq, visits_eq, List.map_cons, entriesIn_dump, visitsAll_eq, List.zipIdx_map,
      List.flatMap_map, List.map_flatMap]
    refine congrArg (_ :: ·) (List.flatMap_congr fun x hx => ?_)
    have hmem : x.1 ∈ t.namedChildren := List.fst_mem_of_mem_zipIdx hx
    have hchild := ih x.1 (List.mem_of_mem_filter hmem) x.1 x.1.self_mem_nodes (some t)
    show (entries (some (dump source t)) (dump source x.1)).map (Listed.under x.2) = _
    rw [← Option.map_some, hchild, List.map_map, List.map_map]
    rfl

/-- **A dump and a walk agree.** The loop of a walk ends, with the visits in pre-order, whether it
goes on to all children or to named ones only. The entries of the dump, listed with parents first,
are those of the nodes that the walk through named children visits, one for each visit, and each is
directly in the entry of the parent. An entry has the text of its node exactly if the node has no
named children. These nodes are all named nodes of the tree, where punctuation has no children.

The loop of the walk is the recursion of `visits` (`walks_iff`). The dump goes by the same recursion
through named children, so its entries are those of the visits (`entries_dump`). -/
theorem dump_follows_walk (source : Bytes) (root : Tree) :
    (∀ named vs, Walks named [⟨root, none⟩] vs ↔ vs = (visits named none root).map Prod.snd)
      ∧ entries none (dump source root) = (visits true none root).map (Listed.ofVisit source)
      ∧ (entries none (dump source root)).Pairwise (fun l m => l.path < m.path)
      ∧ (∀ t, Says source t (dump source t))
      ∧ (visits false none root).map (fun x => x.2.tree) = root.nodes
      ∧ (root.TokensAreLeaves → root.isNamed = true →
        (visits true none root).map (fun x => x.2.tree) = root.nodes.filter Tree.isNamed) := by
  have hentries := entries_dump source none root
  refine ⟨fun named => walks_iff named root, hentries, ?_, fun t => (says_dump source t).1,
    map_tree_visits_false none root, map_tree_visits_true none root⟩
  have horder : ((visits true none root).map (Listed.ofVisit source)).Pairwise
      fun l m => l.path < m.path :=
    List.pairwise_map.mpr (pairwise_visits true none root)
  rwa [← hentries] at horder

/-- The source of an array with a comment in it, on its second line. -/
def commentedSource : Bytes := Utf8.encode "[1,\n/**/ a]".toList

/-- The tree of the source. -/
def commentedArray : Tree :=
  .ofKind .program 0 11
    [.ofKind .expressionStatement 0 11
      [.ofKind .array 0 11
        [.ofToken "[" 0 1, .ofKind .number 1 2 [], .ofToken "," 2 3, .ofKind .comment 4 8 [],
          .ofKind .identifier 9 10 [], .ofToken "]" 10 11]]]

/-- Six of nine nodes are named; the comment is the fifth of them, on line two. -/
theorem dump_follows_walk_commentedArray :
    commentedArray.TokensAreLeaves ∧ commentedArray.isNamed = true
      ∧ (visits true none commentedArray).map (fun x => x.2.tree)
        = commentedArray.nodes.filter Tree.isNamed
      ∧ (entries none (dump commentedSource commentedArray)).map
          (fun l => (l.path, l.entry.member? "line"))
        = [([], some (.int 1)), ([0], some (.int 1)), ([0, 0], some (.int 1)),
          ([0, 0, 0], some (.int 1)), ([0, 0, 1], some (.int 2)), ([0, 0, 2], some (.int 2))] := by
  obtain ⟨-, hentries, -, -, -, hnodes⟩ := dump_follows_walk commentedSource commentedArray
  have hleaves : commentedArray.TokensAreLeaves := by decide
  refine ⟨hleaves, rfl, hnodes hleaves rfl, ?_⟩
  rw [hentries]
  rfl

end Syntax

end OptionTypes
