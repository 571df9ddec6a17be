import OptionTypes.Proofs.Tree

/-!
# A walk visits nodes in pre-order

The order of a document is the order of the paths to its nodes: a node comes before what is below
it, and of two nodes below different siblings the one below the earlier sibling comes first. On
lists of numbers that is the lexicographic order.

A walk works off a list of pending nodes. The nodes that it visits below each of them are listed
with their paths by recursion on the tree, and that list is in order.

* `visits` lists the visits below a node with their paths; `concat_mem_visits_iff` says which they
  are and `pairwise_visits` that they are in order.
* `walk_eq`: a walk visits these.
-/

namespace OptionTypes.Syntax

/-- The node at the end of a path through the children that a walk goes on to. -/
def Tree.at? (named : Bool) (t : Tree) : List Nat → Option Tree
  | [] => some t
  | i :: path => (t.walked named)[i]?.bind fun c => c.at? named path

/-- A visit and the path to it, seen from the parent of its root. -/
def under (i : Nat) (x : List Nat × Visit) : List Nat × Visit := (i :: x.1, x.2)

mutual

/-- The visits of a node and of all below it, with their paths. -/
def visits (named : Bool) (parent : Option Tree) : Tree → List (List Nat × Visit)
  | .node label field start stop missing children =>
    let t : Tree := .node label field start stop missing children
    ([], ⟨t, parent⟩) :: visitsAll named t 0 children

/-- The visits of siblings and of all below them, the first one having a given place. -/
def visitsAll (named : Bool) (parent : Tree) (i : Nat) : List Tree → List (List Nat × Visit)
  | [] => []
  | t :: ts =>
    if t.isWalked named then
      (visits named (some parent) t).map (under i) ++ visitsAll named parent (i + 1) ts
    else visitsAll named parent i ts

end

/-- A walk visits the node and then what is below it. -/
theorem visits_eq (named : Bool) (parent : Option Tree) (t : Tree) :
    visits named parent t = ([], ⟨t, parent⟩) :: visitsAll named t 0 t.children := by
  cases t with
  | node label field start stop missing children => rw [visits, Tree.children]

/-- The visits of siblings, one sibling after the other. -/
theorem visitsAll_eq (named : Bool) (parent : Tree) (i : Nat) (ts : List Tree) :
    visitsAll named parent i ts
      = ((ts.filter (Tree.isWalked named)).zipIdx i).flatMap
          fun x => (visits named (some parent) x.1).map (under x.2) := by
  induction ts generalizing i with
  | nil => rfl
  | cons t ts ih =>
    rw [visitsAll, List.filter_cons]
    split
    · rw [List.zipIdx_cons, List.flatMap_cons, ih]
    · exact ih i

/-! ## Which visits there are -/

/-- A visit below siblings is one below the sibling at the first place of its path. -/
theorem mem_visitsAll_iff {named : Bool} {parent : Tree} {i : Nat} {ts : List Tree}
    {x : List Nat × Visit} :
    x ∈ visitsAll named parent i ts
      ↔ ∃ j c, (ts.filter (Tree.isWalked named))[j]? = some c
        ∧ ∃ y ∈ visits named (some parent) c, x = under (i + j) y := by
  induction ts generalizing i with
  | nil => simp [visitsAll]
  | cons t ts ih =>
    rw [visitsAll, List.filter_cons]
    split
    next hkeep =>
      rw [List.mem_append, List.mem_map, ih]
      constructor
      · -- below the first sibling, or below a later one whose place counts from the next
        rintro (⟨y, hy, rfl⟩ | ⟨j, c, hc, y, hy, rfl⟩)
        · exact ⟨0, t, rfl, y, hy, rfl⟩
        · refine ⟨j + 1, c, hc, y, hy, ?_⟩
          rw [Nat.add_assoc, Nat.add_comm 1 j]
      · rintro ⟨j, c, hc, y, hy, rfl⟩
        cases j with
        | zero =>
          cases hc
          exact .inl ⟨y, hy, rfl⟩
        | succ j =>
          refine .inr ⟨j, c, hc, y, hy, ?_⟩
          rw [Nat.add_assoc, Nat.add_comm 1 j]
    next => exact ih

/-- A visit with a path lies below the child that the path begins with. -/
theorem cons_mem_visits_iff {named : Bool} {parent : Option Tree} {t : Tree} {i : Nat}
    {path : List Nat} {v : Visit} :
    (i :: path, v) ∈ visits named parent t
      ↔ ∃ c, (t.walked named)[i]? = some c ∧ (path, v) ∈ visits named (some t) c := by
  rw [visits_eq, List.mem_cons, mem_visitsAll_iff, ← Tree.walked_eq]
  constructor
  · rintro (h | ⟨j, c, hc, ⟨q, u⟩, hy, h⟩)
    · cases h
    · rw [Nat.zero_add] at h
      cases h
      exact ⟨c, hc, hy⟩
  · rintro ⟨c, hc, hv⟩
    refine .inr ⟨i, c, hc, (path, v), hv, ?_⟩
    rw [Nat.zero_add]
    rfl

/-- The visit without a path is that of the node itself. -/
theorem nil_mem_visits_iff {named : Bool} {parent : Option Tree} {t : Tree} {v : Visit} :
    ([], v) ∈ visits named parent t ↔ v = ⟨t, parent⟩ := by
  rw [visits_eq, List.mem_cons, mem_visitsAll_iff]
  constructor
  · rintro (h | ⟨j, c, -, y, -, h⟩)
    · cases h
      rfl
    · cases h
  · rintro rfl
    exact .inl rfl

/-- **What is visited below a root.** Every path leads to one visit, of the node at its end and the
node one place before. -/
theorem concat_mem_visits_iff {named : Bool} {parent : Option Tree} {root : Tree}
    {path : List Nat} {i : Nat} {v : Visit} :
    (path ++ [i], v) ∈ visits named parent root
      ↔ ∃ t, root.at? named path = some t ∧ (t.walked named)[i]? = some v.tree
        ∧ v.parent = some t := by
  -- the path leads through children to the parent, of which the last step takes one
  induction path generalizing root parent with
  | nil =>
    rw [List.nil_append, cons_mem_visits_iff]
    constructor
    · rintro ⟨c, hc, hv⟩
      rw [nil_mem_visits_iff] at hv
      subst hv
      exact ⟨root, rfl, hc, rfl⟩
    · rintro ⟨t, ht, hv, hparent⟩
      cases ht
      refine ⟨v.tree, hv, ?_⟩
      rw [nil_mem_visits_iff, ← hparent]
  | cons j path ih =>
    rw [List.cons_append, cons_mem_visits_iff, Tree.at?]
    constructor
    · rintro ⟨c, hc, hv⟩
      obtain ⟨t, ht, hrest⟩ := ih.mp hv
      refine ⟨t, ?_, hrest⟩
      rw [hc, Option.bind_some, ht]
    · rintro ⟨t, ht, hrest⟩
      obtain ⟨c, hc, hct⟩ := Option.bind_eq_some_iff.mp ht
      exact ⟨c, hc, ih.mpr ⟨t, hct, hrest⟩⟩

/-- What is visited is at the end of its path. -/
theorem at?_of_mem_visits {named : Bool} {parent : Option Tree} {t : Tree} {path : List Nat}
    {v : Visit} (h : (path, v) ∈ visits named parent t) : t.at? named path = some v.tree := by
  induction path generalizing t parent with
  | nil =>
    rw [nil_mem_visits_iff] at h
    rw [h, Tree.at?]
  | cons i path ih =>
    obtain ⟨c, hc, hv⟩ := cons_mem_visits_iff.mp h
    rw [Tree.at?, hc, Option.bind_some, ih hv]

/-- What is at the end of a path is visited. -/
theorem exists_mem_visits_of_at? {named : Bool} {t u : Tree} {path : List Nat}
    (parent : Option Tree) (h : t.at? named path = some u) :
    ∃ v, (path, v) ∈ visits named parent t ∧ v.tree = u := by
  induction path generalizing t parent with
  | nil =>
    obtain rfl : t = u := Option.some.inj h
    exact ⟨⟨t, parent⟩, nil_mem_visits_iff.mpr rfl, rfl⟩
  | cons i path ih =>
    obtain ⟨c, hc, hu⟩ := Option.bind_eq_some_iff.mp h
    obtain ⟨v, hv, hvu⟩ := ih (some t) hu
    exact ⟨v, cons_mem_visits_iff.mpr ⟨c, hc, hv⟩, hvu⟩

/-- A path leads to a node of the tree. -/
theorem Tree.mem_nodes_of_at? {named : Bool} {root t : Tree} {path : List Nat}
    (h : root.at? named path = some t) : t ∈ root.nodes := by
  induction path generalizing root with
  | nil =>
    cases h
    exact t.self_mem_nodes
  | cons i path ih =>
    obtain ⟨c, hc, ht⟩ := Option.bind_eq_some_iff.mp h
    have hmem : c ∈ root.walked named := List.mem_of_getElem? hc
    rw [walked_eq] at hmem
    exact mem_nodes_of_mem_children (List.mem_filter.mp hmem).1 (ih ht)

/-- A path through all children leads to every node. -/
theorem Tree.exists_at?_of_mem_nodes {u root : Tree} (h : u ∈ root.nodes) :
    ∃ path, root.at? false path = some u := by
  induction root using below_induction with
  | step t ih =>
    rcases mem_nodes_iff.mp h with rfl | ⟨c, hc, hu⟩
    · exact ⟨[], rfl⟩
    · obtain ⟨path, hpath⟩ := ih c hc c c.self_mem_nodes hu
      obtain ⟨i, hi⟩ := List.mem_iff_getElem?.mp hc
      have hchild : (t.walked false)[i]? = some c := hi
      exact ⟨i :: path, by rw [Tree.at?, hchild, Option.bind_some, hpath]⟩

/-! ## Their order -/

mutual

/-- **The visits below a node are listed in order.** -/
theorem pairwise_visits (named : Bool) (parent : Option Tree) :
    ∀ t, (visits named parent t).Pairwise fun x y => x.1 < y.1
  | .node label field start stop missing children => by
    rw [visits_eq, List.pairwise_cons]
    refine ⟨?_, pairwise_visitsAll named _ 0 children⟩
    intro x hx
    obtain ⟨j, c, -, y, -, rfl⟩ := mem_visitsAll_iff.mp hx
    exact List.nil_lt_cons _ _

theorem pairwise_visitsAll (named : Bool) (parent : Tree) (i : Nat) :
    ∀ ts, (visitsAll named parent i ts).Pairwise fun x y => x.1 < y.1
  | [] => by
    rw [visitsAll]
    exact List.Pairwise.nil
  | t :: ts => by
    rw [visitsAll]
    split
    · rw [List.pairwise_append]
      refine ⟨?_, pairwise_visitsAll named parent (i + 1) ts, ?_⟩
      · rw [List.pairwise_map]
        refine (pairwise_visits named (some parent) t).imp fun h => ?_
        exact List.cons_lt_cons_iff.mpr (.inr ⟨rfl, h⟩)
      · -- what is below a later sibling has a larger first place
        intro x hx y hy
        obtain ⟨x, -, rfl⟩ := List.mem_map.mp hx
        obtain ⟨j, c, -, y, -, rfl⟩ := mem_visitsAll_iff.mp hy
        refine List.cons_lt_cons_iff.mpr (.inl ?_)
        omega
    · exact pairwise_visitsAll named parent i ts

end

/-! ## Walks -/

theorem map_snd_visitsAll (named : Bool) (parent : Tree) (i : Nat) (ts : List Tree) :
    (visitsAll named parent i ts).map Prod.snd
      = ((ts.filter (Tree.isWalked named)).map fun c => (⟨c, some parent⟩ : Visit)).flatMap
          fun v => (visits named v.parent v.tree).map Prod.snd := by
  have hunder : ∀ j : Nat, Prod.snd ∘ under j = Prod.snd := fun _ => rfl
  induction ts generalizing i with
  | nil => rfl
  | cons t ts ih =>
    rw [visitsAll, List.filter_cons]
    split
    · rw [List.map_append, List.map_map, hunder, ih, List.map_cons, List.flatMap_cons]
    · exact ih i

/-- The visits of the children of a node that is visited. -/
def Visit.below (named : Bool) (v : Visit) : List Visit :=
  (v.tree.walked named).map (⟨·, some v.tree⟩)

/-- What is visited with a node: the node itself, and all below its children in order. -/
theorem map_snd_visits (named : Bool) (v : Visit) :
    (visits named v.parent v.tree).map Prod.snd
      = v :: (v.below named).flatMap fun u => (visits named u.parent u.tree).map Prod.snd := by
  rw [visits_eq, List.map_cons, map_snd_visitsAll, ← Tree.walked_eq]
  rfl

/-- What is pending in place of a visit has fewer nodes in and below it. -/
theorem Visit.sizeAll_below_lt (named : Bool) (v : Visit) :
    Tree.sizeAll ((v.below named).map Visit.tree) < v.tree.size := by
  have htrees : (v.below named).map Visit.tree = v.tree.walked named := by
    rw [Visit.below, List.map_map]
    exact List.map_id _
  rw [htrees]
  exact Tree.sizeAll_walked_lt named v.tree

theorem walkFrom_cons (named : Bool) (fuel : Nat) (v : Visit) (pending : List Visit) :
    walkFrom named (fuel + 1) (v :: pending)
      = v :: walkFrom named fuel (v.below named ++ pending) :=
  rfl

/-- With as many steps as there are nodes a walk visits every node below those pending. Induction
on the steps; the nodes in and below those pending get fewer with each. -/
theorem walkFrom_eq {named : Bool} {fuel : Nat} {pending : List Visit}
    (h : Tree.sizeAll (pending.map Visit.tree) ≤ fuel) :
    walkFrom named fuel pending
      = pending.flatMap fun v => (visits named v.parent v.tree).map Prod.snd := by
  induction fuel generalizing pending with
  | zero =>
    cases pending with
    | nil => rfl
    | cons v pending =>
      have hpos := Tree.sizeAll_walked_lt named v.tree
      rw [List.map_cons, Tree.sizeAll] at h
      omega
  | succ fuel ih =>
    cases pending with
    | nil => rfl
    | cons v pending =>
      have hbelow := v.sizeAll_below_lt named
      rw [List.map_cons, Tree.sizeAll] at h
      rw [walkFrom_cons, ih, List.flatMap_append, List.flatMap_cons, map_snd_visits,
        List.cons_append]
      -- the children have fewer nodes than what was pending
      rw [List.map_append, Tree.sizeAll_append]
      omega

/-- **A walk visits every node once, in pre-order.** -/
theorem walk_eq (named : Bool) (root : Tree) :
    walk named root = (visits named none root).map Prod.snd := by
  have hsize : Tree.sizeAll ([(⟨root, none⟩ : Visit)].map Visit.tree) ≤ root.size := by
    refine Nat.le_of_eq ?_
    rw [List.map_singleton, Tree.sizeAll, Tree.sizeAll, Nat.add_zero]
  rw [walk, walkFrom_eq hsize, List.flatMap_singleton]

end OptionTypes.Syntax
