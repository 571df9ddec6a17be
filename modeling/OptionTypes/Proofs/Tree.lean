import Mathlib.Tactic.Common
import OptionTypes.Syntax.Tree

/-!
# Sizes of trees

A loop over the nodes of a tree works off a list of pending nodes. The number of nodes in and below
them bounds the steps that are left: going on below a node leaves fewer nodes than there were.

* `Tree.sizeAll_le_of_sublist` and `Tree.sizeAll_children_lt` bound what any choice of children
  leaves.
* `Tree.sizeAll_walked_lt` bounds what a walk leaves.

`Tree.nodes` lists the nodes themselves, so that a statement about all of them is one about members
of a list.
-/

namespace OptionTypes.Syntax.Tree

/-! ## Sizes -/

@[simp] theorem sizeAll_append (ts us : List Tree) :
    sizeAll (ts ++ us) = sizeAll ts + sizeAll us := by
  induction ts with
  | nil => simp [sizeAll]
  | cons t ts ih =>
    rw [List.cons_append, sizeAll, sizeAll, ih]
    omega

theorem sizeAll_le_of_sublist {ts us : List Tree} (h : ts.Sublist us) :
    sizeAll ts ≤ sizeAll us := by
  induction h with
  | slnil => exact Nat.le_refl _
  | cons u _ ih =>
    rw [sizeAll]
    omega
  | cons_cons u _ ih =>
    rw [sizeAll, sizeAll]
    omega

/-- The children of a node have fewer nodes than the node has. -/
theorem sizeAll_children_lt (t : Tree) : sizeAll t.children < t.size := by
  cases t with
  | node label field start stop missing children =>
    rw [size]
    exact Nat.lt_succ_self _

/-! ## Walks -/

/-- Whether a walk goes on to a node. -/
def isWalked (named : Bool) (t : Tree) : Bool := !named || t.isNamed

/-- A walk goes on to all children, or to the named ones. -/
theorem walked_eq (named : Bool) (t : Tree) :
    t.walked named = t.children.filter (isWalked named) := by
  cases named with
  | false => exact (List.filter_eq_self.mpr fun _ _ => rfl).symm
  | true => rfl

/-- What a walk goes on to below a node has fewer nodes. -/
theorem sizeAll_walked_lt (named : Bool) (t : Tree) : sizeAll (t.walked named) < t.size := by
  rw [walked_eq]
  exact Nat.lt_of_le_of_lt (sizeAll_le_of_sublist List.filter_sublist) (sizeAll_children_lt t)

/-! ## Nodes -/

mutual

/-- A node and all nodes below it. -/
def nodes : Tree → List Tree
  | node label field start stop missing children =>
    node label field start stop missing children :: nodesAll children

/-- Several nodes and all nodes below them. -/
def nodesAll : List Tree → List Tree
  | [] => []
  | t :: ts => nodes t ++ nodesAll ts

end

/-- The nodes of a tree are its root and those below the children. -/
theorem nodes_eq (t : Tree) : t.nodes = t :: nodesAll t.children := by
  cases t with
  | node label field start stop missing children => rw [nodes, Tree.children]

/-- A node below several trees is one below one of them. -/
theorem mem_nodesAll_iff {u : Tree} {ts : List Tree} :
    u ∈ nodesAll ts ↔ ∃ t ∈ ts, u ∈ t.nodes := by
  induction ts with
  | nil => simp [nodesAll]
  | cons t ts ih => simp [nodesAll, ih]

theorem self_mem_nodes (t : Tree) : t ∈ t.nodes := by
  rw [nodes_eq]
  exact List.mem_cons_self ..

/-- A node of a tree is the root or one below a child. -/
theorem mem_nodes_iff {u t : Tree} : u ∈ t.nodes ↔ u = t ∨ ∃ c ∈ t.children, u ∈ c.nodes := by
  rw [nodes_eq, List.mem_cons, mem_nodesAll_iff]

theorem mem_nodes_of_mem_children {u c t : Tree} (hc : c ∈ t.children) (hu : u ∈ c.nodes) :
    u ∈ t.nodes :=
  mem_nodes_iff.mpr (.inr ⟨c, hc, hu⟩)

mutual

/-- The nodes below a node of a tree are nodes of the tree. -/
theorem nodes_subset_of_mem {u : Tree} : ∀ t : Tree, u ∈ t.nodes → u.nodes ⊆ t.nodes
  | node label field start stop missing children, h => by
    rw [nodes, List.mem_cons] at h
    rcases h with rfl | h
    · exact List.Subset.refl _
    · rw [nodes]
      exact List.subset_cons_of_subset _ (nodesAll_subset_of_mem children h)

theorem nodesAll_subset_of_mem {u : Tree} :
    ∀ ts : List Tree, u ∈ nodesAll ts → u.nodes ⊆ nodesAll ts
  | [], h => nomatch h
  | t :: ts, h => by
    rw [nodesAll, List.mem_append] at h
    rw [nodesAll]
    rcases h with h | h
    · exact List.subset_append_of_subset_left _ (nodes_subset_of_mem t h)
    · exact List.subset_append_of_subset_right _ (nodesAll_subset_of_mem ts h)

end

/-- What holds of every node of a tree holds of the root and of every node below a child. -/
theorem forall_mem_nodes_iff {p : Tree → Prop} {t : Tree} :
    (∀ u ∈ t.nodes, p u) ↔ p t ∧ ∀ c ∈ t.children, ∀ u ∈ c.nodes, p u := by
  constructor
  · intro h
    refine ⟨h t t.self_mem_nodes, ?_⟩
    intro c hc u hu
    exact h u (mem_nodes_of_mem_children hc hu)
  · rintro ⟨hself, hbelow⟩ u hu
    rcases mem_nodes_iff.mp hu with rfl | ⟨c, hc, hu⟩
    · exact hself
    · exact hbelow c hc u hu

mutual

/-- **Induction over the nodes of a tree.** What holds of a node provided that it holds of all nodes
below it, holds of all nodes. The recursion goes through a tree and its children side by side. -/
theorem forall_mem_nodes_of_step {p : Tree → Prop}
    (step : ∀ t, (∀ c ∈ t.children, ∀ u ∈ c.nodes, p u) → p t) : ∀ t : Tree, ∀ u ∈ t.nodes, p u
  | node label field start stop missing children => by
    have hbelow : ∀ c ∈ children, ∀ u ∈ c.nodes, p u := by
      intro c hc u hu
      exact forall_mem_nodesAll_of_step step children u (mem_nodesAll_iff.mpr ⟨c, hc, hu⟩)
    exact forall_mem_nodes_iff.mpr ⟨step _ hbelow, hbelow⟩

theorem forall_mem_nodesAll_of_step {p : Tree → Prop}
    (step : ∀ t, (∀ c ∈ t.children, ∀ u ∈ c.nodes, p u) → p t) :
    ∀ ts : List Tree, ∀ u ∈ nodesAll ts, p u
  | [] => nofun
  | t :: ts => by
    rw [nodesAll, List.forall_mem_append]
    exact ⟨forall_mem_nodes_of_step step t, forall_mem_nodesAll_of_step step ts⟩

end

/-- Induction over a tree: what holds of a node when it holds of all nodes below holds of all. -/
theorem below_induction {p : Tree → Prop}
    (step : ∀ t, (∀ c ∈ t.children, ∀ u ∈ c.nodes, p u) → p t) (t : Tree) : p t :=
  forall_mem_nodes_of_step step t t t.self_mem_nodes

end OptionTypes.Syntax.Tree
