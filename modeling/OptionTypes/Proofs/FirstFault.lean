import Mathlib.Data.List.DropRight
import OptionTypes.Proofs.Preorder
import OptionTypes.Proofs.Utf8
import OptionTypes.Script

/-!
# The fault that is reported

A text that does not fit the grammar is reported with one place, that of the first node at fault
which a walk meets. Where the spans of a tree are nested and in order, a walk meets nodes in the
order in which they start, so that no other node at fault starts earlier, and none encloses the one
that is reported.

* `Tree.IsNested` says that the spans of a tree are nested and in order; a missing node spans
  nothing, and several nodes may start at one offset.
* `pairwise_start_visits`: along a walk the starts do not decrease.
* `Script.reports_first_fault`: what is reported of a tree.
-/

namespace OptionTypes

open Syntax

namespace Syntax

/-! ## Nested spans -/

/-- Whether the children of a node lie within it, one behind the other. -/
def Tree.Encloses (t : Tree) : Prop :=
  t.start ≤ t.stop ∧ (∀ c ∈ t.children, t.start ≤ c.start ∧ c.stop ≤ t.stop)
    ∧ t.children.Pairwise fun c d => c.stop ≤ d.start

instance (t : Tree) : Decidable t.Encloses := inferInstanceAs (Decidable (_ ∧ _ ∧ _))

/-- Whether the spans of a tree are nested and in order. -/
def Tree.IsNested (root : Tree) : Prop := ∀ t ∈ root.nodes, t.Encloses

instance (root : Tree) : Decidable root.IsNested := inferInstanceAs (Decidable (∀ t ∈ _, _))

variable {root t u : Tree} {named : Bool}

theorem Tree.IsNested.of_mem (h : root.IsNested) (hu : u ∈ root.nodes) : u.IsNested :=
  fun v hv => h v (nodes_subset_of_mem root hu hv)

theorem Tree.IsNested.child (h : t.IsNested) (hu : u ∈ t.children) : u.IsNested :=
  h.of_mem (mem_nodes_of_mem_children hu u.self_mem_nodes)

/-- Everything below a node lies within it. Induction on the tree, from a child to its parent. -/
theorem Tree.IsNested.within (h : t.IsNested) :
    ∀ u ∈ t.nodes, t.start ≤ u.start ∧ u.stop ≤ t.stop := by
  induction t using below_induction with
  | step t ih =>
    intro u hu
    rcases mem_nodes_iff.mp hu with rfl | ⟨c, hc, hu⟩
    · exact ⟨Nat.le_refl _, Nat.le_refl _⟩
    · have houter := (h t t.self_mem_nodes).2.1 c hc
      have hinner := ih c hc c c.self_mem_nodes (h.child hc) u hu
      omega

/-! ## The order of starts -/

/-- What is visited among siblings lies in one of them. -/
theorem exists_child_of_mem_visitsAll {parent : Tree} {i : Nat} {ts : List Tree}
    {x : List Nat × Visit} (h : x ∈ visitsAll named parent i ts) :
    ∃ c ∈ ts, x.2.tree ∈ c.nodes := by
  obtain ⟨j, c, hc, ⟨path, v⟩, hy, rfl⟩ := mem_visitsAll_iff.mp h
  exact ⟨c, List.mem_of_mem_filter (List.mem_of_getElem? hc),
    Tree.mem_nodes_of_at? (at?_of_mem_visits hy)⟩

mutual

/-- **Along a walk the starts do not decrease.** -/
theorem pairwise_start_visits (named : Bool) (parent : Option Tree) :
    ∀ t : Tree, t.IsNested →
      (visits named parent t).Pairwise fun x y => x.2.tree.start ≤ y.2.tree.start
  | .node label field start stop missing children, h => by
    obtain ⟨-, -, hordered⟩ := h _ (Tree.self_mem_nodes _)
    rw [visits_eq, List.pairwise_cons]
    refine ⟨?_, pairwise_start_visitsAll named _ 0 children (fun c hc => h.child hc) hordered⟩
    intro x hx
    obtain ⟨c, hc, hbelow⟩ := exists_child_of_mem_visitsAll hx
    exact (h.within x.2.tree (Tree.mem_nodes_of_mem_children hc hbelow)).1

theorem pairwise_start_visitsAll (named : Bool) (parent : Tree) (i : Nat) :
    ∀ ts : List Tree, (∀ t ∈ ts, t.IsNested) → (ts.Pairwise fun c d => c.stop ≤ d.start) →
      (visitsAll named parent i ts).Pairwise fun x y => x.2.tree.start ≤ y.2.tree.start
  | [], _, _ => List.Pairwise.nil
  | t :: ts, hnested, hordered => by
    obtain ⟨ht, hts⟩ := List.forall_mem_cons.mp hnested
    obtain ⟨hbefore, hordered⟩ := List.pairwise_cons.mp hordered
    rw [visitsAll]
    split
    · refine List.pairwise_append.mpr ⟨?_, pairwise_start_visitsAll named parent (i + 1) ts hts
        hordered, ?_⟩
      · exact List.pairwise_map.mpr (pairwise_start_visits named (some parent) t ht)
      · -- what is in a node starts before its end, and what is in a later sibling starts behind it
        intro x hx y hy
        obtain ⟨⟨path, v⟩, hv, rfl⟩ := List.mem_map.mp hx
        obtain ⟨c, hc, hbelow⟩ := exists_child_of_mem_visitsAll hy
        have hmem := Tree.mem_nodes_of_at? (at?_of_mem_visits hv)
        have hleft := ht.within v.tree hmem
        have hspan := (ht v.tree hmem).1
        have hright := (hts c hc).within y.2.tree hbelow
        have hgap := hbefore c hc
        show v.tree.start ≤ y.2.tree.start
        omega
    · exact pairwise_start_visitsAll named parent i ts hts hordered

end

/-! ## The first fault -/

/-- The first fault is the first node at fault that a walk visits. -/
theorem firstFault?_eq (root : Tree) :
    firstFault? root
      = ((visits false none root).find? (·.2.tree.isFaulty)).map (·.2.tree) := by
  rw [firstFault?, walk_eq, List.find?_map, Option.map_map]
  rfl

/-- There is no fault just if no node is at fault. -/
theorem firstFault?_eq_none_iff :
    firstFault? root = none ↔ ∀ u ∈ root.nodes, u.isFaulty = false := by
  rw [firstFault?_eq, Option.map_eq_none_iff, List.find?_eq_none]
  constructor
  · intro h u hu
    obtain ⟨path, hpath⟩ := Tree.exists_at?_of_mem_nodes hu
    obtain ⟨v, hv, rfl⟩ := exists_mem_visits_of_at? none hpath
    exact Bool.eq_false_iff.mpr (h (path, v) hv)
  · rintro h ⟨path, v⟩ hv
    have hnode := h v.tree (Tree.mem_nodes_of_at? (at?_of_mem_visits hv))
    exact Bool.eq_false_iff.mp hnode

/-- What is found first in a list in some order comes before all else that fits. -/
theorem eq_or_rel_of_find? {α : Type} {R : α → α → Prop} {p : α → Bool} {xs : List α} {x y : α}
    (horder : xs.Pairwise R) (hx : xs.find? p = some x) (hy : y ∈ xs) (hfits : p y = true) :
    y = x ∨ R x y := by
  obtain ⟨-, before, after, rfl, hbefore⟩ := List.find?_eq_some_iff_append.mp hx
  rcases List.mem_append.mp hy with hy | hy
  · have hnot := hbefore y hy
    rw [hfits] at hnot
    cases hnot
  · have hafter := (List.pairwise_append.mp horder).2.1
    exact (List.mem_cons.mp hy).imp_right (List.rel_of_pairwise_cons hafter)

/-- **The first fault** comes before every other in the order of the document; in a tree with nested
spans it starts no later either. -/
theorem exists_first_fault (h : ∃ u ∈ root.nodes, u.isFaulty = true) :
    ∃ path t, root.at? false path = some t ∧ t.isFaulty = true ∧ firstFault? root = some t
      ∧ ∀ q u, root.at? false q = some u → u.isFaulty = true →
        (q = path ∨ path < q) ∧ (root.IsNested → t.start ≤ u.start) := by
  obtain ⟨u, hu, hfaulty⟩ := h
  cases hfirst : (visits false none root).find? (·.2.tree.isFaulty) with
  | none =>
    have hnone : firstFault? root = none := by rw [firstFault?_eq, hfirst]; rfl
    rw [firstFault?_eq_none_iff.mp hnone u hu] at hfaulty
    cases hfaulty
  | some x =>
    obtain ⟨path, v⟩ := x
    have hfound : firstFault? root = some v.tree := by rw [firstFault?_eq, hfirst]; rfl
    have hfaulty : v.tree.isFaulty = true := List.find?_some (a := (path, v)) hfirst
    -- all nodes are visited, in the order of their paths and of their starts: both lists are sorted
    refine ⟨path, v.tree, at?_of_mem_visits (List.mem_of_find?_eq_some hfirst), hfaulty, hfound, ?_⟩
    intro q w hq hw
    obtain ⟨z, hz, rfl⟩ := exists_mem_visits_of_at? none hq
    constructor
    · rcases eq_or_rel_of_find? (pairwise_visits false none root) hfirst hz hw with heq | hlt
      · obtain ⟨rfl, -⟩ := Prod.mk.inj heq
        exact .inl rfl
      · exact .inr hlt
    · intro hnested
      rcases eq_or_rel_of_find? (pairwise_start_visits false none root hnested) hfirst hz hw
        with heq | hle
      · obtain rfl : z = v := congrArg Prod.snd heq
        exact Nat.le_refl _
      · exact hle

/-! ## Places -/

/-- Whether an offset is in a line and at a byte of it, both counted from one: whole lines precede
the bytes before it in its own. -/
def Place.IsAt (source : Bytes) (offset line column : Nat) : Prop :=
  ∃ before inLine : Bytes, source.take offset = before ++ inLine
    ∧ (before = [] ∨ before.getLast? = some 0x0A) ∧ 0x0A ∉ inLine
    ∧ line = before.count 0x0A + 1 ∧ column = inLine.length + 1

/-- The line and the column of an offset tell where it is: so many line ends come before it, and so
many bytes come between the last of these and it. -/
theorem Place.isAt (source : Bytes) (offset : Nat) :
    IsAt source offset (lineOf source offset) (columnOf source offset) := by
  have hsplit := List.rdropWhile_append_rtakeWhile (p := (· != 0x0A)) (l := source.take offset)
  have hinLine : (0x0A : UInt8) ∉ (source.take offset).rtakeWhile (· != 0x0A) := by
    intro hmem
    have hne := List.mem_rtakeWhile_imp hmem
    simp at hne
  refine ⟨(source.take offset).rdropWhile (· != 0x0A), (source.take offset).rtakeWhile (· != 0x0A),
    hsplit.symm, ?_, hinLine, ?_, ?_⟩
  · -- what is left over ends where the dropping stopped, at the end of a line
    by_cases hnil : (source.take offset).rdropWhile (· != 0x0A) = []
    · exact .inl hnil
    · have hlast := List.rdropWhile_last_not (p := (· != 0x0A)) _ hnil
      have hend : ((source.take offset).rdropWhile (· != 0x0A)).getLast hnil = 0x0A := by
        simpa using hlast
      rw [List.getLast?_eq_some_getLast hnil, hend]
      exact .inr rfl
  · have hcount : (source.take offset).count 0x0A
        = ((source.take offset).rdropWhile (· != 0x0A)).count 0x0A
          + ((source.take offset).rtakeWhile (· != 0x0A)).count 0x0A := by
      rw [← List.count_append, hsplit]
    rw [lineOf, hcount, List.count_eq_zero_of_not_mem hinLine, Nat.add_zero]
  · rw [columnOf, List.rtakeWhile, List.length_reverse]

end Syntax

/-! ## Reports -/

/-- The script of a tree, if nothing in it is at fault. -/
def Script.ofTree (source : Bytes) (root : Tree) : Except SourceError Script :=
  match firstFault? root with
  | some t => .error (.fault (.atNode source t))
  | none => .ok ⟨source, root⟩

/-- A text of characters is read by looking at its tree. -/
theorem Script.read_eq_ofTree (chars : List Char) :
    Script.read (Text.ofChars chars)
      = Script.ofTree (Utf8.encode chars) (Dialect.javascript.parse chars) := by
  rw [Script.read, Utf8.charsOfText_ofChars]
  rfl

/-- **The fault that is reported is the first.** There is none exactly if no node is at fault.
Otherwise the line and the column that are reported are those of a node at fault; where spans are
nested and in order, no node at fault starts earlier, and the node is in no other that is.

A walk visits nodes in the order of their paths, and with nested spans in the order of their starts
as well (`pairwise_start_visits`); the first fault is the first one that it visits. -/
theorem Script.reports_first_fault (source : Bytes) (root : Tree) :
    (firstFault? root = none ↔ ∀ u ∈ root.nodes, u.isFaulty = false)
      ∧ (root.IsNested → (∃ u ∈ root.nodes, u.isFaulty = true) →
        ∃ path t f, root.at? false path = some t ∧ t.isFaulty = true ∧ firstFault? root = some t
          ∧ Script.ofTree source root = .error (.fault f)
          ∧ Place.IsAt source t.start f.line f.column
          ∧ ∀ q u, root.at? false q = some u → u.isFaulty = true →
            t.start ≤ u.start ∧ (q <+: path → q = path))
      ∧ ∀ chars, Script.read (Text.ofChars chars)
          = Script.ofTree (Utf8.encode chars) (Dialect.javascript.parse chars) := by
  refine ⟨firstFault?_eq_none_iff, ?_, Script.read_eq_ofTree⟩
  intro hnested hfaulty
  obtain ⟨path, t, hpath, ht, hfirst, hbefore⟩ := exists_first_fault hfaulty
  have hreport : Script.ofTree source root = .error (.fault (.atNode source t)) := by
    rw [Script.ofTree, hfirst]
  refine ⟨path, t, .atNode source t, hpath, ht, hfirst, hreport, Place.isAt source t.start, ?_⟩
  intro q u hq hu
  obtain ⟨horder, hstart⟩ := hbefore q u hq hu
  refine ⟨hstart hnested, ?_⟩
  -- a node that encloses another one comes before it
  intro hencloses
  exact horder.resolve_right (List.not_lt.mpr hencloses.le)

/-- The source of a tree with faults that start at one offset, some of them without a span. -/
def tangledSource : Bytes := Utf8.encode "run(a\n \x7db".toList

/-- The fault around a missing node and a token that does not fit. -/
def tangled : Tree :=
  .ofKind .program 0 9
    [.ofKind .expressionStatement 0 5 [.ofKind .identifier 0 3 [], .ofToken "(" 3 4,
        .ofKind .identifier 4 5 []],
      .ofKind .emptyStatement 7 7 [],
      .node .fault none 7 9 false
        [.node (.token ")") none 7 7 true [], .node .fault none 7 8 false [],
          .ofKind .identifier 8 9 []],
      .node (.token ";") none 9 9 true []]

/-- The outer fault is reported, at the second byte of the second line. -/
theorem Script.reports_first_fault_tangled :
    tangled.IsNested ∧ (∃ u ∈ tangled.nodes, u.isFaulty = true)
      ∧ ∃ t f, firstFault? tangled = some t ∧ t.stop = 9
        ∧ Script.ofTree tangledSource tangled = .error (.fault f) ∧ f.line = 2 ∧ f.column = 2
        ∧ Place.IsAt tangledSource t.start f.line f.column
        ∧ ∀ u ∈ tangled.nodes, u.isFaulty = true → t.start ≤ u.start := by
  have hnested : tangled.IsNested := by decide +kernel
  have hfaulty : ∃ u ∈ tangled.nodes, u.isFaulty = true := by decide +kernel
  obtain ⟨path, t, f, -, -, hfirst, hreport, hplace, hbefore⟩ :=
    (Script.reports_first_fault tangledSource tangled).2.1 hnested hfaulty
  -- the node that is found, and its place
  have hfound : (firstFault? tangled).map (fun t => (t.stop, Place.lineOf tangledSource t.start,
      Place.columnOf tangledSource t.start)) = some (9, 2, 2) := by decide +kernel
  rw [hfirst, Option.map_some, Option.some.injEq, Prod.mk.injEq, Prod.mk.injEq] at hfound
  obtain ⟨hstop, hline, hcolumn⟩ := hfound
  obtain rfl : f = .atNode tangledSource t := by
    rw [Script.ofTree, hfirst] at hreport
    cases hreport
    rfl
  refine ⟨hnested, hfaulty, t, _, hfirst, hstop, hreport, hline, hcolumn, hplace, ?_⟩
  intro u hu hfault
  obtain ⟨q, hq⟩ := Tree.exists_at?_of_mem_nodes hu
  exact (hbefore q u hq hfault).1

end OptionTypes
