import OptionTypes.Proofs.Grammar.Clause
import OptionTypes.Proofs.Grammar.LaysStatements

/-!
# Every script has a tree with nested spans

The statements of a script stand in a row, and the program is around all of them. Comments are put
in last. No node begins or ends inside a comment, so that each one lies in a node or outside of it,
and a row of nodes with a comment between them is a row again.

* `Laid.insertComment`: a comment that is put in leaves spans nested.
* `nested_parse`: the spans of the tree of a script are nested, and its nodes begin and end between
  characters.
-/

namespace OptionTypes.Syntax

open Erasure (IsBoundary)

/-- Whether the nodes of a tree begin and end between characters. -/
def Tree.OnBoundaries (root : Tree) (chars : List Char) : Prop :=
  ∀ u ∈ root.nodes, IsBoundary chars u.start ∧ IsBoundary chars u.stop

/-! ## Comments between the nodes -/

/-- A leaf in which no node begins or ends. -/
structure Separate (E : Nat → Prop) (c : Tree) : Prop where
  leaf : c.children = []
  span : c.start ≤ c.stop
  start : E c.start
  stop : E c.stop
  clear : ∀ n, E n → n ≤ c.start ∨ c.stop ≤ n

/-- A comment is laid out by itself, as it has no children. -/
theorem Separate.laid {E : Nat → Prop} {c : Tree} (hc : Separate E c) : Laid E c := by
  rw [laid_iff, hc.leaf]
  exact ⟨hc.start, hc.stop, .nil hc.span⟩

mutual

/-- **A comment that is put in leaves spans nested.** -/
theorem Laid.insertComment {E : Nat → Prop} {c : Tree} (hc : Separate E c) :
    ∀ t : Tree, Laid E t → t.start ≤ c.start → c.stop ≤ t.stop → Laid E (insertComment c t)
  | .node label field start stop missing children, h, hstart, hstop => by
    obtain ⟨hfirst, hlast, hrow⟩ := laid_iff.mp h
    rw [Syntax.insertComment]
    exact laid_iff.mpr ⟨hfirst, hlast, Row.insertAmong hc children hrow hstart hstop⟩

/-- A comment takes its place in a row: before the first tree that ends behind it, or inside that
tree if it begins before the comment does. Since a comment is apart from the ends of all nodes, it
is either outside of a tree or within its span. -/
theorem Row.insertAmong {E : Nat → Prop} {c : Tree} (hc : Separate E c) :
    ∀ (ts : List Tree) {lo hi : Nat}, Row E lo ts hi → lo ≤ c.start → c.stop ≤ hi →
      Row E lo (insertAmong c ts) hi
  | [], lo, hi, _, hlo, hhi => row_singleton.mpr ⟨hlo, hc.laid, hhi⟩
  | t :: ts, lo, hi, .cons h ht hlaid hts, hlo, hhi => by
    rw [Syntax.insertAmong]
    -- before the node, inside it, or somewhere behind it
    split
    next hbefore => exact .cons hlo hc.span hc.laid (.cons hbefore ht hlaid hts)
    next hbefore =>
      obtain ⟨hstart, hstop, -⟩ := laid_iff.mp hlaid
      replace hstart := hc.clear _ hstart
      replace hstop := hc.clear _ hstop
      split
      next hinside =>
        simp only [Bool.and_eq_true, decide_eq_true_eq] at hinside
        have hnew := Laid.insertComment hc t hlaid hinside.1 hinside.2
        refine .cons ?_ hnew.le hnew ?_
        · rw [start_insertComment]
          exact h
        · rw [stop_insertComment]
          exact hts
      next hinside =>
        simp only [Bool.and_eq_true, decide_eq_true_eq] at hinside
        have hbehind : t.stop ≤ c.start := by omega
        exact .cons h ht hlaid (Row.insertAmong hc ts hts hbehind hhi)

end

/-- Comments that are put in one after the other. -/
theorem laid_foldl {E : Nat → Prop} {comments : List Tree} {t : Tree}
    (hcomments : ∀ c ∈ comments, Separate E c ∧ t.start ≤ c.start ∧ c.stop ≤ t.stop)
    (h : Laid E t) : Laid E (comments.foldl (fun t c => insertComment c t) t) := by
  induction comments generalizing t with
  | nil => exact h
  | cons c cs ih =>
    obtain ⟨⟨hc, hstart, hstop⟩, hcs⟩ := List.forall_mem_cons.mp hcomments
    rw [List.foldl_cons]
    refine ih ?_ (h.insertComment hc t hstart hstop)
    rw [start_insertComment, stop_insertComment]
    exact hcs

/-! ## Programs -/

/-- An offset between two characters that is in no comment. -/
def Outside (source : List Char) (comments : List Tree) (n : Nat) : Prop :=
  IsBoundary source n ∧ ∀ m ∈ comments, n ≤ m.start ∨ m.stop ≤ n

section Programs

variable {source : List Char} {d : Cursor} {c : Tree} {n : Nat}

/-- The edges of a node are outside of the comments that are known. -/
theorem Edge.outside (h : Edge source d n) : Outside source d.comments n := ⟨h.boundary, h.clear⟩

/-- Comments do not begin or end inside one another. -/
theorem Cursor.On.separate (hd : d.On source) (hc : c ∈ d.comments) :
    Separate (Outside source d.comments) c := by
  let Apart : Tree → Tree → Prop := fun m c => m = c ∨ m.stop ≤ c.start ∨ c.stop ≤ m.start
  have happart : ∀ m ∈ d.comments, ∀ c ∈ d.comments, Apart m c := by
    intro m hm c hc
    refine List.Pairwise.forall_of_forall_of_flip (R := Apart) (fun _ _ => .inl rfl) ?_ ?_ hm hc
    · exact hd.tidy.order.imp fun h => .inr (.inr h)
    · exact hd.tidy.order.imp fun h => .inr (.inl h)
  have hspan := (hd.tidy.spans c hc).1
  refine ⟨Tree.children_of_isRemark (hd.tidy.remarks c hc), by omega, ⟨(hd.edges c hc).1, ?_⟩,
    ⟨(hd.edges c hc).2, ?_⟩, fun n hn => hn.2 c hc⟩
  · intro m hm
    rcases happart m hm c hc with rfl | h
    · omega
    · omega
  · intro m hm
    rcases happart m hm c hc with rfl | h
    · omega
    · omega

/-- **The spans of a program with its comments are nested.** -/
theorem laid_programOf {children : List Tree} (hd : d.On source)
    (h : Row (Edge source d) 0 children d.position) :
    Laid (Outside source d.comments)
      (programOf (byteLength source) children d.comments.reverse) := by
  have hrow : Row (Outside source d.comments) 0 children d.position :=
    h.mono fun _ hn => hn.outside
  have hlength : d.position ≤ byteLength source := by
    obtain ⟨before, hsource, hposition⟩ := hd.within
    rw [byteLength_eq, hsource, hposition, Utf8.encode_append, List.length_append]
    omega
  have hspans : ∀ c ∈ d.comments, c.start < c.stop ∧ c.stop ≤ d.position := hd.tidy.spans
  have hend : Outside source d.comments (byteLength source) := by
    refine ⟨⟨source, [], (List.append_nil source).symm, byteLength_eq source⟩, fun m hm => ?_⟩
    have hm := hspans m hm
    omega
  unfold programOf
  extract_lets starts first
  -- the program begins where the first tree or comment does, or at the end of the source
  obtain ⟨hfirst, hleast⟩ : first ∈ byteLength source :: starts ∧
      ∀ n ∈ byteLength source :: starts, first ≤ n := List.min?_eq_some_iff.mp List.min?_cons'
  have houtside : Outside source d.comments first := by
    rcases List.mem_cons.mp hfirst with hsame | hstart
    · rw [hsame]
      exact hend
    · obtain ⟨t, ht, hsame⟩ := List.mem_map.mp hstart
      rw [← hsame]
      rcases List.mem_append.mp ht with hchild | hcomment
      · exact (laid_iff.mp (hrow.laid t hchild)).1
      · exact (hd.separate (List.mem_reverse.mp hcomment)).start
  have hbefore : ∀ t ∈ children ++ d.comments.reverse, first ≤ t.start :=
    fun t ht => hleast _ (List.mem_cons_of_mem _ (List.mem_map_of_mem ht))
  refine laid_foldl (fun c hc => ?_) (laid_iff.mpr ⟨houtside, hend, ?_⟩)
  · have hmem := List.mem_reverse.mp hc
    have hspan := hspans c hmem
    have hstop : c.stop ≤ byteLength source := by omega
    exact ⟨hd.separate hmem, hbefore c (List.mem_append_right _ hc), hstop⟩
  · have hbound : first ≤ byteLength source := hleast _ (List.mem_cons_self ..)
    refine (hrow.weaken (Nat.le_refl _) hlength).rebase (fun t ht => ?_) hbound
    exact hbefore t (List.mem_append_left _ ht)

end Programs

/-! ## All scripts -/

/-- The line that names an interpreter is laid out at the start. -/
theorem lays_hashBang {source : List Char} : LaysAll source [] hashBang := by
  unfold hashBang
  refine .look fun cs => ?_
  split
  · exact (lays_leafHere _).single
  · exact lays_pure (.refl _)

/-- A source that fits the grammar has nested spans, from the row of its statements. -/
theorem laid_read {lenient : Bool} {cs : List Char} {t : Tree} (h : read false lenient cs = .ok t) :
    ∃ comments, Laid (Outside cs comments) t := by
  unfold read at h
  obtain ⟨⟨ts, d⟩, hread, ht⟩ := Outcome.bind_eq_ok_iff.mp h
  have hall : LaysAll cs [] (do
      let first ← hashBang
      let rest ← readGoal false lenient (depthFor cs.length) (.statements .source)
      return first ++ rest) := by
    refine lays_hashBang.bind fun first => ?_
    refine ((orderly_readGoal lenient (depthFor cs.length)).sub (.statements .source) rfl).next ?_
    exact fun rest => lays_pure (.refl _)
  obtain ⟨hreaches, hrow⟩ :=
    hall 0 _ ts d (Cursor.on_atStart cs) (.nil (Nat.zero_le _)) hread
  -- the comments after the last statement are put in too
  have hskip := hreaches.on.skip
  cases ht
  refine ⟨_, laid_programOf hskip.on ?_⟩
  exact (hrow.mono fun _ hn => hn.later hskip).weaken (Nat.le_refl _) hskip.le

/-- **The spans of the tree of a script are nested**, and its nodes begin and end between
characters. -/
theorem nested_parse {cs : List Char} (h : firstFault? (Dialect.javascript.parse cs) = none) :
    (Dialect.javascript.parse cs).IsNested ∧ (Dialect.javascript.parse cs).OnBoundaries cs := by
  obtain ⟨comments, hlaid⟩ := laid_read (read_eq_of_firstFault? h)
  refine ⟨fun u hu => (hlaid u hu).1, fun u hu => ?_⟩
  obtain ⟨-, hstart, hstop⟩ := hlaid u hu
  exact ⟨hstart.1, hstop.1⟩

/-- The tree of a script has nested spans that end between characters, and the bytes of its source
are the encoding of those. -/
theorem nested_of_read {cs : List Char} {script : Script}
    (h : Script.read (Text.ofChars cs) = .ok script) :
    script.source = Utf8.encode cs ∧ script.root.IsNested ∧ script.root.OnBoundaries cs := by
  rw [Script.read_eq_ofTree, Script.ofTree] at h
  split at h
  next => cases h
  next hnone =>
    cases h
    exact ⟨rfl, nested_parse hnone⟩

end OptionTypes.Syntax
