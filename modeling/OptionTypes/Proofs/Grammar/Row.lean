import OptionTypes.Proofs.Erasure
import OptionTypes.Proofs.FirstFault
import OptionTypes.Proofs.Grammar.Opening

/-!
# Trees in a row

A rule of the grammar reads one thing after the other and puts a node around what it has read, in
the same order. So the spans of a tree are nested, and begin and end between two characters.
Comments are put in later, so no node may begin or end inside a comment that was passed.

* `Row` says that trees stand one behind the other, each with nested spans that begin and end at
  certain offsets.
* `Folds` says that trees take the place of others in a row: a node that of its children
  (`folds_branch`).
* `Cursor.Reaches` says what is known of the cursor that a reader ends at, and of the comments that
  were passed on the way.
* `Edge` says that a node may begin or end at an offset, given what was passed up to a cursor.
-/

namespace OptionTypes.Syntax

open Erasure (IsBoundary)

/-! ## Rows

A row is a list of trees in order between two bounds, each of them laid out inside. All that is said
of a node and its children is that the children are a row between the two ends of the node. -/

/-- A tree with nested spans, each node of which begins and ends at certain offsets. -/
def Laid (E : Nat → Prop) (t : Tree) : Prop := ∀ u ∈ t.nodes, u.Encloses ∧ E u.start ∧ E u.stop

/-- Such trees one behind the other between two offsets. -/
inductive Row (E : Nat → Prop) : Nat → List Tree → Nat → Prop where
  | nil {lo hi : Nat} (h : lo ≤ hi) : Row E lo [] hi
  | cons {lo hi : Nat} {t : Tree} {ts : List Tree} (h : lo ≤ t.start) (hspan : t.start ≤ t.stop)
      (ht : Laid E t) (hts : Row E t.stop ts hi) : Row E lo (t :: ts) hi

section Row

variable {E E' : Nat → Prop} {lo lo' mid hi hi' : Nat} {t u : Tree} {ts us : List Tree}

/-- Only which offsets may be ends is made weaker. -/
theorem Laid.mono (h : Laid E t) (hE : ∀ n, E n → E' n) : Laid E' t := by
  intro u hu
  obtain ⟨hencloses, hstart, hstop⟩ := h u hu
  exact ⟨hencloses, hE _ hstart, hE _ hstop⟩

/-- A node does not end before it begins. -/
theorem Laid.le (h : Laid E t) : t.start ≤ t.stop := (h t t.self_mem_nodes).1.1

theorem Row.mono (h : Row E lo ts hi) (hE : ∀ n, E n → E' n) : Row E' lo ts hi := by
  induction h with
  | nil h => exact .nil h
  | cons h hspan ht _ ih => exact .cons h hspan (ht.mono hE) ih

/-- The bounds of a row are in order, since its trees are. -/
theorem Row.le (h : Row E lo ts hi) : lo ≤ hi := by
  induction h with
  | nil h => exact h
  | cons h hspan _ _ ih => omega

/-- A row of one tree is the tree with some room on both sides. -/
theorem row_singleton : Row E lo [t] hi ↔ lo ≤ t.start ∧ Laid E t ∧ t.stop ≤ hi := by
  constructor
  · intro h
    cases h with
    | cons h _ ht hts => exact ⟨h, ht, hts.le⟩
  · rintro ⟨h, ht, hhi⟩
    exact .cons h ht.le ht (.nil hhi)

/-- What stands in a row has room between wider bounds. -/
theorem Row.weaken (h : Row E lo ts hi) (hlo : lo' ≤ lo) (hhi : hi ≤ hi') :
    Row E lo' ts hi' := by
  induction h generalizing lo' with
  | nil h => exact .nil (by omega)
  | cons h hspan ht _ ih => exact .cons (by omega) hspan ht (ih (Nat.le_refl _) hhi)

/-- A row begins at any offset before its trees. -/
theorem Row.rebase (h : Row E lo ts hi) (hlo : ∀ t ∈ ts, lo' ≤ t.start) (hle : lo' ≤ hi) :
    Row E lo' ts hi := by
  cases h with
  | nil _ => exact .nil hle
  | cons h hspan ht hts => exact .cons (hlo _ (List.mem_cons_self ..)) hspan ht hts

/-- One row is made of two that meet somewhere. -/
theorem row_append : Row E lo (ts ++ us) hi ↔ ∃ mid, Row E lo ts mid ∧ Row E mid us hi := by
  constructor
  · intro h
    induction ts generalizing lo with
    | nil => exact ⟨lo, .nil (Nat.le_refl _), h⟩
    | cons t ts ih =>
      cases h with
      | cons h hspan ht hts =>
        obtain ⟨mid, hfirst, hsecond⟩ := ih hts
        exact ⟨mid, .cons h hspan ht hfirst, hsecond⟩
  · rintro ⟨mid, hfirst, hsecond⟩
    induction hfirst with
    | nil h => exact hsecond.weaken h (Nat.le_refl _)
    | cons h hspan ht _ ih => exact .cons h hspan ht (ih hsecond)

/-- The trees of a row lie between its bounds. -/
theorem Row.between (h : Row E lo ts hi) : ∀ t ∈ ts, lo ≤ t.start ∧ t.stop ≤ hi := by
  induction h with
  | nil _ => exact nofun
  | @cons lo hi t ts h hspan ht hts ih =>
    refine List.forall_mem_cons.mpr ⟨⟨h, hts.le⟩, ?_⟩
    intro u hu
    have hrest := ih u hu
    omega

/-- The trees of a row do not overlap. A tree and a later one are apart by the bound of the row that
is left behind the first one. -/
theorem Row.ordered (h : Row E lo ts hi) : ts.Pairwise fun t u => t.stop ≤ u.start := by
  induction h with
  | nil _ => exact .nil
  | cons _ _ _ hts ih => exact .cons (fun u hu => (hts.between u hu).1) ih

theorem Row.laid (h : Row E lo ts hi) : ∀ t ∈ ts, Laid E t := by
  induction h with
  | nil _ => exact nofun
  | cons _ _ ht _ ih => exact List.forall_mem_cons.mpr ⟨ht, ih⟩

/-- **The children of a node stand in a row between its ends.** -/
theorem laid_iff : Laid E t ↔ E t.start ∧ E t.stop ∧ Row E t.start t.children t.stop := by
  -- the conditions on children, collected into a row from the first child on
  have hrow : ∀ {ts : List Tree} {lo : Nat}, lo ≤ t.stop →
      (∀ c ∈ ts, lo ≤ c.start ∧ c.stop ≤ t.stop) →
      (ts.Pairwise fun c d => c.stop ≤ d.start) → (∀ c ∈ ts, Laid E c) → Row E lo ts t.stop := by
    intro ts
    induction ts with
    | nil => exact fun hle _ _ _ => .nil hle
    | cons c ts ih =>
      intro lo _ hspans horder hlaid
      obtain ⟨hc, hts⟩ := List.forall_mem_cons.mp hspans
      obtain ⟨hnext, horder⟩ := List.pairwise_cons.mp horder
      obtain ⟨hfirst, hlaid⟩ := List.forall_mem_cons.mp hlaid
      refine .cons hc.1 hfirst.le hfirst (ih hc.2 (fun d hd => ?_) horder hlaid)
      exact ⟨hnext d hd, (hts d hd).2⟩
  constructor
  · intro h
    obtain ⟨⟨hle, hspans, horder⟩, hstart, hstop⟩ := h t t.self_mem_nodes
    refine ⟨hstart, hstop, hrow hle hspans horder fun c hc u hu => ?_⟩
    exact h u (Tree.mem_nodes_of_mem_children hc hu)
  · rintro ⟨hstart, hstop, h⟩
    refine Tree.forall_mem_nodes_iff.mpr ⟨⟨⟨h.le, h.between, h.ordered⟩, hstart, hstop⟩, ?_⟩
    exact fun c hc => h.laid c hc

/-- The span and the children of a node, which tell whether it has a place in a row. -/
def Tree.shape (t : Tree) : Nat × Nat × List Tree := (t.start, t.stop, t.children)

@[simp] theorem shape_withField (f : Field) (t : Tree) : (t.withField f).shape = t.shape := by
  cases t
  rfl

@[simp] theorem shape_withKind (k : Kind) (t : Tree) : (t.withKind k).shape = t.shape := by
  cases t
  rfl

/-- A row depends on the offsets and on what is below, not on labels or marks. -/
theorem Row.congr (h : Row E lo ts hi) (hshape : us.map Tree.shape = ts.map Tree.shape) :
    Row E lo us hi := by
  induction h generalizing us with
  | nil h =>
    obtain rfl : us = [] := List.map_eq_nil_iff.mp hshape
    exact .nil h
  | @cons lo hi t ts h hspan ht _ ih =>
    obtain ⟨u, us, rfl, hu, hus⟩ := List.map_eq_cons_iff.mp hshape
    obtain ⟨hstart, hstop, hchildren⟩ : u.start = t.start ∧ u.stop = t.stop
        ∧ u.children = t.children := by
      simpa [Tree.shape] using hu
    rw [← hstop] at ih
    refine .cons (by omega) (by omega) ?_ (ih hus)
    rw [laid_iff, hstart, hstop, hchildren, ← laid_iff]
    exact ht

end Row

/-! ## Trees in the place of others -/

/-- Trees take the place of others in any row. -/
def Folds (ts us : List Tree) : Prop := ∀ E lo hi, Row E lo ts hi → Row E lo us hi

section Folds

variable {ts ts' us us' : List Tree} {t : Tree}

theorem Folds.refl (ts : List Tree) : Folds ts ts := fun _ _ _ h => h

/-- Two lists of trees are replaced one after the other: where the first row ends, the second
begins. -/
theorem Folds.append (h : Folds ts us) (h' : Folds ts' us') : Folds (ts ++ ts') (us ++ us') := by
  intro E lo hi hrow
  obtain ⟨mid, hfirst, hsecond⟩ := row_append.mp hrow
  exact row_append.mpr ⟨mid, h E lo mid hfirst, h' E mid hi hsecond⟩

theorem Folds.trans {vs : List Tree} (h : Folds ts us) (h' : Folds us vs) : Folds ts vs :=
  fun E lo hi hrow => h' E lo hi (h E lo hi hrow)

/-- Of a row only the end changes. -/
theorem Folds.tail {before : List Tree} (h : Folds ts us) (hts : ts' = before ++ ts) :
    Folds ts' (before ++ us) := by
  rw [hts]
  exact (Folds.refl before).append h

/-- The first trees of a list are replaced by one. -/
theorem Folds.cons (h : Folds ts [t]) (us : List Tree) : Folds (ts ++ us) (t :: us) :=
  h.append (.refl us)

/-- Trees of the same shape stand in the place of each other. -/
theorem folds_of_shape (h : us.map Tree.shape = ts.map Tree.shape) : Folds ts us :=
  fun _ _ _ hrow => hrow.congr h

/-- A row without the trees at its beginning. -/
theorem folds_drop (ts us : List Tree) : Folds (ts ++ us) us := by
  intro E lo hi hrow
  obtain ⟨mid, hfirst, hsecond⟩ := row_append.mp hrow
  exact hsecond.weaken hfirst.le (Nat.le_refl _)

theorem folds_withField (f : Field) : Folds [t] [t.withField f] := folds_of_shape (by simp)

/-- **A node takes the place of its children.** -/
theorem folds_branch {k : Kind} (h : Folds ts us) (hne : us ≠ []) :
    Folds ts [Reader.branch k us] := by
  intro E lo hi hrow
  replace hrow := h E lo hi hrow
  -- the node begins with the first child and ends with the last one
  obtain ⟨first, rest, rfl⟩ := List.exists_cons_of_ne_nil hne
  obtain ⟨inner, last, hlast⟩ : ∃ inner last, first :: rest = inner ++ [last] :=
    ⟨_, _, (List.dropLast_append_getLast hne).symm⟩
  have hstart : (Reader.branch k (first :: rest)).start = first.start := rfl
  have hstop : (Reader.branch k (first :: rest)).stop = last.stop := by
    show ((first :: rest).getLast?.map Tree.stop).getD 0 = last.stop
    rw [hlast, List.getLast?_concat]
    rfl
  have htight : Row E first.start (first :: rest) last.stop := by
    cases hrow with
    | cons h hspan hfirst hrest =>
      have hwhole : Row E first.start (first :: rest) hi := .cons (Nat.le_refl _) hspan hfirst hrest
      rw [hlast] at hwhole ⊢
      obtain ⟨mid, hinner, hone⟩ := row_append.mp hwhole
      obtain ⟨hmid, hlaid, -⟩ := row_singleton.mp hone
      exact row_append.mpr ⟨mid, hinner, row_singleton.mpr ⟨hmid, hlaid, Nat.le_refl _⟩⟩
  have hends : E first.start ∧ E last.stop := by
    have hlaid := hrow.laid
    have hmem : last ∈ first :: rest := by
      rw [hlast]
      simp
    exact ⟨(laid_iff.mp (hlaid first (List.mem_cons_self ..))).1,
      (laid_iff.mp (hlaid last hmem)).2.1⟩
  have hbounds := hrow.between
  refine row_singleton.mpr ⟨?_, ?_, ?_⟩
  · rw [hstart]
    exact (hbounds first (List.mem_cons_self ..)).1
  · rw [laid_iff, hstart, hstop]
    exact ⟨hends.1, hends.2, htight⟩
  · rw [hstop]
    refine (hbounds last ?_).2
    rw [hlast]
    simp

/-- A node that is marked as a part takes the place of its children. -/
theorem folds_branchAs {k : Kind} {f : Field} (h : Folds ts us) (hne : us ≠ []) :
    Folds ts [(Reader.branch k us).withField f] :=
  (folds_branch h hne).trans (folds_withField f)

/-- A node with the span of its only child. -/
theorem folds_around (label : Label) (field : Option Field) (missing : Bool) :
    Folds [t] [.node label field t.start t.stop missing [t]] := by
  intro E lo hi hrow
  obtain ⟨hlo, hlaid, hhi⟩ := row_singleton.mp hrow
  obtain ⟨hstart, hstop, -⟩ := laid_iff.mp hlaid
  refine row_singleton.mpr ⟨hlo, laid_iff.mpr ⟨hstart, hstop, ?_⟩, hhi⟩
  exact row_singleton.mpr ⟨Nat.le_refl _, hlaid, Nat.le_refl _⟩

end Folds

/-! ## Cursors

A cursor is on a source if what it has not read is a tail of it. `Passes` says that one cursor comes
after another one, with only comments in between that begin there; `Reaches` adds that the later
cursor is tidy. -/

namespace Cursor

variable {source : List Char} {c d e : Cursor} {n : Nat}

/-- A cursor in a source. -/
structure On (source : List Char) (c : Cursor) : Prop where
  within : Within source c.rest c.position
  tidy : c.Tidy
  edges : ∀ m ∈ c.comments, IsBoundary source m.start ∧ IsBoundary source m.stop

/-- A cursor further on. The comments that were passed on the way begin behind the first cursor. -/
structure Passes (source : List Char) (c d : Cursor) : Prop where
  within : Within source d.rest d.position
  le : c.position ≤ d.position
  passed : ∀ m ∈ d.comments, m ∈ c.comments ∨ c.position ≤ m.start
  edges : ∀ m ∈ d.comments, IsBoundary source m.start ∧ IsBoundary source m.stop

/-- Such a cursor, all of whose comments lie before it. -/
structure Reaches (source : List Char) (c d : Cursor) : Prop extends Passes source c d where
  tidy : d.Tidy

theorem Reaches.on (h : Reaches source c d) : On source d := ⟨h.within, h.tidy, h.edges⟩

theorem On.refl (h : On source c) : Reaches source c c :=
  ⟨⟨h.within, Nat.le_refl _, fun _ hm => .inl hm, h.edges⟩, h.tidy⟩

/-- Reading further and further. A comment that is known in the end was known at the start or begins
between two of the three cursors, hence between the outer ones. -/
theorem Reaches.trans (h : Reaches source c d) (h' : Reaches source d e) :
    Reaches source c e where
  within := h'.within
  le := Nat.le_trans h.le h'.le
  passed m hm := by
    rcases h'.passed m hm with hd | hbehind
    · exact h.passed m hd
    · exact .inr (Nat.le_trans h.le hbehind)
  edges := h'.edges
  tidy := h'.tidy

/-- A cursor moves by characters, and stops at the end of the text. -/
theorem On.advance (h : On source c) (n : Nat) : Reaches source c (c.advance n) := by
  induction n generalizing c with
  | zero => exact h.refl
  | succ n ih =>
    obtain ⟨rest, position, comments⟩ := c
    cases rest with
    | nil => exact h.refl
    | cons a rest =>
      have hnext : Reaches source ⟨a :: rest, position, comments⟩
          ⟨rest, position + width a, comments⟩ :=
        ⟨⟨h.within.next, Nat.le_add_right .., fun _ hm => .inl hm, h.edges⟩, h.tidy.advance 1⟩
      exact hnext.trans (ih hnext.on)

theorem isBoundary_of_within {cs : List Char} (h : Within source cs n) : IsBoundary source n := by
  obtain ⟨before, hsource, hn⟩ := h
  exact ⟨before, cs, hsource, hn⟩

/-- What a scan knows in the middle of a comment: it began behind the first cursor. -/
def Mode.Behind (source : List Char) (c : Cursor) : Mode → Prop
  | .outside => True
  | .line start => IsBoundary source start ∧ c.position ≤ start
  | .block start entry _ => (IsBoundary source start ∧ c.position ≤ start) ∧ Passes source c entry

/-- What is known of the comments found so far. -/
def Known (source : List Char) (c : Cursor) (found : List Tree) : Prop :=
  ∀ m ∈ found, (m ∈ c.comments ∨ c.position ≤ m.start)
    ∧ IsBoundary source m.start ∧ IsBoundary source m.stop

/-- One comment more is known. -/
theorem Known.cons {found : List Tree} {start : Nat} (h : Known source c found)
    (hstart : IsBoundary source start ∧ c.position ≤ start) (hstop : IsBoundary source n) :
    Known source c (commentLeaf start n :: found) :=
  List.forall_mem_cons.mpr ⟨⟨.inr hstart.2, hstart.1, hstop⟩, h⟩

/-- A scan that has come to an offset has passed what it knows of. -/
theorem Known.passes {found : List Tree} {cs : List Char} (h : Known source c found)
    (hwithin : Within source cs n) (hle : c.position ≤ n) : Passes source c ⟨cs, n, found⟩ :=
  ⟨hwithin, hle, fun m hm => (h m hm).1, fun m hm => (h m hm).2⟩

/-- **A scan goes on from where it begins.** Induction on the scan. -/
theorem passes_scan (mode : Mode) (n : Nat) (found : List Tree) (pauses : List Cursor)
    (cs : List Char) (hmode : mode.Behind source c) (hwithin : Within source cs n)
    (hle : c.position ≤ n) (hfound : Known source c found)
    (hpauses : ∀ p ∈ pauses, Passes source c p) :
    Passes source c (scan mode n found pauses cs).1
      ∧ ∀ p ∈ (scan mode n found pauses cs).2, Passes source c p := by
  have hstep : ∀ {n : Nat} (a : Char), c.position ≤ n → c.position ≤ n + width a :=
    fun _ h => Nat.le_add_right_of_le h
  fun_induction scan mode n found pauses cs with
  -- outside of comments: blanks, what opens a comment, tokens
  | case1 n found pauses => exact ⟨hfound.passes hwithin hle, hpauses⟩
  | case2 n found pauses a rest _ ih =>
    exact ih trivial hwithin.next (hstep a hle) hfound hpauses
  | case3 n found pauses rest _ ih =>
    have hstart := isBoundary_of_within hwithin
    exact ih ⟨hstart, hle⟩ hwithin.next (hstep '/' hle) hfound hpauses
  | case4 n found pauses rest _ ih =>
    have hstart := isBoundary_of_within hwithin
    exact ih ⟨⟨hstart, hle⟩, hfound.passes hwithin hle⟩ hwithin.next (hstep '/' hle) hfound hpauses
  | case5 n found pauses rest => exact ⟨hfound.passes hwithin hle, hpauses⟩
  | case6 n found pauses a rest => exact ⟨hfound.passes hwithin hle, hpauses⟩
  -- in a comment that its line ends
  | case7 start n found pauses =>
    have hend := (hfound.cons hmode (isBoundary_of_within hwithin)).passes hwithin hle
    exact ⟨hend, List.forall_mem_cons.mpr ⟨hend, hpauses⟩⟩
  | case8 start n found pauses a rest _ found₁ =>
    rename_i ih
    have hnew : Known source c found₁ := hfound.cons hmode (isBoundary_of_within hwithin)
    have hpause := hnew.passes hwithin hle
    exact ih trivial hwithin.next (hstep a hle) hnew (List.forall_mem_cons.mpr ⟨hpause, hpauses⟩)
  | case9 start n found pauses a rest _ ih =>
    exact ih hmode hwithin.next (hstep a hle) hfound hpauses
  -- in a comment between marks; without the second one the scan goes back to the first
  | case10 start entry star n found pauses => exact ⟨hmode.2, hpauses⟩
  | case11 start entry star n found pauses a rest hclose found₁ =>
    rename_i ih
    have hnext : Within source rest (n + 1) := by
      simp only [Bool.and_eq_true, decide_eq_true_eq] at hclose
      obtain rfl := hclose.1.2
      exact hwithin.next
    have hlater : c.position ≤ n + 1 := Nat.le_succ_of_le hle
    have hnew : Known source c found₁ := hfound.cons hmode.1 (isBoundary_of_within hnext)
    have hpause := hnew.passes hnext hlater
    exact ih trivial hnext hlater hnew (List.forall_mem_cons.mpr ⟨hpause, hpauses⟩)
  | case12 start entry star n found pauses a rest _ ih =>
    exact ih hmode hwithin.next (hstep a hle) hfound hpauses

theorem On.known (h : On source c) : Known source c c.comments :=
  fun m hm => ⟨.inl hm, h.edges m hm⟩

/-- Blanks and comments are passed by a scan. -/
theorem On.skip (h : On source c) : Reaches source c c.skip where
  toPasses := (passes_scan .outside c.position c.comments [] c.rest trivial h.within
    (Nat.le_refl _) h.known nofun).1
  tidy := h.tidy.skip

/-- A place where the grammar may pause is reached by passing some of the comments. -/
theorem On.pause {p : Cursor} (h : On source c) (hp : p ∈ c.pauses) : Reaches source c p := by
  rcases List.mem_cons.mp hp with rfl | hfound
  · exact h.refl
  · have hpauses := (passes_scan .outside c.position c.comments [] c.rest trivial h.within
      (Nat.le_refl _) h.known nofun).2
    exact ⟨hpauses p (List.mem_reverse.mp hfound), h.tidy.of_mem_pauses hp⟩

/-- The cursor at the start of a source. -/
theorem on_atStart (source : List Char) : On source (atStart source) :=
  ⟨.start source, tidy_atStart source, nofun⟩

end Cursor

/-! ## Where a node may begin and end -/

/-- An offset up to a cursor at which a node may begin or end: it lies between two characters, and
in no comment that was passed. -/
structure Edge (source : List Char) (d : Cursor) (n : Nat) : Prop where
  boundary : IsBoundary source n
  le : n ≤ d.position
  clear : ∀ m ∈ d.comments, n ≤ m.start ∨ m.stop ≤ n

theorem Cursor.On.edge {source : List Char} {d : Cursor} (h : d.On source) :
    Edge source d d.position where
  boundary := Cursor.isBoundary_of_within h.within
  le := Nat.le_refl _
  clear m hm := .inr (h.tidy.spans m hm).2

/-- Comments that are passed later lie behind. -/
theorem Edge.later {source : List Char} {d e : Cursor} {n : Nat} (h : Edge source d n)
    (hreaches : d.Reaches source e) : Edge source e n where
  boundary := h.boundary
  le := Nat.le_trans h.le hreaches.le
  clear m hm := by
    rcases hreaches.passed m hm with hd | hbehind
    · exact h.clear m hd
    · exact .inl (Nat.le_trans h.le hbehind)

end OptionTypes.Syntax
