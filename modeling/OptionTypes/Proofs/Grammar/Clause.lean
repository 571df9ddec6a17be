import OptionTypes.Proofs.Clauses
import OptionTypes.Proofs.Grammar.Sequence

/-!
# How clauses come about

The grammar reads imported and exported names as a list between braces, at any depth
(`gives_exportClause`, `gives_names`), and the comments that are put into the tree afterwards leave
it one (`IsClause.insertComment`). So the clauses of a source are those that `IsClause` describes.
-/

namespace OptionTypes.Syntax

open TypeLayer Reader

variable {c t opening closing : Tree} {ts items : List Tree} {G : Grammar}

/-! ## What is read between braces -/

/-- A node with braces around a list is a clause, provided that its children are in order. -/
theorem isClause_of_children (h : t.children = opening :: items ++ [closing])
    (hopening : opening.isToken "\x7b" = true) (hclosing : closing.isToken "\x7d" = true)
    (hitems : IsListing items) (hordered : Ordered t.children) : IsClause t where
  opening := by rw [h]; exact hopening
  closing := by rw [h, List.getLast?_concat]; exact hclosing
  listing := by
    rw [between, h, List.cons_append, List.tail_cons, List.dropLast_concat]
    exact hitems
  ordered := hordered

/-- Without comments a list is one as it stands. -/
theorem isListing_of_takeTurns (h : TakeTurns true ts) : IsListing ts := by
  have hsignificant : significant ts = ts := by
    refine List.filter_eq_self.mpr fun t ht => ?_
    rcases h.cases t ht with hs | hc
    · rw [not_isComment_of_isSpecifier hs]
      rfl
    · rw [not_isComment_of_isComma hc]
      rfl
  rw [IsListing, hsignificant]
  exact h

theorem gives_leaf (label : Label) (n : Nat) : Gives (fun t => t.label = label) (leaf label n) := by
  intro c t d h
  cases h
  rfl

/-- A mark gives a leaf that is that mark. -/
theorem gives_mark (m : String) : Gives (fun t => t.isToken m = true) (mark m) := by
  refine Gives.next fun here => Gives.ite ?_ gives_fail
  intro c t d h
  exact decide_eq_true (gives_leaf _ _ c t d h)

/-- A name that may be renamed is of the kind asked for in both cases. -/
theorem gives_renamed (G : Grammar) (before : List Tree) (kind : Kind) :
    Gives (fun t => t.is kind = true) (Module.renamed G before kind) := by
  have hkind : ∀ ts, Gives (fun t => t.is kind = true) (pure (branch kind ts)) := fun ts =>
    gives_pure (decide_eq_true rfl)
  refine Gives.next fun name => Gives.next fun renamed => Gives.ite ?_ (hkind _)
  exact Gives.next fun word => Gives.next fun other => hkind _

/-- A specifier is of the kind asked for, whatever word comes before the name. -/
theorem gives_specifier (G : Grammar) (kind : Kind) :
    Gives (fun t => t.is kind = true) (Module.specifier G kind) :=
  Gives.next fun _ => Gives.ite (Gives.next fun _ => gives_renamed G _ kind)
    (Gives.next fun _ => Gives.ite (Gives.next fun _ => gives_renamed G _ kind)
      (gives_renamed G _ kind))

/-- A sequence without holes gives specifiers and commas in turns if its items are specifiers and
the rest of it does. -/
theorem gives_itemsOf {sequence : Items} {item : Reader Tree} (hholes : sequence.holes = false)
    (hitem : Gives (fun t => isSpecifier t = true) item)
    (hrest : Gives (TakeTurns true) (G.sub (.items sequence))) :
    Gives (TakeTurns true) (itemsOf G sequence item) := by
  refine Gives.next fun cs => Gives.ite (gives_pure trivial) (Gives.ite ?_ ?_)
  · rw [hholes]
    exact gives_fail
  · refine hitem.bind fun first hfirst => Gives.next fun cs => Gives.ite ?_
      (Gives.ite (gives_pure ⟨hfirst, trivial⟩) gives_fail)
    exact (gives_mark ",").bind fun comma hcomma => hrest.bind fun more hmore =>
      gives_pure ⟨hfirst, hcomma, hmore⟩

/-- Induction on the depth: the sequence goes on one goal further down. -/
theorem gives_specifiers (typed lenient : Bool) {sequence : Items}
    (h : sequence = .importSpecifiers ∨ sequence = .exportSpecifiers) (fuel : Nat) :
    Gives (TakeTurns true) (readGoal typed lenient fuel (.items sequence)) := by
  induction fuel with
  | zero => exact gives_fail
  | succ fuel ih =>
    rcases h with rfl | rfl
    · refine gives_itemsOf rfl (fun c t d ht => ?_) ih
      exact Bool.or_eq_true_iff.mpr (.inl (gives_specifier _ .importSpecifier c t d ht))
    · refine gives_itemsOf rfl (fun c t d ht => ?_) ih
      exact Bool.or_eq_true_iff.mpr (.inr (gives_specifier _ .exportSpecifier c t d ht))

/-- What is read between braces is a clause if it takes turns with commas. The order of the children
is left as a premise, since it follows from their spans. -/
theorem gives_braced {k : Kind} {items : Reader (List Tree)} (h : Gives (TakeTurns true) items) :
    Gives (fun t => Ordered t.children → IsClause t) (do
      let opening ← mark "\x7b"
      let items ← items
      return branch k (opening :: items ++ [← mark "\x7d"])) :=
  (gives_mark "\x7b").bind fun _ hopening => h.bind fun _ hitems =>
    (gives_mark "\x7d").bind fun _ hclosing => gives_pure fun hordered =>
      isClause_of_children rfl hopening hclosing (isListing_of_takeTurns hitems) hordered

/-- Exported names are read as a clause. -/
theorem gives_exportClause (typed lenient : Bool) (fuel : Nat) :
    Gives (fun t => Ordered t.children → IsClause t)
      (Module.exportClause ⟨typed, lenient, readGoal typed lenient fuel⟩) :=
  gives_braced (gives_specifiers typed lenient (.inr rfl) fuel)

/-- Imported names are read as a clause, unless all of them are imported under one name. -/
theorem gives_names (typed lenient : Bool) (fuel : Nat) :
    Gives (fun t => t.is .namedImports = true → Ordered t.children → IsClause t)
      (Module.names ⟨typed, lenient, readGoal typed lenient fuel⟩) := by
  refine Gives.next fun star => Gives.ite ?_ ?_
  · exact Gives.next fun _ => Gives.next fun _ => Gives.next fun _ => gives_pure nofun
  · intro c t d h _
    exact gives_braced (gives_specifiers typed lenient (.inl rfl) fuel) c t d h

/-! ## Comments that are put in -/

/-- Whether siblings are a list depends on what they are, not on what stands below them. -/
theorem takeTurns_congr {b : Bool} {us : List Tree} (h : ts.map Tree.face = us.map Tree.face) :
    TakeTurns b ts ↔ TakeTurns b us := by
  induction ts generalizing b us with
  | nil =>
    obtain rfl := List.map_eq_nil_iff.mp h.symm
    rfl
  | cons t ts ih =>
    cases us with
    | nil => cases h
    | cons u us =>
      rw [List.map_cons, List.map_cons, List.cons.injEq] at h
      obtain ⟨hface, hrest⟩ := h
      have hlabel : t.label = u.label := congrArg Prod.fst hface
      cases b with
      | true => simp only [TakeTurns, ih hrest, isSpecifier, Tree.is, hlabel]
      | false => simp only [TakeTurns, ih hrest, isComma, Tree.isToken, hlabel]

/-- A comment among siblings does not matter for whether they are a list: only those that count
do. -/
theorem isListing_insertAmong (hc : c.isComment = true) (ts : List Tree) :
    IsListing (insertAmong c ts) ↔ IsListing ts := by
  have hface : ∀ us : List Tree, (significant us).map Tree.face
      = (us.map Tree.face).filter fun f => !decide (f.1 = .kind .comment) := by
    intro us
    rw [List.filter_map]
    rfl
  refine takeTurns_congr ?_
  have hnot : (!decide (c.face.1 = .kind .comment)) = false := congrArg not hc
  rw [hface, hface, filter_face_insertAmong hnot]

/-- A comment that ends before the last sibling begins is put in before it. -/
theorem insertAmong_append (h : c.stop ≤ closing.start) (ts : List Tree) :
    insertAmong c (ts ++ [closing]) = insertAmong c ts ++ [closing] := by
  induction ts with
  | nil => simp [insertAmong, h]
  | cons t ts ih =>
    rw [List.cons_append, insertAmong, insertAmong]
    split
    · rfl
    · split
      · rfl
      · rw [ih, List.cons_append]

/-- A comment behind the first sibling is put in behind it. -/
theorem insertAmong_cons (hleft : t.stop ≤ c.start) (ht : t.start < t.stop)
    (hc : c.start < c.stop) (ts : List Tree) :
    insertAmong c (t :: ts) = t :: insertAmong c ts := by
  rw [insertAmong, if_neg (by omega), if_neg (by simp; omega)]

@[simp] theorem start_insertComment (c t : Tree) : (insertComment c t).start = t.start := by
  cases t
  rfl

@[simp] theorem stop_insertComment (c t : Tree) : (insertComment c t).stop = t.stop := by
  cases t
  rfl

/-- Each of the siblings with a comment begins where the comment or one of them does. -/
theorem exists_start_of_mem_insertAmong (h : t ∈ insertAmong c ts) :
    ∃ u ∈ c :: ts, u.start = t.start := by
  induction ts with
  | nil => exact ⟨t, h, rfl⟩
  | cons u ts ih =>
    rw [insertAmong] at h
    split at h
    · exact ⟨t, h, rfl⟩
    · split at h
      · rcases List.mem_cons.mp h with rfl | h
        · exact ⟨u, by simp, (start_insertComment c u).symm⟩
        · exact ⟨t, by simp [h], rfl⟩
      · rcases List.mem_cons.mp h with rfl | h
        · exact ⟨t, by simp, rfl⟩
        · obtain ⟨v, hv, hstart⟩ := ih h
          exact ⟨v, by simpa using (List.mem_cons.mp hv).imp_right .inr, hstart⟩

/-- A comment lies clear of a node: before it, behind it, or inside. -/
def Clear (c t : Tree) : Prop :=
  c.stop ≤ t.start ∨ t.stop ≤ c.start ∨ t.start ≤ c.start ∧ c.stop ≤ t.stop

/-- Siblings stay in order when a comment comes in that overlaps none of them. Induction on the
siblings, with the cases of `insertAmong`. -/
theorem ordered_insertAmong (hc : c.start < c.stop) (h : Ordered ts)
    (hclear : ∀ t ∈ ts, Clear c t) : Ordered (insertAmong c ts) := by
  induction ts with
  | nil => exact ordered_cons.mpr ⟨hc, nofun, h⟩
  | cons t ts ih =>
    obtain ⟨hhere, hlater⟩ := List.forall_mem_cons.mp hclear
    obtain ⟨ht, hle, hts⟩ := ordered_cons.mp h
    rw [insertAmong]
    -- Before the first tree, inside it, or somewhere behind it.
    split
    next hbefore =>
      refine ordered_cons.mpr ⟨hc, List.forall_mem_cons.mpr ⟨hbefore, fun u hu => ?_⟩, h⟩
      have := hle u hu
      omega
    next hbefore =>
      split
      next hinside =>
        rw [ordered_cons, start_insertComment, stop_insertComment]
        exact ⟨ht, hle, hts⟩
      next hinside =>
        simp only [Bool.and_eq_true, decide_eq_true_eq] at hinside
        have hbehind : t.stop ≤ c.start := by
          rcases hhere with h | h | h
          · exact absurd h hbefore
          · exact h
          · exact absurd h hinside
        refine ordered_cons.mpr ⟨ht, fun u hu => ?_, ih hts hlater⟩
        obtain ⟨v, hv, hstart⟩ := exists_start_of_mem_insertAmong hu
        rcases List.mem_cons.mp hv with rfl | hv
        · omega
        · rw [← hstart]
          exact hle v hv

/-- **A comment between the braces of a clause leaves it one.** -/
theorem IsClause.insertComment (h : IsClause t) (hc : c.isComment = true) (hlt : c.start < c.stop)
    (hfirst : ∀ u ∈ t.children.head?, u.stop ≤ c.start)
    (hlast : ∀ u ∈ t.children.getLast?, c.stop ≤ u.start) (hclear : ∀ u ∈ t.children, Clear c u) :
    IsClause (insertComment c t) := by
  obtain ⟨opening, closing, hchildren, hopening, hclosing⟩ := h.exists_braces
  have hordered := h.ordered
  have hstart := hordered.nonempty opening (by rw [hchildren]; simp)
  have hput : (Syntax.insertComment c t).children
      = opening :: insertAmong c (between t) ++ [closing] := by
    have hbelow : (Syntax.insertComment c t).children = insertAmong c t.children := by
      cases t
      rfl
    rw [hbelow, hchildren, insertAmong_cons (hfirst opening (by rw [hchildren]; rfl)) hstart hlt,
      insertAmong_append (hlast closing (by simp [hchildren, List.getLast?_cons]))]
    rfl
  refine isClause_of_children hput hopening hclosing ((isListing_insertAmong hc _).mpr h.listing) ?_
  have hall := ordered_insertAmong hlt hordered hclear
  cases t
  exact hall

end OptionTypes.Syntax
