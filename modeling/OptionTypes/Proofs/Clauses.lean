import OptionTypes.Proofs.SpecifierList

/-!
# Clauses without their specifiers of types

A clause of an import or an export has a list of specifiers between braces. Erasure blanks the span
of each one of types, which takes in a comma next to it.

* `inside_spansAfter_iff`: a node lies in these spans with all of its bytes or with none, and which
  of the two is said by its neighbours. So what is kept of a clause is what is left of its list.
* `layer_of_clause`: the spans are all that a clause has for types.
* `Erasure.kept_of_clause`: what blanking the spans does to the bytes of a clause, and when a list
  is kept.
-/

namespace OptionTypes.Syntax.TypeLayer

open Erasure (Inside contains_iff inside_iff)

/-! ## The spans of specifiers -/

/-- The spans of the specifiers of types among siblings, after a first neighbour. -/
def spansAfter (before : Option Tree) (ts : List Tree) : List Span :=
  ((placedAfter before ts).filter fun p => isTypeSpecifier p.tree).map specifierSpan

/-- The spans of the specifiers of types among the children of a node. -/
def specifierSpans (t : Tree) : List Span := spansAfter none t.children

/-- Whether siblings lie one behind the other and none of them is empty. -/
structure Ordered (ts : List Tree) : Prop where
  nonempty : ∀ t ∈ ts, t.start < t.stop
  pairwise : ts.Pairwise fun t u => t.stop ≤ u.start

variable {before after : Option Tree} {t c d : Tree} {ts pre post : List Tree} {n : Nat}

/-- Siblings are in order if the first one is not empty, ends before all others begin, and these are
in order. -/
theorem ordered_cons :
    Ordered (t :: ts) ↔ t.start < t.stop ∧ (∀ u ∈ ts, t.stop ≤ u.start) ∧ Ordered ts := by
  constructor
  · rintro ⟨hnonempty, hpairwise⟩
    obtain ⟨ht, hts⟩ := List.forall_mem_cons.mp hnonempty
    obtain ⟨hle, hrest⟩ := List.pairwise_cons.mp hpairwise
    exact ⟨ht, hle, hts, hrest⟩
  · rintro ⟨ht, hle, hts, hrest⟩
    exact ⟨List.forall_mem_cons.mpr ⟨ht, hts⟩, List.pairwise_cons.mpr ⟨hle, hrest⟩⟩

theorem Ordered.tail (h : Ordered (t :: ts)) : Ordered ts := (ordered_cons.mp h).2.2

theorem Ordered.start_lt (h : Ordered (t :: ts)) : t.start < t.stop := (ordered_cons.mp h).1

theorem Ordered.le (h : Ordered (t :: ts)) : ∀ u ∈ ts, t.stop ≤ u.start := (ordered_cons.mp h).2.1

theorem Ordered.of_append (h : Ordered (pre ++ ts)) : Ordered pre ∧ Ordered ts :=
  ⟨⟨fun t ht => h.nonempty t (List.mem_append_left ts ht),
      (List.pairwise_append.mp h.pairwise).1⟩,
    fun t ht => h.nonempty t (List.mem_append_right pre ht),
    (List.pairwise_append.mp h.pairwise).2.1⟩

theorem contains_mk {start stop : Nat} :
    (Span.mk start stop).contains n = true ↔ start ≤ n ∧ n < stop := contains_iff

/-- The three spans that a specifier may have. -/
theorem specifierSpan_cases (before : Option Tree) (t : Tree) (after : Option Tree) :
    (∃ d, after = some d ∧ isComma d = true
        ∧ specifierSpan ⟨before, t, after⟩ = ⟨t.start, d.stop⟩)
      ∨ after.any isComma = false
        ∧ ((∃ d, before = some d ∧ isComma d = true
            ∧ specifierSpan ⟨before, t, after⟩ = ⟨d.start, t.stop⟩)
          ∨ before.any isComma = false ∧ specifierSpan ⟨before, t, after⟩ = ⟨t.start, t.stop⟩) := by
  -- without a comma behind it the specifier looks back
  have hback : (∃ d, before = some d ∧ isComma d = true
        ∧ specifierSpan.backward ⟨before, t, after⟩ before = ⟨d.start, t.stop⟩)
      ∨ before.any isComma = false
        ∧ specifierSpan.backward ⟨before, t, after⟩ before = ⟨t.start, t.stop⟩ := by
    cases before with
    | none => exact .inr ⟨rfl, rfl⟩
    | some d =>
      cases hd : isComma d with
      | true => exact .inl ⟨d, rfl, hd, if_pos hd⟩
      | false => exact .inr ⟨hd, if_neg (Bool.eq_false_iff.mp hd)⟩
  cases after with
  | none => exact .inr ⟨rfl, hback⟩
  | some d =>
    cases hd : isComma d with
    | true => exact .inl ⟨d, rfl, hd, if_pos hd⟩
    | false =>
      have hspan : specifierSpan ⟨before, t, some d⟩
          = specifierSpan.backward ⟨before, t, some d⟩ before := if_neg (Bool.eq_false_iff.mp hd)
      rw [hspan]
      exact .inr ⟨hd, hback⟩

/-- The spans of siblings: that of the first one, if it is a specifier of a type, and those behind
it. -/
theorem spansAfter_cons (before : Option Tree) (t : Tree) (ts : List Tree) :
    spansAfter before (t :: ts)
      = (if isTypeSpecifier t then [specifierSpan ⟨before, t, ts.head?⟩] else [])
        ++ spansAfter (some t) ts := by
  rw [spansAfter, placedAfter, List.filter_cons]
  cases isTypeSpecifier t with
  | false => rfl
  | true => rfl

/-- An offset in one of the spans lies in the first one or in one behind it. -/
theorem inside_spansAfter_cons : Inside (spansAfter before (t :: ts)) n
    ↔ isTypeSpecifier t = true ∧ (specifierSpan ⟨before, t, ts.head?⟩).contains n = true
      ∨ Inside (spansAfter (some t) ts) n := by
  rw [spansAfter_cons]
  cases isTypeSpecifier t with
  | false => simp
  | true => simp [Inside]

/-- The span of a specifier has all of its bytes. -/
theorem contains_specifierSpan (h : Ordered (before.toList ++ t :: ts))
    (hn : t.start ≤ n ∧ n < t.stop) :
    (specifierSpan ⟨before, t, ts.head?⟩).contains n = true := by
  rcases specifierSpan_cases before t ts.head? with
    ⟨d, hafter, -, hspan⟩ | ⟨-, ⟨d, rfl, -, hspan⟩ | ⟨-, hspan⟩⟩
  · have hmem : d ∈ t :: ts := List.mem_cons_of_mem t (List.mem_of_mem_head? hafter)
    have hordered := h.of_append.2
    have hle := hordered.le d (List.mem_of_mem_head? hafter)
    have hd := hordered.nonempty d hmem
    rw [hspan, contains_mk]
    omega
  · have hle := h.le t List.mem_cons_self
    have hd := h.start_lt
    rw [hspan, contains_mk]
    omega
  · rw [hspan, contains_mk]
    exact hn

/-- It starts with the node before it at the earliest. -/
theorem start_le_of_contains (h : Ordered (d :: t :: ts)) {after : Option Tree}
    (hin : (specifierSpan ⟨some d, t, after⟩).contains n = true) : d.start ≤ n := by
  have hd := h.start_lt
  have hle := h.le t List.mem_cons_self
  rcases specifierSpan_cases (some d) t after with
    ⟨e, -, -, hspan⟩ | ⟨-, ⟨e, he, -, hspan⟩ | ⟨-, hspan⟩⟩
  · rw [hspan, contains_mk] at hin
    omega
  · cases he
    rw [hspan, contains_mk] at hin
    omega
  · rw [hspan, contains_mk] at hin
    omega

/-- It ends with the node after it at the latest, and does so only if that is a comma. -/
theorem lt_of_contains (hin : (specifierSpan ⟨before, t, some d⟩).contains n = true) :
    n < t.stop ∨ isComma d = true ∧ n < d.stop := by
  rcases specifierSpan_cases before t (some d) with
    ⟨e, hafter, he, hspan⟩ | ⟨-, ⟨e, -, -, hspan⟩ | ⟨-, hspan⟩⟩
  · cases hafter
    rw [hspan, contains_mk] at hin
    exact .inr ⟨he, hin.2⟩
  · rw [hspan, contains_mk] at hin
    exact .inl hin.2
  · rw [hspan, contains_mk] at hin
    exact .inl hin.2

/-- No span of a specifier starts before the siblings and their first neighbour. -/
theorem not_inside_of_lt (h : Ordered (d :: ts)) (hn : n < d.start) :
    ¬Inside (spansAfter (some d) ts) n := by
  induction ts generalizing d with
  | nil => simp [spansAfter, placedAfter, Inside]
  | cons t ts ih =>
    have hstart := h.start_lt
    have hle := h.le t List.mem_cons_self
    rw [inside_spansAfter_cons]
    rintro (⟨-, hin⟩ | hin)
    · have := start_le_of_contains h hin
      omega
    · exact ih h.tail (by omega) hin

/-- Of the specifiers behind a node the one right after it takes it along if it is a comma. -/
theorem inside_behind_iff (h : Ordered (c :: post)) (hn : c.start ≤ n ∧ n < c.stop) :
    Inside (spansAfter (some c) post) n ↔ (isComma c && takesBack post) = true := by
  cases post with
  | nil => simp [spansAfter, placedAfter, Inside, takesBack]
  | cons s more =>
    have hle := h.le s List.mem_cons_self
    have hlater : ¬Inside (spansAfter (some s) more) n := not_inside_of_lt h.tail (by omega)
    have hs := h.tail.start_lt
    rw [inside_spansAfter_cons, or_iff_left hlater, takesBack]
    simp only [Bool.and_eq_true, Bool.not_eq_true']
    rcases specifierSpan_cases (some c) s more.head? with
      ⟨e, hafter, he, hspan⟩ | ⟨hafter, ⟨e, hbefore, he, hspan⟩ | ⟨hc, hspan⟩⟩
    -- Its span runs on to a comma behind it, back over one before it, or no further than itself.
    · have hfirst : commaFirst more = true := by rw [commaFirst, hafter]; exact he
      rw [hspan, contains_mk, hfirst]
      constructor
      · rintro ⟨-, hin⟩
        omega
      · rintro ⟨-, -, hnot⟩
        cases hnot
    · cases hbefore
      rw [hspan, contains_mk, he]
      constructor
      · rintro ⟨hmarked, -⟩
        exact ⟨rfl, hmarked, hafter⟩
      · rintro ⟨-, hmarked, -⟩
        exact ⟨hmarked, by omega, by omega⟩
    · rw [hspan, contains_mk]
      constructor
      · rintro ⟨-, hin⟩
        omega
      · rintro ⟨hcomma, -⟩
        exact absurd hcomma (Bool.eq_false_iff.mp hc)

/-- **Which siblings go.** A node lies in the spans with all of its bytes or with none. Induction on
the siblings before it; only the last one of them matters. -/
theorem inside_spansAfter_iff (h : Ordered (before.toList ++ (pre ++ c :: post)))
    (hn : c.start ≤ n ∧ n < c.stop) :
    Inside (spansAfter before (pre ++ c :: post)) n ↔ goes (markedLast pre) c post = true := by
  induction pre generalizing before with
  | nil =>
    rw [List.nil_append, inside_spansAfter_cons, inside_behind_iff h.of_append.2 hn, goes]
    simp [contains_specifierSpan h hn, markedLast]
  | cons d pre ih =>
    have hordered : Ordered (d :: (pre ++ c :: post)) := h.of_append.2
    have hbehind := hordered.le c (by simp)
    rw [List.cons_append, inside_spansAfter_cons, @ih (some d) hordered]
    cases pre with
    | nil =>
      -- the comma right after a specifier of types
      have hnext : (specifierSpan ⟨before, d, some c⟩).contains n = isComma c := by
        rw [Bool.eq_iff_iff]
        constructor
        · intro hin
          rcases lt_of_contains hin with hself | ⟨hcomma, -⟩
          · omega
          · exact hcomma
        · intro hcomma
          have hd := hordered.start_lt
          have hspan : specifierSpan ⟨before, d, some c⟩ = ⟨d.start, c.stop⟩ := if_pos hcomma
          rw [hspan, contains_mk]
          omega
      rw [List.nil_append, List.head?_cons, hnext]
      simp only [goes, markedLast, List.getLast?_singleton, List.getLast?_nil, Option.any_some,
        Option.any_none, Bool.false_or, Bool.or_eq_true, Bool.and_eq_true]
      tauto
    | cons e pre =>
      have he := hordered.le e (by simp)
      have hbeyond := hordered.tail.le c (by simp)
      have hnone : ¬(specifierSpan ⟨before, d, some e⟩).contains n = true := by
        intro hin
        rcases lt_of_contains hin with hself | ⟨-, hnext⟩
        · omega
        · omega
      have hlast : markedLast (d :: e :: pre) = markedLast (e :: pre) := by
        simp [markedLast, List.getLast?_cons_cons]
      rw [List.cons_append, List.head?_cons, hlast, or_iff_right fun hin => hnone hin.2]

/-! ## Clauses -/

/-- The children of a node between the first and the last one. -/
def between (t : Tree) : List Tree := t.children.tail.dropLast

/-- Whether a node is a clause: a list of specifiers between braces. -/
structure IsClause (t : Tree) : Prop where
  opening : t.children.head?.any (·.isToken "\x7b") = true
  closing : t.children.getLast?.any (·.isToken "\x7d") = true
  listing : IsListing (between t)
  ordered : Ordered t.children

instance (ts : List Tree) : Decidable (Ordered ts) :=
  decidable_of_iff ((∀ t ∈ ts, t.start < t.stop) ∧ ts.Pairwise fun t u => t.stop ≤ u.start)
    ⟨fun h => ⟨h.1, h.2⟩, fun h => ⟨h.1, h.2⟩⟩

instance (t : Tree) : Decidable (IsClause t) :=
  decidable_of_iff (t.children.head?.any (·.isToken "\x7b") = true
      ∧ t.children.getLast?.any (·.isToken "\x7d") = true ∧ IsListing (between t)
      ∧ Ordered t.children)
    ⟨fun ⟨h₁, h₂, h₃, h₄⟩ => ⟨h₁, h₂, h₃, h₄⟩, fun ⟨h₁, h₂, h₃, h₄⟩ => ⟨h₁, h₂, h₃, h₄⟩⟩

/-- What a clause has left between its braces: all that does not start in the span of a specifier of
types. -/
def kept (t : Tree) : List Tree :=
  (between t).filter fun c => !(specifierSpans t).any (·.contains c.start)

/-- A clause is a list between two braces, and has both. -/
theorem IsClause.exists_braces (h : IsClause t) : ∃ opening closing,
    t.children = opening :: (between t ++ [closing])
      ∧ opening.isToken "\x7b" = true ∧ closing.isToken "\x7d" = true := by
  have hopening := h.opening
  have hclosing := h.closing
  rw [between]
  cases hchildren : t.children with
  | nil =>
    rw [hchildren] at hopening
    cases hopening
  | cons opening rest =>
    rw [hchildren] at hopening hclosing
    induction rest using List.reverseRecOn with
    | nil =>
      -- no token is both braces
      have hlabel : opening.label = .token "\x7b" := of_decide_eq_true hopening
      have hlabel' : opening.label = .token "\x7d" := of_decide_eq_true hclosing
      rw [hlabel] at hlabel'
      exact absurd (Label.token.inj hlabel') (by decide)
    | append_singleton body closing =>
      refine ⟨opening, closing, by simp, hopening, ?_⟩
      rwa [← List.cons_append, List.getLast?_concat] at hclosing

theorem not_isComma_of_isToken {text : String} (h : t.isToken text = true) (hne : text ≠ ",") :
    isComma t = false := by
  simp only [Tree.isToken, decide_eq_true_eq] at h
  simp [isComma, Tree.isToken, h, hne]

theorem not_isTypeSpecifier_of_isToken {text : String} (h : t.isToken text = true) :
    isTypeSpecifier t = false := by
  refine not_isTypeSpecifier ?_
  simp only [Tree.isToken, decide_eq_true_eq] at h
  simp [isSpecifier, Tree.is, h]

/-- Neither brace makes a difference. -/
theorem IsClause.inside_iff (h : IsClause t) (hsplit : between t = pre ++ c :: post)
    (hn : c.start ≤ n ∧ n < c.stop) :
    Inside (specifierSpans t) n ↔ goes (markedLast pre) c post = true := by
  obtain ⟨opening, closing, hchildren, hopening, hclosing⟩ := h.exists_braces
  have hall : t.children = (opening :: pre) ++ c :: (post ++ [closing]) := by
    rw [hchildren, hsplit]
    simp
  have hordered := h.ordered
  rw [hall] at hordered
  -- the opening brace is no specifier, so it marks nothing that comes after it
  have hfirst : markedLast (opening :: pre) = markedLast pre := by
    cases pre with
    | nil => exact not_isTypeSpecifier_of_isToken hopening
    | cons d pre => simp [markedLast, List.getLast?_cons_cons]
  -- nor is the closing one, or a comma
  have hlast : takesBack (post ++ [closing]) = takesBack post := by
    cases post with
    | nil => simp [takesBack, not_isTypeSpecifier_of_isToken hclosing]
    | cons s more =>
      cases more with
      | nil => simp [takesBack, commaFirst, not_isComma_of_isToken hclosing]
      | cons d more => rfl
  rw [specifierSpans, hall, inside_spansAfter_iff hordered hn, goes, goes, hfirst, hlast]

theorem IsClause.start_lt (h : IsClause t) (hc : c ∈ between t) : c.start < c.stop :=
  h.ordered.nonempty c (List.mem_of_mem_tail ((List.dropLast_sublist _).subset hc))

/-- The spans leave what is left of siblings by their neighbours. -/
theorem IsClause.kept_eq (h : IsClause t) : kept t = leftAfter false (between t) := by
  -- induction on what is left of the siblings, with those before it as the context
  have hfrom : ∀ ts pre, between t = pre ++ ts →
      (ts.filter fun c => !(specifierSpans t).any (·.contains c.start))
        = leftAfter (markedLast pre) ts := by
    intro ts
    induction ts with
    | nil =>
      intro pre _
      rfl
    | cons c ts ih =>
      intro pre hsplit
      have hstart := h.start_lt (c := c) (by rw [hsplit]; simp)
      have hgoes : (specifierSpans t).any (·.contains c.start) = goes (markedLast pre) c ts := by
        rw [Bool.eq_iff_iff, ← Erasure.inside_iff]
        exact h.inside_iff hsplit ⟨Nat.le_refl _, hstart⟩
      have hrest := ih (pre ++ [c]) (by rw [hsplit]; simp)
      rw [markedLast_concat] at hrest
      rw [List.filter_cons, hgoes, leftAfter, hrest]
      cases goes (markedLast pre) c ts with
      | true => rfl
      | false => rfl
  exact hfrom (between t) [] rfl

/-! ## The type layer of a clause -/

/-- A specifier of types has no layer but its span. -/
theorem layer_of_isTypeSpecifier (h : isTypeSpecifier t = true) (before after : Option Tree) :
    layer before after t = (specifierSpan ⟨before, t, after⟩).bytes := by
  cases t with
  | node label field start stop missing children =>
    have hwhole : isWhole (.node label field start stop missing children) = false := by
      rcases Bool.or_eq_true_iff.mp (isSpecifier_of_isTypeSpecifier h) with hs | hs
      · obtain rfl : label = .kind .importSpecifier := of_decide_eq_true hs
        rfl
      · obtain rfl : label = .kind .exportSpecifier := of_decide_eq_true hs
        rfl
    rw [layer]
    simp only [hwhole, h, Bool.false_eq_true, if_false, if_true]

/-- Where all siblings but the specifiers of types are without types, their layer is the spans of
these. -/
theorem layerOfAll_eq_covered (before : Option Tree) (ts : List Tree)
    (h : ∀ t ∈ ts, isTypeSpecifier t = false → isTypeless t = true) :
    layerOfAll [] before ts = covered (spansAfter before ts) := by
  induction ts generalizing before with
  | nil => exact covered_nil.symm
  | cons t ts ih =>
    obtain ⟨ht, hts⟩ := List.forall_mem_cons.mp h
    have htoken : isAnyToken [] t = false := rfl
    rw [layerOfAll, ih (some t) hts, htoken, if_neg Bool.false_ne_true, spansAfter_cons]
    cases hmarked : isTypeSpecifier t with
    | false =>
      rw [layer_eq_empty t before ts.head? (ht hmarked), Set.empty_union]
      rfl
    | true =>
      rw [layer_of_isTypeSpecifier hmarked, if_pos rfl, List.singleton_append, covered_cons]

/-- **The type layer of a clause.** Where nothing else below it has syntax for types, it is what the
spans of its specifiers of types cover. -/
theorem layer_of_clause (hkind : t.is .namedImports = true ∨ t.is .exportClause = true)
    (h : ∀ c ∈ t.children, isTypeSpecifier c = false → isTypeless c = true)
    (before after : Option Tree) :
    layer before after t = covered (specifierSpans t) := by
  cases t with
  | node label field start stop missing children =>
    rw [layer]
    rcases hkind with hkind | hkind
    · obtain rfl : label = .kind .namedImports := of_decide_eq_true hkind
      exact layerOfAll_eq_covered none children h
    · obtain rfl : label = .kind .exportClause := of_decide_eq_true hkind
      exact layerOfAll_eq_covered none children h

end OptionTypes.Syntax.TypeLayer

namespace OptionTypes.Erasure

open Syntax TypeLayer

variable {ss : List Span} {bytes : Bytes} {start stop : Nat}

/-- The bytes of a slice are those of the source from its start on. -/
theorem getElem?_slice (bytes : Bytes) (start stop i : Nat) :
    (slice bytes start stop)[i]? = if i < stop - start then bytes[start + i]? else none := by
  rw [slice, List.getElem?_take, List.getElem?_drop]

/-- Bytes outside of the spans stay. -/
theorem slice_blank_eq (h : ∀ n, start ≤ n ∧ n < stop → ¬Inside ss n) :
    slice (blank ss bytes) start stop = slice bytes start stop := by
  apply List.ext_getElem?
  intro i
  rw [getElem?_slice, getElem?_slice, blank, getElem?_blankFrom, Nat.zero_add]
  split
  next hi =>
    have hout := h (start + i) ⟨by omega, by omega⟩
    cases bytes[start + i]? with
    | none => rfl
    | some b => exact congrArg some (blankAt_of_outside hout)
  next => rfl

/-- Bytes in the spans are blank afterwards. -/
theorem isBlank_of_mem_slice_blank (h : ∀ n, start ≤ n ∧ n < stop → Inside ss n) :
    ∀ b ∈ slice (blank ss bytes) start stop, IsBlank b := by
  intro b hb
  obtain ⟨i, hi⟩ := List.mem_iff_getElem?.mp hb
  rw [getElem?_slice, blank, getElem?_blankFrom, Nat.zero_add] at hi
  split at hi
  next hlt =>
    obtain ⟨old, -, rfl⟩ := Option.map_eq_some_iff.mp hi
    exact isBlank_blankAt old (h (start + i) ⟨by omega, by omega⟩)
  next => cases hi

/-- **What is left of a clause.** Each node between the braces stays as it is or is blank, the
specifiers that stay are those that are not of types, and they are a list again exactly when the
clause can do without the others.

A node is blank exactly if it goes together with its neighbours (`IsClause.kept_eq`), so that the
last part is one about lists (`isListing_left_iff`). -/
theorem kept_of_clause {t : Tree} (h : IsClause t) (bytes : Bytes) :
    (∀ c ∈ kept t, slice (blank (specifierSpans t) bytes) c.start c.stop
        = slice bytes c.start c.stop)
      ∧ (∀ c ∈ between t, c ∉ kept t →
        ∀ b ∈ slice (blank (specifierSpans t) bytes) c.start c.stop, IsBlank b)
      ∧ (kept t).filter isSpecifier
        = ((between t).filter isSpecifier).filter (fun s => !isTypeSpecifier s)
      ∧ (IsListing (kept t) ↔ Separable (between t)) := by
  have hwhole : ∀ c ∈ between t, ∀ n, c.start ≤ n ∧ n < c.stop →
      (Inside (specifierSpans t) n ↔ Inside (specifierSpans t) c.start) := by
    intro c hc n hn
    obtain ⟨pre, post, hsplit⟩ := List.append_of_mem hc
    rw [h.inside_iff hsplit hn, h.inside_iff hsplit ⟨Nat.le_refl _, h.start_lt hc⟩]
  have hkept : ∀ c, c ∈ kept t ↔ c ∈ between t ∧ ¬Inside (specifierSpans t) c.start := by
    intro c
    rw [kept, List.mem_filter, inside_iff, Bool.not_eq_true, Bool.not_eq_true']
  refine ⟨fun c hc => ?_, fun c hc hgone => ?_, ?_, ?_⟩
  · obtain ⟨hmem, hout⟩ := (hkept c).mp hc
    exact slice_blank_eq fun n hn hin => hout ((hwhole c hmem n hn).mp hin)
  · refine isBlank_of_mem_slice_blank fun n hn => (hwhole c hc n hn).mpr ?_
    by_contra hout
    exact hgone ((hkept c).mpr ⟨hc, hout⟩)
  · rw [h.kept_eq, specifiers_leftAfter]
  · rw [h.kept_eq, isListing_left_iff h.listing]

/-- The first list of imported names in a script with types. -/
def firstNames? (chars : List Char) : Option Tree :=
  ((walk false (Dialect.typescript.parse chars)).map Visit.tree).find? (·.is .namedImports)

/-- A clause with comments, and with specifiers of types first, last and in between. -/
theorem kept_of_clause_mixed :
    let chars := "import {/* a */ type A, B, /* c */ type C, D, type E /* e */} from 'm'".toList
    let left := "import {/* a */         B, /* c */         D         /* e */} from 'm'".toList
    ∃ t, firstNames? chars = some t ∧ IsClause t
      ∧ blank (specifierSpans t) (Utf8.encode chars) = Utf8.encode left
      ∧ IsListing (kept t) ∧ Separable (between t)
      ∧ (kept t).filter isSpecifier
        = ((between t).filter isSpecifier).filter (fun s => !isTypeSpecifier s) := by
  intro chars left
  have hclause : (firstNames? chars).any (fun t => IsClause t ∧ IsListing (kept t)
      ∧ blank (specifierSpans t) (Utf8.encode chars) = Utf8.encode left) = true := by
    decide +kernel
  obtain ⟨t, hfirst, hfacts⟩ := (Option.any_eq_true _ _).mp hclause
  obtain ⟨ht, hlisting, hblank⟩ := of_decide_eq_true hfacts
  obtain ⟨-, -, hspecifiers, hiff⟩ := kept_of_clause ht (Utf8.encode chars)
  exact ⟨t, hfirst, ht, hblank, hlisting, hiff.mp hlisting, hspecifiers⟩

/-- Not every clause is left a list: where a comment stands before the comma of a specifier of
types, the comma may stay without anything before it. -/
theorem not_forall_isListing_kept :
    ¬∀ chars t, firstNames? chars = some t → IsClause t → IsListing (kept t) := by
  intro h
  let chars := "import {type A /* c */, B} from 'm'".toList
  have hclause : (firstNames? chars).any (fun t => IsClause t ∧ ¬IsListing (kept t)) = true := by
    decide +kernel
  obtain ⟨t, hfirst, hfacts⟩ := (Option.any_eq_true _ _).mp hclause
  obtain ⟨ht, hnot⟩ := of_decide_eq_true hfacts
  exact hnot (h chars t hfirst ht)

end OptionTypes.Erasure
