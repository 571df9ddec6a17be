import Mathlib.Data.List.Induction
import OptionTypes.Proofs.Unchanged

/-!
# Lists of specifiers without those of types

The names that an import or an export lists are specifiers with commas between them. One of types
takes a comma along when it goes: the one right after it, or else the one right before it. Only its
neighbours count, so a comment hides a comma from it, and two specifiers may take the same one.

* `IsListing` says what a list is, whatever comments stand in it, and `leftAfter` what is left of
  siblings by what their neighbours are.
* `Tail` takes what follows a specifier apart: nothing, a last comma, or a comma and another one.
* `takeTurns_iff_allTakeBack` and `leavesListing` go through it by induction.
* `isListing_left_iff`: what is left is a list exactly when the siblings are `Separable`: once a
  specifier of types finds no comma, all those after it must take the comma right before them.
* `separable_of_direct`: they are if no comment hides the comma after such a specifier.
-/

namespace OptionTypes.Syntax.TypeLayer

variable {t c s : Tree} {ts gap lead trail before : List Tree}

/-! ## Lists of specifiers -/

/-- Whether a node is one of the names that an import or an export lists. -/
def isSpecifier (t : Tree) : Bool := t.is .importSpecifier || t.is .exportSpecifier

/-- Whether a node separates two of them. -/
def isComma (t : Tree) : Bool := t.isToken ","

/-- Siblings without the comments among them. -/
def significant (ts : List Tree) : List Tree := ts.filter fun t => !t.isComment

/-- Whether specifiers and commas take turns, a specifier or a comma being the first. So there are
no two commas or two specifiers in a row, and at most one comma at the end. -/
def TakeTurns : Bool → List Tree → Prop
  | _, [] => True
  | true, t :: ts => isSpecifier t = true ∧ TakeTurns false ts
  | false, t :: ts => isComma t = true ∧ TakeTurns true ts

instance decidableTakeTurns : ∀ b ts, Decidable (TakeTurns b ts)
  | true, [] => .isTrue trivial
  | false, [] => .isTrue trivial
  | true, _ :: ts => @instDecidableAnd _ _ _ (decidableTakeTurns false ts)
  | false, _ :: ts => @instDecidableAnd _ _ _ (decidableTakeTurns true ts)

/-- Whether siblings list specifiers: each but perhaps the last one is followed by a comma, with
comments anywhere. -/
def IsListing (ts : List Tree) : Prop := TakeTurns true (significant ts)

instance (ts : List Tree) : Decidable (IsListing ts) :=
  inferInstanceAs (Decidable (TakeTurns true _))

/-! ## What nodes are

Specifiers, commas and comments exclude each other, since each of them is known by its label. The
lemmas are used in both directions, so each pair has two. -/

theorem isSpecifier_of_isTypeSpecifier (h : isTypeSpecifier t = true) : isSpecifier t = true :=
  (Bool.and_eq_true_iff.mp h).1

theorem not_isSpecifier_of_isComment (h : t.isComment = true) : isSpecifier t = false := by
  simp only [Tree.isComment, Tree.is, decide_eq_true_eq] at h
  simp [isSpecifier, Tree.is, h]

theorem not_isComma_of_isComment (h : t.isComment = true) : isComma t = false := by
  simp only [Tree.isComment, Tree.is, decide_eq_true_eq] at h
  simp [isComma, Tree.isToken, h]

theorem not_isSpecifier_of_isComma (h : isComma t = true) : isSpecifier t = false := by
  simp only [isComma, Tree.isToken, decide_eq_true_eq] at h
  simp [isSpecifier, Tree.is, h]

theorem not_isTypeSpecifier (h : isSpecifier t = false) : isTypeSpecifier t = false := by
  rw [← Bool.not_eq_true] at h ⊢
  exact fun hmarked => h (isSpecifier_of_isTypeSpecifier hmarked)

theorem not_isComment_of_isSpecifier (h : isSpecifier t = true) : t.isComment = false := by
  rw [← Bool.not_eq_true]
  exact fun hcomment => absurd h (Bool.eq_false_iff.mp (not_isSpecifier_of_isComment hcomment))

theorem not_isComma_of_isSpecifier (h : isSpecifier t = true) : isComma t = false := by
  rw [← Bool.not_eq_true]
  exact fun hcomma => absurd h (Bool.eq_false_iff.mp (not_isSpecifier_of_isComma hcomma))

theorem not_isComment_of_isComma (h : isComma t = true) : t.isComment = false := by
  rw [← Bool.not_eq_true]
  exact fun hcomment => absurd h (Bool.eq_false_iff.mp (not_isComma_of_isComment hcomment))

/-- In a list everything is a specifier or a comma. -/
theorem TakeTurns.cases {b : Bool} (h : TakeTurns b ts) :
    ∀ t ∈ ts, isSpecifier t = true ∨ isComma t = true := by
  induction ts generalizing b with
  | nil => exact nofun
  | cons t ts ih =>
    cases b with
    | true => exact List.forall_mem_cons.mpr ⟨.inl h.1, ih h.2⟩
    | false => exact List.forall_mem_cons.mpr ⟨.inr h.1, ih h.2⟩

/-! ## Neighbours -/

/-- Whether a comma comes first among siblings. -/
def commaFirst (ts : List Tree) : Bool := ts.head?.any isComma

/-- Whether a comma comes last among siblings. -/
def commaLast (ts : List Tree) : Bool := ts.getLast?.any isComma

/-- Whether a specifier of types comes last among siblings. -/
def markedLast (ts : List Tree) : Bool := ts.getLast?.any isTypeSpecifier

/-- Whether all siblings are comments. -/
def AreComments (ts : List Tree) : Prop := ∀ t ∈ ts, t.isComment = true

/-- Whether a specifier of types between siblings finds a comma that no other one takes along: the
one right after it, or the one right before it unless that is right after another such specifier. -/
def FindsComma (pre post : List Tree) : Prop :=
  commaFirst post = true ∨ commaLast pre = true ∧ markedLast pre.dropLast = false

/-- Whether something is true at each specifier among siblings, of those before it, of itself and of
those after it. -/
def AtSpecifiers (Q : List Tree → Tree → List Tree → Prop) (ts : List Tree) : Prop :=
  ∀ pre s post, ts = pre ++ s :: post → isSpecifier s = true → Q pre s post

/-- Whether all specifiers among siblings are of types and take along the comma right before them,
and none is left at the end. -/
def AllTakeBack (ts : List Tree) : Prop :=
  AtSpecifiers (fun pre s post =>
      isTypeSpecifier s = true ∧ commaLast pre = true ∧ commaFirst post = false) ts
    ∧ commaLast (significant ts) = false

/-- Whether siblings behind others can do without their specifiers of types: after one that finds no
comma, all others do, right before them. -/
def SeparableAfter (before ts : List Tree) : Prop :=
  AtSpecifiers (fun pre s post =>
    isTypeSpecifier s = true → ¬FindsComma (before ++ pre) post → AllTakeBack post) ts

/-- Whether siblings can do without their specifiers of types. -/
def Separable (ts : List Tree) : Prop := SeparableAfter [] ts

theorem AreComments.not_isSpecifier (h : AreComments ts) : ∀ t ∈ ts, isSpecifier t = false :=
  fun t ht => not_isSpecifier_of_isComment (h t ht)

/-- The next sibling is a comma if no comments come before the comma. -/
theorem commaFirst_append_comma (hgap : AreComments gap) (hc : isComma c = true) (ts : List Tree) :
    commaFirst (gap ++ c :: ts) = gap.isEmpty := by
  cases gap with
  | nil => exact hc
  | cons t gap => exact not_isComma_of_isComment (hgap t List.mem_cons_self)

theorem commaLast_concat (pre : List Tree) (t : Tree) : commaLast (pre ++ [t]) = isComma t := by
  simp [commaLast]

/-- Whether the last sibling has a property that those put behind the others never have. -/
theorem any_getLast?_append {p : Tree → Bool} {us : List Tree} (h : ∀ t ∈ us, p t = false)
    (ts : List Tree) : (ts ++ us).getLast?.any p = (us.isEmpty && ts.getLast?.any p) := by
  induction us using List.reverseRecOn with
  | nil => simp
  | append_singleton us t => simp [← List.append_assoc, h t (by simp)]

/-- Comments hide a comma before them, unless there are none. -/
theorem commaLast_append (hlead : AreComments lead) (pre : List Tree) :
    commaLast (pre ++ lead) = (lead.isEmpty && commaLast pre) :=
  any_getLast?_append (fun t ht => not_isComma_of_isComment (hlead t ht)) pre

/-- In the same way comments hide a specifier of a type. -/
theorem markedLast_append (hgap : AreComments gap) (pre : List Tree) :
    markedLast (pre ++ gap) = (gap.isEmpty && markedLast pre) :=
  any_getLast?_append (fun t ht => not_isTypeSpecifier (hgap.not_isSpecifier t ht)) pre

theorem markedLast_concat (pre : List Tree) (t : Tree) :
    markedLast (pre ++ [t]) = isTypeSpecifier t := by
  simp [markedLast]

/-- Whether a specifier behind a comma finds a comma, by the comments around that one. -/
theorem findsComma_iff (hgap : AreComments gap) (hc : isComma c = true) (hlead : AreComments lead)
    (before ts : List Tree) :
    FindsComma (before ++ (gap ++ c :: lead)) ts
      ↔ commaFirst ts = true
        ∨ lead.isEmpty = true ∧ (gap.isEmpty && markedLast before) = false := by
  have hsplit : before ++ (gap ++ c :: lead) = (before ++ gap ++ [c]) ++ lead := by simp
  rw [FindsComma, hsplit, commaLast_append hlead]
  cases lead with
  | nil =>
    rw [commaLast_concat, hc, List.append_nil, List.dropLast_concat, markedLast_append hgap]
    simp
  | cons t lead => simp

/-- What holds at each specifier holds at those behind siblings that are none, with these among the
siblings before. -/
theorem atSpecifiers_append {Q : List Tree → Tree → List Tree → Prop} {cs : List Tree}
    (hcs : ∀ c ∈ cs, isSpecifier c = false) :
    AtSpecifiers Q (cs ++ ts) ↔ AtSpecifiers (fun pre => Q (cs ++ pre)) ts := by
  constructor
  · rintro h pre s post rfl hs
    exact h (cs ++ pre) s post (List.append_assoc ..).symm hs
  · intro h pre s post hsplit hs
    -- the specifier is not among the nodes in front
    rcases List.append_eq_append_iff.mp hsplit with ⟨more, rfl, hts⟩ | ⟨more, rfl, hmore⟩
    · exact h more s post hts hs
    · cases more with
      | nil =>
        rw [List.append_nil] at h
        exact (List.append_nil pre).symm ▸ h [] s post hmore.symm hs
      | cons d more =>
        obtain ⟨rfl, -⟩ := List.cons.inj hmore
        have hnot := hcs s (by simp)
        rw [hs] at hnot
        cases hnot

/-- What holds at each specifier holds at the first one and at the others. -/
theorem atSpecifiers_cons {Q : List Tree → Tree → List Tree → Prop} (hs : isSpecifier s = true) :
    AtSpecifiers Q (s :: ts) ↔ Q [] s ts ∧ AtSpecifiers (fun pre => Q (s :: pre)) ts := by
  constructor
  · intro h
    refine ⟨h [] s ts rfl hs, ?_⟩
    rintro pre u post rfl hu
    exact h (s :: pre) u post rfl hu
  · rintro ⟨hfirst, hrest⟩ pre u post hsplit hu
    cases pre with
    | nil =>
      obtain ⟨rfl, rfl⟩ := List.cons.inj hsplit
      exact hfirst
    | cons d pre =>
      obtain ⟨rfl, rfl⟩ := List.cons.inj hsplit
      exact hrest pre u post rfl hu

theorem atSpecifiers_none {Q : List Tree → Tree → List Tree → Prop}
    (h : ∀ t ∈ ts, isSpecifier t = false) : AtSpecifiers Q ts := by
  rintro pre s post rfl hs
  have hnot := h s (by simp)
  rw [hs] at hnot
  cases hnot

/-! ## What is left of siblings -/

/-- Whether a specifier of types comes first among siblings and takes the comma before it along,
since none is right after it. -/
def takesBack : List Tree → Bool
  | [] => false
  | s :: ts => isTypeSpecifier s && !commaFirst ts

/-- Whether a node goes, given whether the one before it is a specifier of types: such a specifier
goes, and a comma that is taken along. -/
def goes (marked : Bool) (t : Tree) (ts : List Tree) : Bool :=
  isTypeSpecifier t || isComma t && (marked || takesBack ts)

/-- The siblings that are left, given whether the one before them is a specifier of types. -/
def leftAfter : Bool → List Tree → List Tree
  | _, [] => []
  | marked, t :: ts =>
    if goes marked t ts then leftAfter (isTypeSpecifier t) ts
    else t :: leftAfter (isTypeSpecifier t) ts

/-- What is left of siblings, without comments. -/
def rest (marked : Bool) (ts : List Tree) : List Tree := significant (leftAfter marked ts)

theorem significant_comments (h : AreComments ts) (us : List Tree) :
    significant (ts ++ us) = significant us := by
  have hnone : significant ts = [] :=
    List.filter_eq_nil_iff.mpr fun t ht => by simp [h t ht]
  rw [significant, List.filter_append]
  exact congrArg (· ++ significant us) hnone

/-- Comments are passed. Only if there are none does it matter whether a specifier of a type came
right before. -/
theorem rest_comments {cs : List Tree} (h : AreComments cs) (marked : Bool) (ts : List Tree) :
    rest marked (cs ++ ts) = rest (cs.isEmpty && marked) ts := by
  induction cs generalizing marked with
  | nil => simp
  | cons t cs ih =>
    obtain ⟨ht, hcs⟩ := List.forall_mem_cons.mp h
    have hmarked := not_isTypeSpecifier (not_isSpecifier_of_isComment ht)
    have hstay : goes marked t (cs ++ ts) = false := by
      rw [goes, hmarked, not_isComma_of_isComment ht]
      rfl
    rw [List.cons_append, rest, leftAfter, hstay, hmarked, if_neg Bool.false_ne_true,
      ← List.singleton_append, significant_comments (by simpa [AreComments] using ht)]
    rw [← rest, ih hcs]
    simp

/-- A specifier is left unless it is one of a type. -/
theorem rest_specifier (hs : isSpecifier s = true) (marked : Bool) (ts : List Tree) :
    rest marked (s :: ts)
      = (if isTypeSpecifier s then [] else [s]) ++ rest (isTypeSpecifier s) ts := by
  have hgoes : goes marked s ts = isTypeSpecifier s := by
    rw [goes, not_isComma_of_isSpecifier hs, Bool.false_and, Bool.or_false]
  rw [rest, leftAfter, hgoes]
  split
  · rfl
  · rw [significant, List.filter_cons_of_pos (by rw [not_isComment_of_isSpecifier hs]; rfl)]
    rfl

/-- A comma goes with the specifier before it if that one takes it along, and with the one behind it
if that one takes it back. -/
theorem rest_comma (hc : isComma c = true) (marked : Bool) (ts : List Tree) :
    rest marked (c :: ts) = (if marked || takesBack ts then [] else [c]) ++ rest false ts := by
  have hmarked := not_isTypeSpecifier (not_isSpecifier_of_isComma hc)
  have hgoes : goes marked c ts = (marked || takesBack ts) := by
    rw [goes, hmarked, hc, Bool.false_or, Bool.true_and]
  rw [rest, leftAfter, hgoes, hmarked]
  split
  · rfl
  · rw [significant, List.filter_cons_of_pos (by rw [not_isComment_of_isComma hc]; rfl)]
    rfl

/-- A specifier takes back the comma before it if it is of a type, stands right behind the comma,
and no comma follows it that it could take along. -/
theorem takesBack_append (hlead : AreComments lead) (s : Tree) (ts : List Tree) :
    takesBack (lead ++ s :: ts) = (lead.isEmpty && (isTypeSpecifier s && !commaFirst ts)) := by
  cases lead with
  | nil => rfl
  | cons t lead =>
    have ht := not_isTypeSpecifier (not_isSpecifier_of_isComment (hlead t List.mem_cons_self))
    simp [takesBack, ht]

theorem takesBack_comments (h : AreComments ts) : takesBack ts = false := by
  cases ts with
  | nil => rfl
  | cons t ts =>
    rw [takesBack, not_isTypeSpecifier (not_isSpecifier_of_isComment (h t List.mem_cons_self))]
    rfl

/-! ## What follows a specifier -/

/-- What follows a specifier in a list: nothing, a last comma, or a comma and another one. -/
inductive Tail : List Tree → Prop where
  | done {trail : List Tree} (h : AreComments trail) : Tail trail
  | comma {gap trail : List Tree} {c : Tree} (hgap : AreComments gap) (hc : isComma c = true)
    (htrail : AreComments trail) : Tail (gap ++ c :: trail)
  | next {gap lead ts : List Tree} {c s : Tree} (hgap : AreComments gap) (hc : isComma c = true)
    (hlead : AreComments lead) (hs : isSpecifier s = true) (h : Tail ts) :
    Tail (gap ++ c :: (lead ++ s :: ts))

/-- Siblings are comments, or comments come before one that is none. -/
theorem exists_comments (ts : List Tree) : AreComments ts ∨ ∃ gap t us,
    AreComments gap ∧ t.isComment = false ∧ ts = gap ++ t :: us := by
  induction ts with
  | nil => exact .inl nofun
  | cons t ts ih =>
    cases ht : t.isComment with
    | false => exact .inr ⟨[], t, ts, nofun, ht, rfl⟩
    | true =>
      rcases ih with hall | ⟨gap, u, us, hgap, hu, rfl⟩
      · exact .inl (List.forall_mem_cons.mpr ⟨ht, hall⟩)
      · exact .inr ⟨t :: gap, u, us, List.forall_mem_cons.mpr ⟨ht, hgap⟩, hu, rfl⟩

theorem significant_append (hgap : AreComments gap) (ht : t.isComment = false) (ts : List Tree) :
    significant (gap ++ t :: ts) = t :: significant ts := by
  rw [significant_comments hgap, significant, List.filter_cons_of_pos (by rw [ht]; rfl)]
  rfl

/-- What follows a specifier in a list are comments only, or a comma that may be the last, or a
comma and a specifier. By recursion on the siblings, with the comments between them cut off. -/
theorem tail_of_takeTurns : ∀ {ts : List Tree}, TakeTurns false (significant ts) → Tail ts
  | ts, h => by
    rcases exists_comments ts with hall | ⟨gap, c, us, hgap, hcomment, rfl⟩
    · exact .done hall
    · rw [significant_append hgap hcomment] at h
      obtain ⟨hc, h⟩ := h
      rcases exists_comments us with hall | ⟨lead, s, more, hlead, hcomment', rfl⟩
      · exact .comma hgap hc hall
      · rw [significant_append hlead hcomment'] at h
        exact .next hgap hc hlead h.1 (tail_of_takeTurns h.2)
  termination_by ts => ts.length

/-! ## When a list is left -/

/-- What is left of a comma and a specifier behind it: the comma unless one of its neighbours takes
it, the specifier unless it is of a type, and what is left behind. -/
theorem rest_next (hgap : AreComments gap) (hc : isComma c = true) (hlead : AreComments lead)
    (hs : isSpecifier s = true) (marked : Bool) (ts : List Tree) :
    rest marked (gap ++ c :: (lead ++ s :: ts))
      = (if gap.isEmpty && marked || lead.isEmpty && (isTypeSpecifier s && !commaFirst ts)
          then [] else [c])
        ++ ((if isTypeSpecifier s then [] else [s]) ++ rest (isTypeSpecifier s) ts) := by
  rw [rest_comments hgap, rest_comma hc, takesBack_append hlead, rest_comments hlead,
    rest_specifier hs]

theorem commaLast_specifier (hs : isSpecifier s = true) (pre more : List Tree) :
    commaLast (pre ++ s :: more) = commaLast more := by
  induction more using List.reverseRecOn with
  | nil => rw [commaLast_concat, not_isComma_of_isSpecifier hs, commaLast, List.getLast?_nil]; rfl
  | append_singleton more t =>
    rw [← List.cons_append, ← List.append_assoc, commaLast_concat, commaLast_concat]

theorem not_isSpecifier_between (hgap : AreComments gap) (hc : isComma c = true)
    (hlead : AreComments lead) : ∀ t ∈ gap ++ c :: lead, isSpecifier t = false :=
  List.forall_mem_append.mpr ⟨hgap.not_isSpecifier,
    List.forall_mem_cons.mpr ⟨not_isSpecifier_of_isComma hc, hlead.not_isSpecifier⟩⟩

/-- What is asked of the siblings behind a specifier, one specifier further on. -/
theorem separableAfter_specifier {cs : List Tree} (hcs : ∀ c ∈ cs, isSpecifier c = false)
    (hs : isSpecifier s = true) (before ts : List Tree) :
    SeparableAfter before (cs ++ s :: ts)
      ↔ (isTypeSpecifier s = true → ¬FindsComma (before ++ cs) ts → AllTakeBack ts)
        ∧ SeparableAfter (before ++ (cs ++ [s])) ts := by
  rw [SeparableAfter, atSpecifiers_append hcs, atSpecifiers_cons hs, SeparableAfter]
  simp only [List.append_nil, List.append_assoc, List.cons_append, List.nil_append]

/-- All specifiers take back if the next one does and all others do. -/
theorem allTakeBack_next (hgap : AreComments gap) (hc : isComma c = true)
    (hlead : AreComments lead) (hs : isSpecifier s = true) (ts : List Tree) :
    AllTakeBack (gap ++ c :: (lead ++ s :: ts))
      ↔ (isTypeSpecifier s = true ∧ lead.isEmpty = true ∧ commaFirst ts = false)
        ∧ AllTakeBack ts := by
  have hsplit : gap ++ c :: (lead ++ s :: ts) = (gap ++ c :: lead) ++ s :: ts := by simp
  have hlast : commaLast (gap ++ c :: lead) = lead.isEmpty := by
    rw [← List.singleton_append, ← List.append_assoc, commaLast_append hlead, commaLast_concat, hc,
      Bool.and_true]
  have hsignificant : significant (gap ++ c :: (lead ++ s :: ts)) = [c] ++ s :: significant ts := by
    rw [significant_append hgap (not_isComment_of_isComma hc),
      significant_append hlead (not_isComment_of_isSpecifier hs)]
    rfl
  rw [AllTakeBack, hsignificant, commaLast_specifier hs, hsplit,
    atSpecifiers_append (not_isSpecifier_between hgap hc hlead), atSpecifiers_cons hs]
  simp only [List.append_nil, hlast, commaLast_specifier hs, AllTakeBack, and_assoc]

/-- Where all specifiers take back, none is left without a comma. -/
theorem separableAfter_of_allTakeBack (h : Tail ts) : ∀ before, commaFirst ts = false →
    AllTakeBack ts → SeparableAfter before ts := by
  induction h with
  | done hall =>
    intro before _ _
    exact atSpecifiers_none hall.not_isSpecifier
  | comma hgap hc htrail =>
    intro before _ _
    exact atSpecifiers_none (not_isSpecifier_between hgap hc htrail)
  | @next gap lead ts c s hgap hc hlead hs _ ih =>
    intro before hfirst hback
    rw [commaFirst_append_comma hgap hc] at hfirst
    obtain ⟨⟨-, hdirect, hlater⟩, hrest⟩ := (allTakeBack_next hgap hc hlead hs ts).mp hback
    have hsplit : gap ++ c :: (lead ++ s :: ts) = (gap ++ c :: lead) ++ s :: ts := by simp
    rw [hsplit, separableAfter_specifier (not_isSpecifier_between hgap hc hlead) hs]
    refine ⟨fun _ hnot => absurd ?_ hnot, ih _ hlater hrest⟩
    -- no comma comes first, so the specifier takes the one before it
    rw [findsComma_iff hgap hc hlead, hfirst]
    exact .inr ⟨hdirect, rfl⟩

theorem rest_of_comments (h : AreComments ts) (marked : Bool) : rest marked ts = [] := by
  have hrest := rest_comments h marked []
  rwa [List.append_nil] at hrest

/-- What is left of a comma that is the last: it stays unless a specifier right before takes it
along. -/
theorem rest_last (hgap : AreComments gap) (hc : isComma c = true) (htrail : AreComments trail)
    (marked : Bool) :
    rest marked (gap ++ c :: trail) = if gap.isEmpty && marked then [] else [c] := by
  rw [rest_comments hgap, rest_comma hc, takesBack_comments htrail, rest_of_comments htrail,
    List.append_nil, Bool.or_false]

theorem takeTurns_nil (b : Bool) : TakeTurns b [] := by
  cases b <;> trivial

theorem not_takeTurns_comma (hc : isComma c = true) (ts : List Tree) :
    ¬TakeTurns true (c :: ts) := by
  rw [TakeTurns, not_isSpecifier_of_isComma hc]
  exact fun h => Bool.false_ne_true h.1

/-- After a specifier that is gone with no comma, the rest is a list exactly when all specifiers in
it are gone with the commas right before them. -/
theorem takeTurns_iff_allTakeBack (h : Tail ts) (hfirst : commaFirst ts = false) :
    TakeTurns true (rest true ts) ↔ AllTakeBack ts := by
  induction h with
  | done hall =>
    rw [rest_of_comments hall]
    have hnone := significant_comments hall []
    rw [List.append_nil] at hnone
    refine iff_of_true (takeTurns_nil true) ⟨atSpecifiers_none hall.not_isSpecifier, ?_⟩
    rw [hnone]
    rfl
  | @comma gap trail c hgap hc htrail =>
    have hnone := significant_comments htrail []
    rw [List.append_nil] at hnone
    rw [commaFirst_append_comma hgap hc] at hfirst
    rw [rest_last hgap hc htrail, hfirst]
    refine iff_of_false (not_takeTurns_comma hc []) fun h => ?_
    have hlast := h.2
    rw [significant_append hgap (not_isComment_of_isComma hc), hnone] at hlast
    exact Bool.false_ne_true (hlast.symm.trans hc)
  | @next gap lead ts c s hgap hc hlead hs _ ih =>
    rw [commaFirst_append_comma hgap hc] at hfirst
    rw [rest_next hgap hc hlead hs, allTakeBack_next hgap hc hlead hs, hfirst]
    -- the comma has to go, and only a specifier of types can take it back
    by_cases hback : (lead.isEmpty && (isTypeSpecifier s && !commaFirst ts)) = true
    · rw [hback]
      simp only [Bool.and_eq_true, Bool.not_eq_true'] at hback
      obtain ⟨hlead, hmarked, hlater⟩ := hback
      rw [Bool.or_true, if_pos rfl, hmarked, if_pos rfl, List.nil_append, List.nil_append,
        ih hlater]
      exact (and_iff_right ⟨rfl, hlead, hlater⟩).symm
    · rw [Bool.not_eq_true] at hback
      rw [hback, if_neg (by simp)]
      refine iff_of_false (not_takeTurns_comma hc _) ?_
      rintro ⟨⟨hmarked, hlead, hlater⟩, -⟩
      rw [hlead, hmarked, hlater] at hback
      cases hback

/-- What is left after a specifier, where the comma after it stays or is taken back, and where the
specifier takes it along. -/
structure LeavesListing (ts : List Tree) : Prop where
  stays : ∀ before, (commaFirst ts && markedLast before) = false →
    (TakeTurns false (rest (markedLast before) ts) ↔ SeparableAfter before ts)
  taken : ∀ before, commaFirst ts = true → markedLast before = true →
    (TakeTurns true (rest true ts) ↔ SeparableAfter before ts)

/-- From a specifier on, where no comma before it is left. -/
theorem takeTurns_specifier (h : Tail ts) (ih : LeavesListing ts) (hs : isSpecifier s = true)
    {cs : List Tree} (hcs : ∀ c ∈ cs, isSpecifier c = false)
    (hfind : isTypeSpecifier s = true → (FindsComma (before ++ cs) ts ↔ commaFirst ts = true)) :
    TakeTurns true ((if isTypeSpecifier s then [] else [s]) ++ rest (isTypeSpecifier s) ts)
      ↔ SeparableAfter before (cs ++ s :: ts) := by
  have hlast : markedLast (before ++ (cs ++ [s])) = isTypeSpecifier s := by
    rw [← List.append_assoc, markedLast_concat]
  rw [separableAfter_specifier hcs hs]
  cases hmarked : isTypeSpecifier s with
  -- a specifier that is not of a type stays, and begins the list that is left
  | false =>
    rw [hmarked] at hlast
    have hrest := ih.stays (before ++ (cs ++ [s])) (by rw [hlast, Bool.and_false])
    rw [hlast] at hrest
    rw [← hrest]
    simp [TakeTurns, hs]
  -- one of a type goes with the comma behind it, or all later ones have to take theirs back
  | true =>
    rw [hmarked] at hlast
    rw [if_pos rfl, List.nil_append, hfind hmarked]
    cases hfirst : commaFirst ts with
    | true =>
      rw [ih.taken _ hfirst hlast]
      simp
    | false =>
      rw [takeTurns_iff_allTakeBack h hfirst]
      constructor
      · intro hback
        exact ⟨fun _ _ => hback, separableAfter_of_allTakeBack h _ hfirst hback⟩
      · intro hboth
        exact hboth.1 rfl Bool.false_ne_true

/-- A comma that is left, or that the specifier behind it takes back. -/
theorem LeavesListing.next_stays (ih : LeavesListing ts) (htail : Tail ts) (hgap : AreComments gap)
    (hc : isComma c = true) (hlead : AreComments lead) (hs : isSpecifier s = true)
    (hstays : (gap.isEmpty && markedLast before) = false) :
    TakeTurns false (rest (markedLast before) (gap ++ c :: (lead ++ s :: ts)))
      ↔ SeparableAfter before (gap ++ c :: (lead ++ s :: ts)) := by
  have hbetween := not_isSpecifier_between hgap hc hlead
  have hsplit : gap ++ c :: (lead ++ s :: ts) = (gap ++ c :: lead) ++ s :: ts := by simp
  have hfind := findsComma_iff hgap hc hlead before ts
  rw [hstays] at hfind
  rw [rest_next hgap hc hlead hs, hstays, Bool.false_or]
  by_cases hback : (lead.isEmpty && (isTypeSpecifier s && !commaFirst ts)) = true
  · -- the specifier takes the comma back
    rw [if_pos hback]
    simp only [Bool.and_eq_true, Bool.not_eq_true'] at hback
    obtain ⟨hdirect, hmarked, hlater⟩ := hback
    have hlast : markedLast (before ++ (gap ++ c :: lead ++ [s])) = true := by
      rw [← List.append_assoc, markedLast_concat, hmarked]
    have hrest := ih.stays (before ++ (gap ++ c :: lead ++ [s]))
      (by rw [hlater, Bool.false_and])
    rw [hlast] at hrest
    rw [hmarked, if_pos rfl, List.nil_append, List.nil_append, hrest, hsplit,
      separableAfter_specifier hbetween hs]
    exact (and_iff_right fun _ hnot => absurd (hfind.mpr (.inr ⟨hdirect, rfl⟩)) hnot).symm
  · -- the comma is left, and what follows starts anew
    rw [if_neg hback, List.singleton_append, TakeTurns, hsplit]
    refine (and_iff_right hc).trans (takeTurns_specifier htail ih hs hbetween fun hmarked => ?_)
    rw [hmarked, Bool.true_and, Bool.and_eq_true, Bool.not_eq_true', not_and,
      Bool.not_eq_false] at hback
    rw [hfind]
    constructor
    · rintro (hfirst | ⟨hdirect, -⟩)
      · exact hfirst
      · exact hback hdirect
    · exact .inl

/-- A comma that the specifier before it takes along. -/
theorem LeavesListing.next_taken (ih : LeavesListing ts) (htail : Tail ts) (hgap : AreComments gap)
    (hc : isComma c = true) (hlead : AreComments lead) (hs : isSpecifier s = true)
    (hdirect : gap.isEmpty = true) (hmarkedLast : markedLast before = true) :
    TakeTurns true (rest true (gap ++ c :: (lead ++ s :: ts)))
      ↔ SeparableAfter before (gap ++ c :: (lead ++ s :: ts)) := by
  have hsplit : gap ++ c :: (lead ++ s :: ts) = (gap ++ c :: lead) ++ s :: ts := by simp
  rw [rest_next hgap hc hlead hs, hdirect, Bool.true_and, Bool.true_or, if_pos rfl,
    List.nil_append, hsplit]
  refine takeTurns_specifier htail ih hs (not_isSpecifier_between hgap hc hlead) fun _ => ?_
  rw [findsComma_iff hgap hc hlead, hdirect, hmarkedLast]
  simp

/-- **What is left after a specifier.** Induction on what follows it, and for each comma the ways in
which it may go. -/
theorem leavesListing (h : Tail ts) : LeavesListing ts := by
  induction h with
  | done hall =>
    have hseparable : ∀ before, SeparableAfter before _ := fun before =>
      atSpecifiers_none hall.not_isSpecifier
    -- nothing but comments: nothing is left
    constructor
    · intro before _
      rw [rest_of_comments hall]
      exact iff_of_true (takeTurns_nil false) (hseparable before)
    · intro before _ _
      rw [rest_of_comments hall]
      exact iff_of_true (takeTurns_nil true) (hseparable before)
  | @comma gap trail c hgap hc htrail =>
    have hseparable : ∀ before, SeparableAfter before (gap ++ c :: trail) := fun before =>
      atSpecifiers_none (not_isSpecifier_between hgap hc htrail)
    -- a comma at the end is left, unless a specifier of a type stands right before it
    constructor
    · intro before hstays
      rw [commaFirst_append_comma hgap hc] at hstays
      rw [rest_last hgap hc htrail, hstays]
      exact iff_of_true ⟨hc, trivial⟩ (hseparable before)
    · intro before hfirst _
      rw [commaFirst_append_comma hgap hc] at hfirst
      rw [rest_last hgap hc htrail, hfirst]
      exact iff_of_true trivial (hseparable before)
  | @next gap lead ts c s hgap hc hlead hs htail ih =>
    -- a comma and a specifier: whether the comma stays decides on which lemma carries the step
    constructor
    · intro before hstays
      rw [commaFirst_append_comma hgap hc] at hstays
      exact ih.next_stays htail hgap hc hlead hs hstays
    · intro before hfirst hmarkedLast
      rw [commaFirst_append_comma hgap hc] at hfirst
      exact ih.next_taken htail hgap hc hlead hs hfirst hmarkedLast

/-- **When a list is left.** -/
theorem isListing_left_iff (h : IsListing ts) : IsListing (leftAfter false ts) ↔ Separable ts := by
  show TakeTurns true (rest false ts) ↔ _
  rcases exists_comments ts with hall | ⟨lead, s, us, hlead, hcomment, rfl⟩
  · rw [rest_of_comments hall]
    exact iff_of_true (takeTurns_nil true) (atSpecifiers_none hall.not_isSpecifier)
  · rw [IsListing, significant_append hlead hcomment] at h
    obtain ⟨hs, h⟩ := h
    have htail := tail_of_takeTurns h
    rw [rest_comments hlead, rest_specifier hs]
    refine takeTurns_specifier htail (leavesListing htail) hs hlead.not_isSpecifier fun _ => ?_
    have hnone : commaLast lead = false := (commaLast_append hlead []).trans (Bool.and_false _)
    rw [FindsComma, List.nil_append, hnone]
    simp

/-- What follows a specifier in a list begins with a comma, if anything follows. -/
theorem takeTurns_after {b : Bool} (hs : isSpecifier s = true) :
    ∀ {us : List Tree}, TakeTurns b (us ++ s :: ts) → TakeTurns false ts := by
  intro us h
  induction us generalizing b with
  | nil =>
    cases b with
    | true => exact h.2
    | false => exact absurd h.1 (by rw [not_isComma_of_isSpecifier hs]; exact Bool.false_ne_true)
  | cons t us ih =>
    cases b with
    | true => exact ih h.2
    | false => exact ih h.2

/-- Siblings can do without their specifiers of types if no comment stands between one of these and
the comma after it. -/
theorem separable_of_direct (h : IsListing ts)
    (hdirect : AtSpecifiers (fun _ s post => isTypeSpecifier s = true →
      commaFirst (significant post) = true → commaFirst post = true) ts) : Separable ts := by
  rintro pre s post rfl hs hmarked hnone
  rw [FindsComma, not_or, Bool.not_eq_true] at hnone
  have hturns : TakeTurns false (significant post) := by
    rw [IsListing, significant, List.filter_append,
      List.filter_cons_of_pos (by rw [not_isComment_of_isSpecifier hs]; rfl)] at h
    exact takeTurns_after hs h
  rcases exists_comments post with hall | ⟨gap, c, us, hgap, hcomment, rfl⟩
  · -- nothing comes after the specifier
    have hempty := significant_comments hall []
    rw [List.append_nil] at hempty
    refine ⟨atSpecifiers_none hall.not_isSpecifier, ?_⟩
    rw [hempty]
    rfl
  · rw [significant_append hgap hcomment] at hturns
    have hcomma : commaFirst (significant (gap ++ c :: us)) = true := by
      rw [significant_append hgap hcomment]
      exact hturns.1
    have hfirst := hdirect pre s _ rfl hs hmarked hcomma
    -- there is a comma behind the specifier after all
    rw [hnone.1] at hfirst
    cases hfirst

/-- The specifiers that are left are those that are not of types. -/
theorem specifiers_leftAfter (marked : Bool) (ts : List Tree) :
    (leftAfter marked ts).filter isSpecifier
      = (ts.filter isSpecifier).filter fun t => !isTypeSpecifier t := by
  induction ts generalizing marked with
  | nil => rfl
  | cons t ts ih =>
    rw [leftAfter]
    cases hs : isSpecifier t with
    | false =>
      rw [List.filter_cons_of_neg (Bool.eq_false_iff.mp hs), ← ih (isTypeSpecifier t)]
      split
      · rfl
      · exact List.filter_cons_of_neg (Bool.eq_false_iff.mp hs)
    | true =>
      -- a specifier is no comma, so it goes for its own sake or stays
      have hgoes : goes marked t ts = isTypeSpecifier t := by
        rw [goes, not_isComma_of_isSpecifier hs, Bool.false_and, Bool.or_false]
      rw [hgoes, List.filter_cons_of_pos hs]
      cases hmarked : isTypeSpecifier t with
      | true => simp [hmarked, ih]
      | false => simp [hmarked, hs, ih]

end OptionTypes.Syntax.TypeLayer
