import Mathlib.Data.List.Chain
import OptionTypes.Text.CodePoint

/-!
# The end mark of a comment

A comment ends at the first `*/`. A text *keeps open* if it holds no such mark, and a whole
comment *closes at its end* if the mark stands there and nowhere before.

Both are questions about neighbours: a text keeps open as long as no `*` stands right before a `/`.
So a text put together from pieces keeps open when its pieces do and no seam brings the two
together.

* `Text.keepsOpen_iff` ties the neighbours to the mark.
* `Text.keepsOpen_join` and `Text.keepsOpen_flatMap` are the two ways of putting texts together.
* `Text.closesAtEnd_append_iff` reduces the end of a comment to what stands before it.
-/

namespace OptionTypes.Text

/-- The mark at which a comment ends. -/
def endMark : Text := "*/"

/-- Whether a text stands in another at an offset. -/
def OccursAt (s t : Text) (i : Nat) : Prop := s <+: t.drop i

/-- Whether the end mark stands in a text once, as its last two code points. -/
def ClosesAtEnd (t : Text) : Prop := ∀ i, OccursAt endMark t i ↔ i + 2 = t.length

/-- Whether two neighbours are those of the end mark. -/
def Closing (a b : CodePoint) : Prop := a = .char '*' ∧ b = .char '/'

/-- Whether no two neighbours in a text are those of the end mark. -/
def KeepsOpen (t : Text) : Prop := t.IsChain fun a b => ¬Closing a b

/-- Whether neither half of the end mark is in a text. -/
def Unrelated (t : Text) : Prop := ∀ c ∈ t, c ≠ .char '*' ∧ c ≠ .char '/'

instance (a b : CodePoint) : Decidable (Closing a b) :=
  inferInstanceAs (Decidable (_ ∧ _))

instance (t : Text) : Decidable (KeepsOpen t) :=
  inferInstanceAs (Decidable (List.IsChain _ t))

instance (t : Text) : Decidable (Unrelated t) :=
  inferInstanceAs (Decidable (∀ c ∈ t, _))

theorem endMark_eq : endMark = [.char '*', .char '/'] := rfl

/-! ## Keeping open -/

@[simp] theorem keepsOpen_nil : KeepsOpen [] := List.IsChain.nil

@[simp] theorem keepsOpen_singleton (c : CodePoint) : KeepsOpen [c] := List.IsChain.singleton c

/-- A text keeps open exactly when the end mark is nowhere in it. -/
theorem keepsOpen_iff {t : Text} : KeepsOpen t ↔ ¬endMark <:+: t := by
  rw [KeepsOpen, List.isChain_iff_forall_rel_of_append_cons_cons]
  constructor
  · rintro h ⟨before, after, rfl⟩
    have hsplit : before ++ endMark ++ after = before ++ .char '*' :: .char '/' :: after := by
      simp [endMark_eq]
    exact h hsplit ⟨rfl, rfl⟩
  · rintro h a b before after rfl ⟨rfl, rfl⟩
    exact h ⟨before, after, by simp [endMark_eq]⟩

/-- Two texts keep open together if each does and the mark is not where they meet. -/
theorem keepsOpen_append {s t : Text} :
    KeepsOpen (s ++ t) ↔
      KeepsOpen s ∧ KeepsOpen t ∧ ∀ a ∈ s.getLast?, ∀ b ∈ t.head?, ¬Closing a b :=
  List.isChain_append

/-- A part of a text that keeps open does so too. -/
theorem KeepsOpen.of_isInfix {s t : Text} (h : KeepsOpen t) (hs : s <:+: t) : KeepsOpen s :=
  List.IsChain.infix h hs

/-- A code point that is not the first half of the mark may stand before any text. -/
theorem keepsOpen_cons {c : CodePoint} {t : Text} (hc : c ≠ .char '*') :
    KeepsOpen (c :: t) ↔ KeepsOpen t := by
  rw [KeepsOpen, List.isChain_cons]
  constructor
  · intro h
    exact h.2
  · intro h
    exact ⟨fun _ _ hclose => hc hclose.1, h⟩

/-- A code point that is not the second half of the mark may stand behind any text. -/
theorem keepsOpen_concat {c : CodePoint} {t : Text} (hc : c ≠ .char '/') :
    KeepsOpen (t ++ [c]) ↔ KeepsOpen t := by
  rw [keepsOpen_append]
  constructor
  · intro h
    exact h.1
  · intro h
    refine ⟨h, keepsOpen_singleton c, ?_⟩
    intro a _ b hb hclose
    have hbc : c = b := by simpa using hb
    exact hc (hbc.trans hclose.2)

/-- A code point of neither half of the mark separates what stands around it. -/
theorem keepsOpen_append_cons {c : CodePoint} {s t : Text} (hstar : c ≠ .char '*')
    (hslash : c ≠ .char '/') : KeepsOpen (s ++ c :: t) ↔ KeepsOpen s ∧ KeepsOpen t := by
  rw [List.append_cons, keepsOpen_append, keepsOpen_concat hslash]
  constructor
  · intro h
    exact ⟨h.1, h.2.1⟩
  · intro h
    refine ⟨h.1, h.2, ?_⟩
    intro a ha b _ hclose
    have hac : c = a := by simpa using ha
    exact hstar (hac.trans hclose.1)

/-- A text with neither half of the mark keeps open. -/
theorem Unrelated.keepsOpen {t : Text} (h : Unrelated t) : KeepsOpen t := by
  rw [keepsOpen_iff]
  intro hmark
  have hstar : CodePoint.char '*' ∈ t := hmark.subset (by simp [endMark_eq])
  exact (h _ hstar).1 rfl

theorem unrelated_append {s t : Text} : Unrelated (s ++ t) ↔ Unrelated s ∧ Unrelated t :=
  List.forall_mem_append

/-- Where there are no texts to look at, keeping open is all there is to show. -/
theorem KeepsOpen.iff_nil {t : Text} (h : KeepsOpen t) :
    KeepsOpen t ↔ ∀ u ∈ ([] : List Text), KeepsOpen u := by
  simp [h]

/-- Texts with a separator of neither half between them keep open exactly when each of them does. -/
theorem keepsOpen_join {c : CodePoint} (hstar : c ≠ .char '*') (hslash : c ≠ .char '/') :
    ∀ parts : List Text, KeepsOpen (join [c] parts) ↔ ∀ t ∈ parts, KeepsOpen t
  | [] => by simp [join]
  | [t] => by simp [join]
  | t :: u :: rest => by
    have ih := keepsOpen_join hstar hslash (u :: rest)
    have hjoin : join [c] (t :: u :: rest) = t ++ c :: join [c] (u :: rest) := by
      simp [join]
    rw [hjoin, keepsOpen_append_cons hstar hslash, ih]
    simp only [List.mem_cons, forall_eq_or_imp]

/-- Whether a spelling of a code point shows a half of the end mark exactly where the code point is
that half. -/
structure Faithful (c : CodePoint) (spelling : Text) : Prop where
  nonempty : spelling ≠ []
  keepsOpen : KeepsOpen spelling
  last_iff : spelling.getLast? = some (.char '*') ↔ c = .char '*'
  head_iff : spelling.head? = some (.char '/') ↔ c = .char '/'

theorem Faithful.refl (c : CodePoint) : Faithful c [c] :=
  ⟨by simp, keepsOpen_singleton c, by simp, by simp⟩

/-- A spelling with neither half of the mark is a faithful one of any other code point. -/
theorem Faithful.of_unrelated {c : CodePoint} {t : Text} (hne : t ≠ []) (ht : Unrelated t)
    (hstar : c ≠ .char '*') (hslash : c ≠ .char '/') : Faithful c t where
  nonempty := hne
  keepsOpen := ht.keepsOpen
  last_iff := by
    constructor
    · intro h
      exact absurd rfl (ht _ (List.mem_of_getLast? h)).1
    · intro h
      exact absurd h hstar
  head_iff := by
    constructor
    · intro h
      exact absurd rfl (ht _ (List.mem_of_head? h)).2
    · intro h
      exact absurd h hslash

/-- A text spelled faithfully code point by code point keeps open exactly when it did before. -/
theorem keepsOpen_flatMap {f : CodePoint → Text} (hf : ∀ c, Faithful c (f c)) (t : Text) :
    KeepsOpen (t.flatMap f) ↔ KeepsOpen t := by
  have hne : [] ∉ t.map f := by
    simp only [List.mem_map, not_exists, not_and]
    intro c _
    exact (hf c).nonempty
  -- a seam between two spellings closes exactly where the code points themselves do
  have hseam : ∀ a b, (∀ x ∈ (f a).getLast?, ∀ y ∈ (f b).head?, ¬Closing x y) ↔ ¬Closing a b := by
    intro a b
    constructor
    · rintro h ⟨rfl, rfl⟩
      exact h _ ((hf _).last_iff.mpr rfl) _ ((hf _).head_iff.mpr rfl) ⟨rfl, rfl⟩
    · rintro h x hx y hy ⟨rfl, rfl⟩
      exact h ⟨(hf a).last_iff.mp hx, (hf b).head_iff.mp hy⟩
  rw [List.flatMap_def, KeepsOpen, List.isChain_flatten hne, List.isChain_map]
  simp only [hseam]
  constructor
  · intro h
    exact h.2
  · intro h
    refine ⟨?_, h⟩
    intro s hs
    obtain ⟨c, _, rfl⟩ := List.mem_map.mp hs
    exact (hf c).keepsOpen

/-! ## Closing at the end -/

/-- Short of the end, the mark lies in the whole without its last code point. -/
theorem infix_of_occursAt {t : Text} {i : Nat} (h : OccursAt endMark (t ++ endMark) i)
    (hi : i ≠ t.length) : endMark <:+: t ++ [.char '*'] := by
  have hsplit : t ++ endMark = (t ++ [.char '*']) ++ [.char '/'] := by simp [endMark_eq]
  obtain ⟨after, hafter⟩ := h
  have hne : after ≠ [] := by
    rintro rfl
    have hroom := congrArg List.length hafter
    simp [endMark_eq] at hroom
    omega
  have hwhole : (t ++ endMark).take i ++ (endMark ++ after) = t ++ endMark := by
    rw [hafter, List.take_append_drop]
  have hlast := congrArg List.dropLast hwhole
  rw [hsplit, List.dropLast_concat, ← List.append_assoc, List.dropLast_append_of_ne_nil hne,
    ← hsplit] at hlast
  exact ⟨(t ++ endMark).take i, after.dropLast, hlast⟩

/-- A text in front of the end mark lets it close the whole exactly when the mark is not there
before, its first half included that the text may be followed by. -/
theorem closesAtEnd_append_iff {t : Text} :
    ClosesAtEnd (t ++ endMark) ↔ KeepsOpen (t ++ [.char '*']) := by
  have hlen : (t ++ endMark).length = t.length + 2 := by simp [endMark_eq]
  have hend : OccursAt endMark (t ++ endMark) t.length := by
    simp [OccursAt]
  have hsplit : t ++ endMark = (t ++ [.char '*']) ++ [.char '/'] := by simp [endMark_eq]
  constructor
  · intro h
    rw [keepsOpen_iff]
    rintro ⟨before, after, hmark⟩
    -- an earlier mark is found where the text before it ends
    have hat : OccursAt endMark (t ++ endMark) before.length := by
      rw [OccursAt, hsplit, ← hmark]
      simp [endMark_eq]
    have hpos := (h before.length).mp hat
    have hshort := congrArg List.length hmark
    simp [endMark_eq] at hshort
    omega
  · intro h i
    rw [hlen]
    constructor
    · intro hi
      by_contra hne
      exact keepsOpen_iff.mp h (infix_of_occursAt hi fun hlast => hne (by omega))
    · intro hi
      obtain rfl : i = t.length := by omega
      exact hend

end OptionTypes.Text
