import Mathlib.Data.List.DropRight
import OptionTypes.Text.Blank

/-!
# Lines of a text

A text without line feeds is one line. A text that ends each of its lines with a line feed is split
into them again, and dropping the blanks at the end of a line takes nothing else away.

* `Text.OneLine` says that a text is one line, or a part of one.
* `Text.mem_replace`: a replacement brings in what takes the place, and nothing else.
* `Text.lines_flatMap`: splitting a text undoes ending lines one by one.
* `Blank.trimEnd_append`: blanks are dropped at the end only.
-/

namespace OptionTypes

namespace Text

/-! ## Texts in one line -/

/-- Whether no line ends within a text. -/
def OneLine (t : Text) : Prop := .char '\n' ∉ t

instance (t : Text) : Decidable (OneLine t) := inferInstanceAs (Decidable (¬_))

theorem oneLine_nil : OneLine [] := List.not_mem_nil

theorem oneLine_append {s t : Text} : OneLine (s ++ t) ↔ OneLine s ∧ OneLine t := by
  rw [OneLine, List.mem_append, not_or]
  rfl

theorem oneLine_cons {c : CodePoint} {t : Text} :
    OneLine (c :: t) ↔ c ≠ .char '\n' ∧ OneLine t := by
  rw [OneLine, List.mem_cons, not_or, ne_comm]
  rfl

theorem OneLine.subset {s t : Text} (h : OneLine t) (hsub : s ⊆ t) : OneLine s :=
  fun hmem => h (hsub hmem)

theorem oneLine_flatMap {α : Type} {f : α → Text} {l : List α} :
    OneLine (l.flatMap f) ↔ ∀ a ∈ l, OneLine (f a) := by
  simp only [OneLine, List.mem_flatMap, not_exists, not_and]

/-- Texts joined are one line if they and what stands between them are. -/
theorem oneLine_join {sep : Text} (hsep : OneLine sep) :
    ∀ {parts : List Text}, (∀ t ∈ parts, OneLine t) → OneLine (join sep parts)
  | [], _ => oneLine_nil
  | [t], h => h t (List.mem_singleton_self t)
  | t :: u :: rest, h => by
    have ih : OneLine (join sep (u :: rest)) :=
      oneLine_join hsep fun v hv => h v (List.mem_cons_of_mem t hv)
    exact oneLine_append.mpr ⟨oneLine_append.mpr ⟨h t List.mem_cons_self, hsep⟩, ih⟩

/-- What is in a text after a replacement was in it before, or is in what takes the place. -/
theorem mem_replace {old new t : Text} {c : CodePoint} (h : c ∈ replace old new t) :
    c ∈ new ∨ c ∈ t := by
  have hgo : ∀ n, c ∈ replace.go old new n t → c ∈ new ∨ c ∈ t := by
    clear h
    induction t with
    | nil => simp [replace.go]
    | cons d t ih =>
      -- `n` characters of a match that was replaced are still to be skipped
      intro n hmem
      have hlater : ∀ n, c ∈ replace.go old new n t → c ∈ new ∨ c ∈ d :: t :=
        fun n hmem => (ih n hmem).imp_right (List.mem_cons_of_mem d)
      cases n with
      | succ n => exact hlater n hmem
      | zero =>
        rw [replace.go] at hmem
        split at hmem
        · exact (List.mem_append.mp hmem).elim .inl (hlater _)
        · rcases List.mem_cons.mp hmem with rfl | hmem
          · exact .inr List.mem_cons_self
          · exact hlater 0 hmem
  exact hgo 0 h

/-- What takes the place of texts is one line if everything in it is. -/
theorem OneLine.replace {old new t : Text} (hnew : OneLine new) (h : OneLine t) :
    OneLine (replace old new t) :=
  fun hmem => (mem_replace hmem).elim hnew h

/-! ## Splitting a text into lines -/

/-- The lines of a text; what follows the last line feed is the last line. -/
def lines (t : Text) : List Text := splitOn (.char '\n') t

theorem lines_append {t : Text} (h : OneLine t) (rest : Text) :
    lines (t ++ .char '\n' :: rest) = t :: lines rest := by
  induction t with
  | nil => rw [List.nil_append, lines, splitOn, if_pos rfl]; rfl
  | cons c t ih =>
    obtain ⟨hc, ht⟩ := oneLine_cons.mp h
    have hrest := ih ht
    rw [lines] at hrest ⊢
    rw [List.cons_append, splitOn, if_neg hc, hrest]

/-- Lines that are ended one by one are the lines of the text. -/
theorem lines_flatMap {ls : List Text} (h : ∀ l ∈ ls, OneLine l) (rest : Text) :
    lines ((ls.flatMap (· ++ [.char '\n'])) ++ rest) = ls ++ lines rest := by
  induction ls with
  | nil => rfl
  | cons l ls ih =>
    obtain ⟨hl, hls⟩ := List.forall_mem_cons.mp h
    rw [List.flatMap_cons, List.append_assoc, List.append_assoc, List.singleton_append,
      lines_append hl, ih hls, List.cons_append]

end Text

namespace Blank

/-! ## Blanks at the end of a line -/

theorem trimEnd_eq_rdropWhile (t : Text) : trimEnd t = t.rdropWhile isBlank := rfl

theorem trimEnd_isPrefix (t : Text) : trimEnd t <+: t := List.rdropWhile_prefix isBlank t

/-- Only blanks are dropped. -/
theorem mem_trimEnd {t : Text} {c : CodePoint} (h : c ∈ t) (hc : isBlank c = false) :
    c ∈ trimEnd t := by
  rw [trimEnd_eq_rdropWhile]
  by_contra hnot
  have hsplit := List.rdropWhile_append_rtakeWhile (p := isBlank) (l := t)
  rw [← hsplit, List.mem_append] at h
  have hblank := List.mem_rtakeWhile_imp (h.resolve_left hnot)
  rw [hc] at hblank
  cases hblank

/-- What precedes a code point that is not blank stays. -/
theorem trimEnd_append {t : Text} {c : CodePoint} (h : c ∈ t) (hc : isBlank c = false)
    (s : Text) : trimEnd (s ++ t) = s ++ trimEnd t := by
  have hne : (t.reverse.dropWhile isBlank).isEmpty = false := by
    rw [List.isEmpty_eq_false_iff, ne_eq, List.dropWhile_eq_nil_iff]
    intro hall
    have hblank := hall c (List.mem_reverse.mpr h)
    rw [hc] at hblank
    cases hblank
  rw [trimEnd, trimEnd, Text.dropEndWhile, Text.dropEndWhile, List.reverse_append,
    List.dropWhile_append, hne]
  simp

/-- A text that ends with no blank stays. -/
theorem trimEnd_eq_self {t : Text} (h : ∀ c ∈ t.getLast?, isBlank c = false) : trimEnd t = t := by
  rw [trimEnd_eq_rdropWhile, List.rdropWhile_eq_self_iff]
  intro hne
  rw [h _ (List.getLast?_eq_some_getLast hne)]
  exact Bool.false_ne_true

theorem oneLine_trimEnd {t : Text} (h : Text.OneLine t) : Text.OneLine (trimEnd t) :=
  h.subset (trimEnd_isPrefix t).subset

end Blank

end OptionTypes
