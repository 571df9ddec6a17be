import OptionTypes.Json.Writer
import OptionTypes.Proofs.Integer

/-!
# The characters of numbers

A number is written with digits, a point, signs, the mark of an exponent, and the letters of the
three names for what has no digits. So a number holds nothing that ends a line, a text or a comment,
whatever its layout.

* `Numeral` says that a text consists of such characters.
* `Json.numeral_writeNumber`: every number that JSON writes is such a text.
-/

namespace OptionTypes

open Text

/-- Whether a character may stand in a number. -/
def isNumeral (c : Char) : Bool :=
  c.isDigit || ['.', '-', '+', 'e', 'i', 'n', 'f', 'a', 'N', 'I', 't', 'y'].contains c

/-- Whether a text consists of characters that may stand in a number. -/
def Numeral (t : Text) : Prop := ∀ c ∈ t, c.is isNumeral = true

instance (t : Text) : Decidable (Numeral t) := inferInstanceAs (Decidable (∀ c ∈ t, _))

theorem numeral_append {s t : Text} : Numeral (s ++ t) ↔ Numeral s ∧ Numeral t :=
  List.forall_mem_append

theorem numeral_ofChars {cs : List Char} : Numeral (ofChars cs) ↔ ∀ c ∈ cs, isNumeral c = true := by
  simp [Numeral, ofChars, CodePoint.is]

theorem numeral_ofString_append {s t : String} (hs : Numeral (ofString s))
    (ht : Numeral (ofString t)) : Numeral (ofString (s ++ t)) := by
  have happ : ofString (s ++ t) = ofString s ++ ofString t := by
    simp [ofString]
  rw [happ]
  exact numeral_append.mpr ⟨hs, ht⟩

/-- What is decided for the ten digits and for the other characters that may stand in a number holds
of each code point that may. -/
theorem of_isNumeral {p : CodePoint → Bool}
    (hdigit : ∀ d < 10, p (.char (Nat.digitChar d)) = true)
    (hmark : ['.', '-', '+', 'e', 'i', 'n', 'f', 'a', 'N', 'I', 't', 'y'].all (fun c => p (.char c))
      = true)
    {c : CodePoint} (h : c.is isNumeral = true) : p c = true := by
  cases c with
  | surrogate s => cases h
  | char c =>
    simp only [CodePoint.is, isNumeral, Bool.or_eq_true, List.contains_iff_mem] at h
    rcases h with h | h
    · obtain ⟨d, hd, rfl⟩ := Reading.digit_cases h
      exact hdigit d hd
    · exact List.all_eq_true.mp hmark c h

/-- A code point that may not stand in a number is in none. -/
theorem Numeral.not_mem {t : Text} (h : Numeral t) {c : CodePoint}
    (hc : c.is isNumeral = false) : c ∉ t := by
  intro hmem
  have hnumeral := h c hmem
  rw [hc] at hnumeral
  cases hnumeral

/-- The digits of a number may stand in a number. -/
theorem isNumeral_of_mem_toDigits {n : Nat} {c : Char} (h : c ∈ Nat.toDigits 10 n) :
    isNumeral c = true := by
  have hdigit : c.isDigit = true := Nat.isDigit_of_mem_toDigits (by decide) (by decide) h
  rw [isNumeral, hdigit, Bool.true_or]

namespace Shortest

theorem mem_toDigits_of_mem_text {d : Decimal} {c : Char} (h : c ∈ d.text) :
    c ∈ Nat.toDigits 10 d.digits := by
  rw [Decimal.text, List.mem_reverse] at h
  exact List.mem_reverse.mp ((List.dropWhile_suffix _).subset h)

/-- An exponent has a sign and digits. -/
theorem isNumeral_of_mem_exponentText {e : Int} {c : Char} (h : c ∈ exponentText e) :
    isNumeral c = true := by
  rw [exponentText, List.mem_cons] at h
  rcases h with rfl | h
  · split
    · decide
    · decide
  · split at h
    · rcases List.mem_cons.mp h with rfl | h
      · decide
      · exact isNumeral_of_mem_toDigits h
    · exact isNumeral_of_mem_toDigits h

/-- A layout consists of digits, a point, and the marks of an exponent. -/
theorem isNumeral_of_mem_layout {d : Decimal} {c : Char} (h : c ∈ d.layout) :
    isNumeral c = true := by
  have hdigit : ∀ c ∈ d.text, isNumeral c = true :=
    fun _ hc => isNumeral_of_mem_toDigits (mem_toDigits_of_mem_text hc)
  have hzeros : ∀ n, ∀ c ∈ List.replicate n '0', isNumeral c = true := by
    intro n c hc
    rw [List.eq_of_mem_replicate hc]
    decide
  rw [Decimal.layout] at h
  simp only at h
  split at h
  · -- without an exponent: the point before, after or among the digits
    split at h
    · simp only [List.cons_append, List.mem_cons, List.mem_append] at h
      rcases h with rfl | rfl | h | h
      · decide
      · decide
      · exact hzeros _ c h
      · exact hdigit c h
    · split at h
      · simp only [List.mem_append, List.mem_cons, List.not_mem_nil, or_false] at h
        rcases h with (h | h) | rfl | rfl
        · exact hdigit c h
        · exact hzeros _ c h
        · decide
        · decide
      · simp only [List.mem_append, List.mem_cons] at h
        rcases h with h | rfl | h
        · exact hdigit c (List.mem_of_mem_take h)
        · decide
        · exact hdigit c (List.mem_of_mem_drop h)
  · -- with an exponent: a point after the first digit, if there are more
    simp only [List.mem_append, List.mem_cons] at h
    rcases h with h | rfl | h
    · split at h
      next => cases h
      next a htext =>
        exact hdigit c (htext ▸ h)
      next a rest _ htext =>
        rw [List.mem_cons, List.mem_cons] at h
        rcases h with rfl | rfl | h
        · exact hdigit _ (htext ▸ List.mem_cons_self ..)
        · decide
        · exact hdigit c (htext ▸ List.mem_cons_of_mem _ h)
    · decide
    · exact isNumeral_of_mem_exponentText h

/-- A layout has a point or an exponent. -/
theorem exists_mark_layout (d : Decimal) : '.' ∈ d.layout ∨ 'e' ∈ d.layout := by
  rw [Decimal.layout]
  simp only
  split
  · refine .inl ?_
    split
    · simp
    · split
      · simp
      · simp
  · exact .inr (by simp)

/-- A float is written with a point, an exponent or a name. -/
theorem exists_mark_write (x : Float) : ∃ c ∈ ['.', 'e', 'n'], c ∈ (write x).toList := by
  have happ : ∀ s t : String, ∀ c, c ∈ t.toList → c ∈ (s ++ t).toList := by
    intro s t c hc
    rw [String.toList_append]
    exact List.mem_append_right _ hc
  -- infinity and no number have an n in their names
  rw [write]
  split
  next =>
    refine ⟨'n', by decide, ?_⟩
    split
    · decide
    · split
      · decide
      · decide
  next p _ =>
    simp only
    split
    · exact ⟨'.', by decide, happ _ _ _ (by decide)⟩
    · split
      next => exact ⟨'.', by decide, happ _ _ _ (by decide)⟩
      next d _ =>
        rcases exists_mark_layout d with hpoint | hexponent
        · exact ⟨'.', by decide, happ _ _ _ (by rwa [String.toList_ofList])⟩
        · exact ⟨'e', by decide, happ _ _ _ (by rwa [String.toList_ofList])⟩

/-- A float is written with digits and marks, or as one of three names. -/
theorem numeral_write (x : Float) : Numeral (ofString (write x)) := by
  rw [write]
  split
  next =>
    split
    · decide
    · split
      · decide
      · decide
  next p _ =>
    -- a sign, and then a zero or the layout of the digits
    have hsign : Numeral (ofString (if p.negative then "-" else "")) := by
      split
      · decide
      · decide
    simp only
    split
    · exact numeral_ofString_append hsign (by decide)
    · split
      next => exact numeral_ofString_append hsign (by decide)
      next d _ =>
        refine numeral_ofString_append hsign ?_
        rw [ofString, String.toList_ofList]
        exact numeral_ofChars.mpr fun _ hc => isNumeral_of_mem_layout hc

end Shortest

theorem Reading.numeral_writeInteger {n : Int} {t : Text} (h : writeInteger n = .ok t) :
    Numeral t := by
  rw [writeInteger] at h
  split at h
  · cases h
  · cases h
    refine numeral_ofChars.mpr fun c hc => ?_
    split at hc
    · rcases List.mem_cons.mp hc with rfl | hc
      · decide
      · exact isNumeral_of_mem_toDigits hc
    · exact isNumeral_of_mem_toDigits hc

/-- A number is written as an integer or as a float. -/
theorem Json.numeral_writeNumber {n : Number} {t : Text} (h : writeNumber n = .ok t) :
    Numeral t := by
  cases n with
  | int n => exact Reading.numeral_writeInteger (Outcome.mapError_eq_ok_iff.mp h)
  | float x =>
    cases h
    split
    · decide
    · split
      · split
        · decide
        · decide
      · exact Shortest.numeral_write x

end OptionTypes
