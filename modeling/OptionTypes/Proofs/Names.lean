import OptionTypes.Proofs.Lines
import OptionTypes.Text.Words

/-!
# Names are one line

A line end separates words, and no letter case of a code point is one. So a name put together from
words is one line, whatever it is made from.

* `Case.oneLine_lower` and `Case.oneLine_upperFirst`: letter case ends no line.
* `Words.oneLine_camel` and `Words.oneLine_pascal`: nor do names.
-/

namespace OptionTypes

open Text

namespace Case

open CaseTable

/-- A text is one line if no number in it is that of a line feed. -/
theorem oneLine_ofNumbers {ns : List Nat} (h : ∀ n ∈ ns, n ≠ 10) : OneLine (ofNumbers ns) := by
  intro hmem
  obtain ⟨n, hn, hc⟩ := List.mem_filterMap.mp hmem
  unfold CodePoint.ofNat? at hc
  by_cases hvalid : n.isValidChar
  · rw [dif_pos hvalid] at hc
    have hchar : Char.ofNatAux n hvalid = '\n' := CodePoint.char.inj (Option.some.inj hc)
    exact h n hn (congrArg Char.toNat hchar)
  · rw [dif_neg hvalid] at hc
    by_cases hsurrogate : 0xD800 ≤ n ∧ n < 0xE000
    · rw [dif_pos hsurrogate] at hc
      cases hc
    · rw [dif_neg hsurrogate] at hc
      cases hc

/-- A run that starts beyond the line feed does not lead there. -/
theorem applyRuns_ne {runs : Array Run} (hruns : ∀ r ∈ runs, 10 < (r.first : Int) + r.offset)
    {n m : Nat} (h : applyRuns runs n = some m) : m ≠ 10 := by
  obtain ⟨r, hr, hm⟩ := Option.map_eq_some_iff.mp h
  have hfirst : r.first ≤ n := by
    have hholds := Array.find?_some hr
    simp only [Bool.and_eq_true, decide_eq_true_eq] at hholds
    exact hholds.1.1
  have hbeyond := hruns r (Array.mem_of_find?_eq_some hr)
  omega

/-- No run of the table for lower case leads to a line feed. The whole table is looked at. -/
theorem lowerRuns_beyond : ∀ r ∈ lowerRuns, 10 < (r.first : Int) + r.offset := by decide +kernel

theorem upperRuns_beyond : ∀ r ∈ upperRuns, 10 < (r.first : Int) + r.offset := by decide +kernel

theorem upperSpecial_beyond : ∀ e ∈ upperSpecial, ∀ n ∈ e.2, n ≠ 10 := by decide +kernel

/-- What holds of all ASCII characters is found out by looking at them. -/
theorem of_ascii {p : Char → Prop} (h : ∀ n < 0x80, p (Char.ofNat n)) {c : Char}
    (hc : c.toNat < 0x80) : p c := by
  have hchar := h c.toNat hc
  rwa [Char.ofNat_toNat] at hchar

theorem ascii_ne {c : Char} (hc : c ≠ '\n') (hascii : c.toNat < 0x80) :
    lowerAscii c ≠ '\n' ∧ upperAscii c ≠ '\n' :=
  of_ascii (p := fun c => c ≠ '\n' → lowerAscii c ≠ '\n' ∧ upperAscii c ≠ '\n') (by decide) hascii hc

/-- Lower case of one character brings in no line feed: it is looked up in a table, or changed by a
run. -/
theorem oneLine_lowerOne {c : CodePoint} (hc : c ≠ .char '\n') : OneLine (lowerOne c) := by
  have hself : OneLine [c] := oneLine_cons.mpr ⟨hc, oneLine_nil⟩
  unfold lowerOne
  split
  next => exact hself
  next c =>
    have hne : c ≠ '\n' := fun heq => hc (congrArg CodePoint.char heq)
    split
    -- an ASCII character, the one that becomes two, one of the table, or one that has no other case
    next hascii =>
      have hlower := (ascii_ne hne hascii).1
      exact oneLine_cons.mpr ⟨fun heq => hlower (CodePoint.char.inj heq), oneLine_nil⟩
    next =>
      split
      next => exact oneLine_ofNumbers (by decide)
      next =>
        split
        next n hn =>
          exact oneLine_ofNumbers (by simpa using applyRuns_ne lowerRuns_beyond hn)
        next => exact hself

/-- Nor do capitals. -/
theorem oneLine_upperOne {c : CodePoint} (hc : c ≠ .char '\n') : OneLine (upperOne c) := by
  have hself : OneLine [c] := oneLine_cons.mpr ⟨hc, oneLine_nil⟩
  unfold upperOne
  -- ASCII by a formula, the characters with several capitals by one table, the others by another
  split
  next => exact hself
  next c =>
    have hne : c ≠ '\n' := fun heq => hc (congrArg CodePoint.char heq)
    split
    next hascii =>
      have hupper := (ascii_ne hne hascii).2
      exact oneLine_cons.mpr ⟨fun heq => hupper (CodePoint.char.inj heq), oneLine_nil⟩
    next =>
      split
      next ns hns =>
        exact oneLine_ofNumbers (upperSpecial_beyond _ (Array.mem_of_find?_eq_some hns))
      next =>
        split
        next n hn =>
          exact oneLine_ofNumbers (by simpa using applyRuns_ne upperRuns_beyond hn)
        next => exact hself

/-- Lower case of a text, where a sigma depends on what stands before it. -/
theorem oneLine_lowerAfter {t : Text} (h : OneLine t) (before : Text) :
    OneLine (lowerAfter before t) := by
  induction t generalizing before with
  | nil => exact oneLine_nil
  | cons c t ih =>
    obtain ⟨hc, ht⟩ := oneLine_cons.mp h
    refine oneLine_append.mpr ⟨?_, ih ht _⟩
    split
    · exact oneLine_ofNumbers (by decide)
    · exact oneLine_lowerOne hc

theorem oneLine_lower {t : Text} (h : OneLine t) : OneLine (lower t) := oneLine_lowerAfter h []

theorem oneLine_upperFirst {t : Text} (h : OneLine t) : OneLine (upperFirst t) := by
  cases t with
  | nil => exact oneLine_nil
  | cons c t =>
    obtain ⟨hc, ht⟩ := oneLine_cons.mp h
    exact oneLine_append.mpr ⟨oneLine_upperOne hc, ht⟩

end Case

namespace Words

/-- No separator is in a piece, and line ends are separators. -/
theorem oneLine_of_mem_pieces {t p : Text} (h : p ∈ pieces t) : OneLine p := by
  induction t generalizing p with
  | nil =>
    obtain rfl := List.mem_singleton.mp h
    exact oneLine_nil
  | cons c t ih =>
    unfold pieces at h
    split at h
    next =>
      rcases List.mem_cons.mp h with rfl | h
      · exact oneLine_nil
      · exact ih h
    next hc =>
      have hne : c ≠ .char '\n' := by
        rintro rfl
        exact hc rfl
      split at h
      next =>
        obtain rfl := List.mem_singleton.mp h
        exact oneLine_cons.mpr ⟨hne, oneLine_nil⟩
      next piece more hpieces =>
        -- a character goes to the front of the first piece, or begins a piece before it
        have hpiece : OneLine (c :: piece) :=
          oneLine_cons.mpr ⟨hne, ih (hpieces ▸ List.mem_cons_self)⟩
        have hmore : ∀ q ∈ more, OneLine q :=
          fun q hq => ih (hpieces ▸ List.mem_cons_of_mem piece hq)
        split at h
        · rcases List.mem_cons.mp h with rfl | h
          · exact oneLine_nil
          · exact (List.forall_mem_cons.mpr ⟨hpiece, hmore⟩) p h
        · exact (List.forall_mem_cons.mpr ⟨hpiece, hmore⟩) p h

/-- A word of a name is one line. -/
theorem oneLine_of_mem_split {name w : Text} (h : w ∈ split name) : OneLine w := by
  obtain ⟨piece, hpiece, rfl⟩ := List.mem_map.mp h
  exact Case.oneLine_lower (oneLine_of_mem_pieces (List.mem_filter.mp hpiece).1)

/-- A name in camelCase is one line. -/
theorem oneLine_camel (name : Text) : OneLine (camel name) := by
  unfold camel
  split
  next => exact oneLine_nil
  next word more hsplit =>
    have hwords : ∀ w ∈ word :: more, OneLine w := fun w hw => oneLine_of_mem_split (hsplit ▸ hw)
    obtain ⟨hword, hmore⟩ := List.forall_mem_cons.mp hwords
    refine oneLine_append.mpr ⟨hword, oneLine_flatMap.mpr fun w hw => ?_⟩
    exact Case.oneLine_upperFirst (hmore w hw)

theorem oneLine_pascal (name : Text) : OneLine (pascal name) :=
  oneLine_flatMap.mpr fun _ hw => Case.oneLine_upperFirst (oneLine_of_mem_split hw)

end Words

end OptionTypes
