import OptionTypes.Proofs.EndMark
import OptionTypes.Proofs.Numeral

/-!
# End marks in JSON

JSON puts texts between quotation marks and spells only some code points otherwise, neither half of
the end mark of a comment among them. All else that it writes consists of brackets, separators,
words and numbers. So compact JSON holds an end mark exactly when one of the texts in the value
does, however deep.

* `Value.texts` lists the texts in a value.
* `Json.keepsOpen_write_iff`: the JSON of a value keeps open exactly when those texts do.
-/

namespace OptionTypes

open Text

/-! ## The texts in a value -/

/-- The text of a key that is one. -/
def Key.texts : Key → List Text
  | .text t => [t]
  | _ => []

namespace Value

mutual

/-- The texts in a value at any depth: itself, its items, the names and the values of its members,
and what a further scalar shows. -/
def texts : Value → List Text
  | .text t => [t]
  | .foreign _ shown => [shown]
  | .list items => itemTexts items
  | .object members => memberTexts members
  | _ => []

/-- The texts in the items of a list. -/
def itemTexts : List Value → List Text
  | [] => []
  | item :: items => item.texts ++ itemTexts items

/-- The texts in the members of an object. -/
def memberTexts : List (Key × Value) → List Text
  | [] => []
  | (k, v) :: members => k.texts ++ v.texts ++ memberTexts members

end

end Value

/-! ## Numbers -/

/-- Neither half of the mark is among some characters. -/
theorem unrelated_ofChars {cs : List Char} :
    Unrelated (ofChars cs) ↔ ∀ c ∈ cs, c ≠ '*' ∧ c ≠ '/' := by
  simp [Unrelated, ofChars]

/-- Neither half of the mark may stand in a number. -/
theorem Numeral.unrelated {t : Text} (h : Numeral t) : Unrelated t := by
  intro c hc
  constructor
  · rintro rfl
    exact h.not_mem (by decide) hc
  · rintro rfl
    exact h.not_mem (by decide) hc

/-- Dropping characters at the end of a string leaves a beginning of it. -/
theorem prefix_toList_dropEnd (s : String) (n : Nat) :
    (s.dropEnd n).toString.toList <+: s.toList := by
  have hsplit := congrArg String.toList (s.toSlice.endPos.prevn n).splits.eq_append
  rw [String.copy_toSlice, String.toList_append] at hsplit
  exact ⟨_, hsplit.symm⟩

namespace Value

/-- The text of a float has neither half of the mark: it is that of a numeral, possibly without the
zero after its point. -/
theorem unrelated_floatTextPlain (x : Float) : Unrelated (floatTextPlain x) := by
  have hwrite := (Shortest.numeral_write x).unrelated
  rw [floatTextPlain]
  split
  · intro c hc
    obtain ⟨a, ha, rfl⟩ := List.mem_map.mp hc
    have hmem := (prefix_toList_dropEnd (Shortest.write x) 2).subset ha
    exact hwrite _ (List.mem_map_of_mem hmem)
  · exact hwrite

/-- The text of a complex number has neither half of the mark: it is made of two floats, a sign and
a letter. -/
theorem unrelated_complexText (re im : Float) : Unrelated (complexText re im) := by
  have hre := unrelated_floatTextPlain re
  have him := unrelated_floatTextPlain im
  have hsign : Unrelated
      (if (floatTextPlain im).head? = some (.char '-') then [] else (ofString "+" : Text)) := by
    split
    · decide
    · decide
  rw [complexText]
  split
  · exact unrelated_append.mpr ⟨him, by decide⟩
  · simp only [unrelated_append]
    exact ⟨⟨⟨⟨by decide, hre⟩, hsign⟩, him⟩, by decide⟩

end Value

namespace Json

/-! ## Quoted texts -/

/-- Four hex digits have neither half of the mark. -/
theorem unrelated_unicodeEscape (n : Nat) : Unrelated (unicodeEscape n) := by
  have hdigit : ∀ d < 16, Nat.digitChar d ≠ '*' ∧ Nat.digitChar d ≠ '/' := by decide
  -- the digits are written from the last to the first
  have hhex : ∀ width n, ∀ c ∈ Quoted.hex width n, c ≠ '*' ∧ c ≠ '/' := by
    intro width
    induction width with
    | zero =>
      intro n c hc
      cases hc
    | succ width ih =>
      intro n c hc
      rw [Quoted.hex, List.mem_append, List.mem_singleton] at hc
      rcases hc with hc | rfl
      · exact ih _ c hc
      · exact hdigit _ (Nat.mod_lt n (by decide))
  refine unrelated_ofChars.mpr fun c hc => ?_
  rw [List.mem_cons, List.mem_cons] at hc
  rcases hc with rfl | rfl | hc
  · decide
  · decide
  · exact hhex 4 n c hc

/-- JSON spells neither half of the mark otherwise, and nothing else with one of them. So the mark
is in the spelling of a text exactly when it is in the text. -/
theorem faithful_spell (c : CodePoint) : Faithful c (spell false c) := by
  unfold spell
  split
  -- the seven short escapes
  iterate 7 exact .of_unrelated (by decide) (by decide) (by decide) (by decide)
  simp only [Bool.false_and]
  split
  next hlow =>
    refine .of_unrelated (by simp [unicodeEscape, ofChars]) (unrelated_unicodeEscape _) ?_ ?_
    · rintro rfl
      exact absurd hlow (by decide)
    · rintro rfl
      exact absurd hlow (by decide)
  next => exact .refl c

/-- A quoted text keeps open exactly when the text does: the quotation marks are no part of a
mark. -/
theorem keepsOpen_quote (t : Text) : KeepsOpen (quote false t) ↔ KeepsOpen t := by
  rw [quote, keepsOpen_concat (by decide), keepsOpen_cons (by decide),
    keepsOpen_flatMap faithful_spell]

/-! ## Lists, objects and what they hold -/

/-- Parts between brackets keep open exactly when each of them does. The brackets and the commas
between the parts are no half of a mark, so none can come about across them. -/
theorem keepsOpen_enclose {depth : Nat} {opening closing : Char} {parts : List Text}
    (hopening : opening ≠ '*') (hclosing : closing ≠ '/') :
    KeepsOpen (Layout.compact.enclose depth opening closing parts)
      ↔ ∀ t ∈ parts, KeepsOpen t := by
  have hopen : CodePoint.char opening ≠ .char '*' := by simpa using hopening
  have hclose : CodePoint.char closing ≠ .char '/' := by simpa using hclosing
  rw [Layout.enclose]
  split
  next hempty =>
    rw [List.isEmpty_iff.mp hempty, keepsOpen_cons hopen]
    simp
  next =>
    have hseparator : ofString Layout.compact.itemSeparator = [.char ','] := rfl
    have hbreak : ∀ n, Layout.compact.breakAt n = [] := fun _ => rfl
    -- compact JSON breaks no lines, so only commas separate the parts
    simp only [hseparator, hbreak, List.append_nil, List.cons_append, List.nil_append]
    rw [← List.cons_append, keepsOpen_concat hclose, keepsOpen_cons hopen,
      keepsOpen_join (by decide) (by decide)]

/-- A name keeps open exactly when the key does: all keys but texts are words and numbers. -/
theorem keepsOpen_keyText {k : Key} {t : Text} (h : keyText k = .ok t) :
    KeepsOpen t ↔ ∀ u ∈ k.texts, KeepsOpen u := by
  cases k with
  | text u =>
    cases h
    simp [Key.texts]
  | null =>
    cases h
    exact KeepsOpen.iff_nil (by decide)
  | bool b =>
    cases h
    cases b with
    | false => exact KeepsOpen.iff_nil (by decide)
    | true => exact KeepsOpen.iff_nil (by decide)
  | number n => exact (numeral_writeNumber h).unrelated.keepsOpen.iff_nil
  | foreign type shown => cases h

mutual

/-- The JSON of a value keeps open exactly when its texts do. Induction on the value, mutual with
items and members. -/
theorem keepsOpen_writeAt (depth : Nat) :
    ∀ (v : Value) {t : Text}, writeAt .compact depth v = .ok t →
      (KeepsOpen t ↔ ∀ u ∈ v.texts, KeepsOpen u)
  | .null, t, h => by
    cases h
    exact KeepsOpen.iff_nil (by decide)
  | .bool b, t, h => by
    cases h
    cases b with
    | false => exact KeepsOpen.iff_nil (by decide)
    | true => exact KeepsOpen.iff_nil (by decide)
  | .number n, t, h => (numeral_writeNumber h).unrelated.keepsOpen.iff_nil
  | .text u, t, h => by
    cases h
    simp only [Value.texts, List.mem_singleton, forall_eq]
    exact keepsOpen_quote u
  | .function _, t, h => by
    cases h
    exact KeepsOpen.iff_nil (by decide)
  | .complex re im, t, h => by
    cases h
    have hparts := (Value.unrelated_complexText re im).keepsOpen
    exact KeepsOpen.iff_nil ((keepsOpen_quote _).mpr hparts)
  | .foreign _ shown, t, h => by
    cases h
    simp only [Value.texts, List.mem_singleton, forall_eq]
    exact keepsOpen_quote shown
  | .list items, t, h => by
    obtain ⟨parts, hparts, hpure⟩ := Outcome.bind_eq_ok_iff.mp h
    cases hpure
    rw [keepsOpen_enclose (by decide) (by decide), Value.texts]
    exact keepsOpen_writeItems (depth + 1) items hparts
  | .object members, t, h => by
    obtain ⟨parts, hparts, hpure⟩ := Outcome.bind_eq_ok_iff.mp h
    cases hpure
    rw [keepsOpen_enclose (by decide) (by decide), Value.texts]
    exact keepsOpen_writeMembers (depth + 1) members hparts

/-- The items of a list, each of which keeps open or not on its own. -/
theorem keepsOpen_writeItems (depth : Nat) :
    ∀ (items : List Value) {parts : List Text}, writeItems .compact depth items = .ok parts →
      ((∀ t ∈ parts, KeepsOpen t) ↔ ∀ u ∈ Value.itemTexts items, KeepsOpen u)
  | [], parts, h => by
    cases h
    simp [Value.itemTexts]
  | item :: items, parts, h => by
    obtain ⟨first, hfirst, h⟩ := Outcome.bind_eq_ok_iff.mp h
    obtain ⟨rest, hrest, hpure⟩ := Outcome.bind_eq_ok_iff.mp h
    cases hpure
    rw [List.forall_mem_cons, Value.itemTexts, List.forall_mem_append,
      keepsOpen_writeAt depth item hfirst, keepsOpen_writeItems depth items hrest]

/-- The members of an object: the name and the value of each, with a colon between them. -/
theorem keepsOpen_writeMembers (depth : Nat) :
    ∀ (members : List (Key × Value)) {parts : List Text},
      writeMembers .compact depth members = .ok parts →
        ((∀ t ∈ parts, KeepsOpen t) ↔ ∀ u ∈ Value.memberTexts members, KeepsOpen u)
  | [], parts, h => by
    cases h
    simp [Value.memberTexts]
  | (k, v) :: members, parts, h => by
    obtain ⟨name, hname, h⟩ := Outcome.bind_eq_ok_iff.mp h
    obtain ⟨first, hfirst, h⟩ := Outcome.bind_eq_ok_iff.mp h
    obtain ⟨rest, hrest, hpure⟩ := Outcome.bind_eq_ok_iff.mp h
    cases hpure
    have hseparator : ofString Layout.compact.keySeparator = [.char ':'] := rfl
    have hquote : quote Layout.compact.asciiOnly name = quote false name := rfl
    rw [List.forall_mem_cons, Value.memberTexts, List.forall_mem_append, List.forall_mem_append,
      hseparator, hquote, List.append_assoc, List.singleton_append,
      keepsOpen_append_cons (by decide) (by decide), keepsOpen_quote, keepsOpen_keyText hname,
      keepsOpen_writeAt depth v hfirst, keepsOpen_writeMembers depth members hrest]

end

/-- The compact JSON of a value holds an end mark exactly when one of the texts in the value
does. -/
theorem keepsOpen_write_iff {v : Value} {t : Text} (h : write .compact v = .ok t) :
    KeepsOpen t ↔ ∀ u ∈ v.texts, KeepsOpen u :=
  keepsOpen_writeAt 0 v h

end Json

end OptionTypes
