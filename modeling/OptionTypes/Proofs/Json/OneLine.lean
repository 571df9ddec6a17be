import OptionTypes.Proofs.Integer
import OptionTypes.Proofs.Lines
import OptionTypes.Proofs.Numeral

/-!
# JSON on one line

In a layout without indents JSON is one line, whatever the value: line feeds in texts are written
as escapes. And it is never blank, nor a mere sign, and no blanks end it.

* `Json.Layout.Keeps` is the induction over what a layout writes.
* `Json.oneLine_write`: JSON is one line.
* `Json.exists_solid_write`: JSON has something in it.
* `Json.trimEnd_write`: dropping blanks at the end of JSON drops nothing.
-/

namespace OptionTypes

open Text

/-- A number has no line feed in it. -/
theorem Numeral.oneLine {t : Text} (h : Numeral t) : OneLine t := h.not_mem (by decide)

namespace Json

variable {l : Layout}

/-! ## All that is written -/

/-- Whether something is true of scalars and quoted texts, and stays true of what a layout makes of
written parts. -/
structure Layout.Keeps (l : Layout) (P : Text → Prop) : Prop where
  null : P "null"
  bool (b : Bool) : P (if b then "true" else "false")
  number {n : Number} {t : Text} (h : writeNumber n = .ok t) : P t
  quote (t : Text) : P (quote l.asciiOnly t)
  list (depth : Nat) {parts : List Text} (h : ∀ t ∈ parts, P t) :
    P (l.enclose depth '[' ']' parts)
  object (depth : Nat) {parts : List Text} (h : ∀ t ∈ parts, P t) :
    P (l.enclose depth '\x7b' '\x7d' parts)
  member (name : Text) {t : Text} (h : P t) :
    P (Json.quote l.asciiOnly name ++ ofString l.keySeparator ++ t)

namespace Layout.Keeps

variable {P : Text → Prop}

mutual

/-- What is true of the parts is true of the JSON of a value. Induction on the value, mutual with
items and members, in the cases of `Layout.Keeps`. -/
theorem writeAt (hP : l.Keeps P) (depth : Nat) :
    ∀ (v : Value) {t : Text}, writeAt l depth v = .ok t → P t
  | .null, _, h => by
    cases h
    exact hP.null
  | .bool b, _, h => by
    cases h
    exact hP.bool b
  | .number _, _, h => hP.number h
  | .text _, _, h => by
    cases h
    exact hP.quote _
  | .function _, _, h => by
    cases h
    exact hP.quote _
  | .complex _ _, _, h => by
    cases h
    exact hP.quote _
  | .foreign _ _, _, h => by
    cases h
    exact hP.quote _
  | .list items, _, h => by
    obtain ⟨parts, hparts, hpure⟩ := Outcome.bind_eq_ok_iff.mp h
    cases hpure
    exact hP.list depth (hP.writeItems (depth + 1) items hparts)
  | .object members, _, h => by
    obtain ⟨parts, hparts, hpure⟩ := Outcome.bind_eq_ok_iff.mp h
    cases hpure
    exact hP.object depth (hP.writeMembers (depth + 1) members hparts)

/-- It is true of the text of every item. -/
theorem writeItems (hP : l.Keeps P) (depth : Nat) :
    ∀ (items : List Value) {parts : List Text}, writeItems l depth items = .ok parts →
      ∀ t ∈ parts, P t
  | [], _, h => by
    cases h
    simp
  | item :: items, _, h => by
    obtain ⟨first, hfirst, h⟩ := Outcome.bind_eq_ok_iff.mp h
    obtain ⟨rest, hrest, hpure⟩ := Outcome.bind_eq_ok_iff.mp h
    cases hpure
    exact List.forall_mem_cons.mpr
      ⟨hP.writeAt depth item hfirst, hP.writeItems depth items hrest⟩

/-- It is true of the text of every member. -/
theorem writeMembers (hP : l.Keeps P) (depth : Nat) :
    ∀ (members : List (Key × Value)) {parts : List Text},
      writeMembers l depth members = .ok parts → ∀ t ∈ parts, P t
  | [], _, h => by
    cases h
    simp
  | (k, v) :: members, _, h => by
    obtain ⟨name, -, h⟩ := Outcome.bind_eq_ok_iff.mp h
    obtain ⟨first, hfirst, h⟩ := Outcome.bind_eq_ok_iff.mp h
    obtain ⟨rest, hrest, hpure⟩ := Outcome.bind_eq_ok_iff.mp h
    cases hpure
    exact List.forall_mem_cons.mpr
      ⟨hP.member name (hP.writeAt depth v hfirst), hP.writeMembers depth members hrest⟩

end

/-- What a layout keeps is true of the JSON of every value. -/
theorem write (hP : l.Keeps P) {v : Value} {t : Text} (h : write l v = .ok t) : P t :=
  hP.writeAt 0 v h

end Layout.Keeps

/-! ## Quoted texts -/

/-- Hex digits are on one line. Induction on how many there are. -/
theorem oneLine_hex (width n : Nat) : OneLine (ofChars (Quoted.hex width n)) := by
  have hdigit : ∀ d < 16, Nat.digitChar d ≠ '\n' := by decide
  induction width generalizing n with
  | zero => exact oneLine_nil
  | succ width ih =>
    have hsplit : ofChars (Quoted.hex (width + 1) n)
        = ofChars (Quoted.hex width (n / 16)) ++ [.char (Nat.digitChar (n % 16))] := by
      simp [Quoted.hex, ofChars]
    rw [hsplit, oneLine_append, oneLine_cons]
    refine ⟨ih (n / 16), fun heq => ?_, oneLine_nil⟩
    exact hdigit _ (Nat.mod_lt n (by decide)) (CodePoint.char.inj heq)

theorem oneLine_unicodeEscape (n : Nat) : OneLine (unicodeEscape n) :=
  oneLine_cons.mpr ⟨by decide, oneLine_cons.mpr ⟨by decide, oneLine_hex 4 n⟩⟩

/-- A line feed is written as an escape, and no other code point brings one. -/
theorem oneLine_spell (asciiOnly : Bool) (c : CodePoint) : OneLine (spell asciiOnly c) := by
  unfold spell
  split
  iterate 7 next => decide
  next hlf _ _ _ _ =>
    simp only
    split
    · exact oneLine_unicodeEscape _
    · split
      · split
        · exact oneLine_unicodeEscape _
        · exact oneLine_append.mpr ⟨oneLine_unicodeEscape _, oneLine_unicodeEscape _⟩
      · exact oneLine_cons.mpr ⟨hlf, oneLine_nil⟩

/-- A quoted text is on one line. -/
theorem oneLine_quote (asciiOnly : Bool) (t : Text) : OneLine (quote asciiOnly t) := by
  refine oneLine_append.mpr ⟨oneLine_cons.mpr ⟨by decide, ?_⟩, by decide⟩
  exact oneLine_flatMap.mpr fun c _ => oneLine_spell asciiOnly c

/-! ## Lists and objects -/

/-- A layout that breaks no lines. -/
structure Layout.Flat (l : Layout) : Prop where
  indent : l.indent = none
  item : OneLine l.itemSeparator
  key : OneLine l.keySeparator

theorem flat_compact : Layout.compact.Flat := ⟨rfl, by decide, by decide⟩

theorem flat_spaced : Layout.spaced.Flat := ⟨rfl, by decide, by decide⟩

/-- What stands between two brackets is on one line, if the parts are and the layout breaks none. -/
theorem oneLine_enclose (hl : l.Flat) (depth : Nat) {opening closing : Char}
    (hopening : opening ≠ '\n') (hclosing : closing ≠ '\n') {parts : List Text}
    (hparts : ∀ t ∈ parts, OneLine t) : OneLine (l.enclose depth opening closing parts) := by
  have hopen : CodePoint.char opening ≠ .char '\n' := fun heq => hopening (CodePoint.char.inj heq)
  have hclose : OneLine [.char closing] :=
    oneLine_cons.mpr ⟨fun heq => hclosing (CodePoint.char.inj heq), oneLine_nil⟩
  have hbreak : ∀ n, l.breakAt n = [] := by
    intro n
    rw [Layout.breakAt, hl.indent]
  unfold Layout.enclose
  split
  · exact oneLine_cons.mpr ⟨hopen, hclose⟩
  · simp only [hbreak, List.append_nil]
    refine oneLine_append.mpr ⟨oneLine_cons.mpr ⟨hopen, ?_⟩, hclose⟩
    exact oneLine_join hl.item hparts

/-- A flat layout keeps everything on one line. -/
theorem keeps_oneLine (hl : l.Flat) : l.Keeps OneLine where
  null := by decide
  bool := by decide
  number h := (numeral_writeNumber h).oneLine
  quote := oneLine_quote l.asciiOnly
  list depth _ h := oneLine_enclose hl depth (by decide) (by decide) h
  object depth _ h := oneLine_enclose hl depth (by decide) (by decide) h
  member name _ h := oneLine_append.mpr
    ⟨oneLine_append.mpr ⟨oneLine_quote l.asciiOnly name, hl.key⟩, h⟩

/-- **JSON without indents is one line.** -/
theorem oneLine_write (hl : l.Flat) {v : Value} {t : Text} (h : write l v = .ok t) : OneLine t :=
  (keeps_oneLine hl).write h

/-! ## Something in it -/

/-- Whether a code point is neither a blank nor a sign. -/
def isSolid (c : CodePoint) : Bool := !Blank.isBlank c && c ≠ .char '-'

/-- A digit is solid. -/
theorem isSolid_of_isDigit {c : Char} (h : c.isDigit = true) : isSolid (.char c) = true := by
  have hall : ∀ d < 10, isSolid (.char (Nat.digitChar d)) = true := by decide
  obtain ⟨d, hd, rfl⟩ := Reading.digit_cases h
  exact hall d hd

/-- A number has a digit or a letter in it. -/
theorem exists_solid_writeNumber {n : Number} {t : Text} (h : writeNumber n = .ok t) :
    ∃ c ∈ t, isSolid c = true := by
  cases n with
  | int n =>
    have hwrite := Outcome.mapError_eq_ok_iff.mp h
    rw [Reading.writeInteger] at hwrite
    split at hwrite
    · cases hwrite
    · cases hwrite
      -- there is a digit, with or without a sign before it
      obtain ⟨c, hc⟩ := List.exists_mem_of_ne_nil _ (Nat.toDigits_ne_nil (b := 10) (n := n.natAbs))
      have hdigit : c.isDigit = true := Nat.isDigit_of_mem_toDigits (by decide) (by decide) hc
      refine ⟨.char c, List.mem_map_of_mem ?_, isSolid_of_isDigit hdigit⟩
      split
      · exact List.mem_cons_of_mem _ hc
      · exact hc
  | float x =>
    cases h
    split
    · exact ⟨.char 'N', by decide, by decide⟩
    · split
      · split
        · exact ⟨.char 'I', by decide, by decide⟩
        · exact ⟨.char 'I', by decide, by decide⟩
      · obtain ⟨c, hc, hmem⟩ := Shortest.exists_mark_write x
        have hmarks : ∀ c ∈ ['.', 'e', 'n'], isSolid (.char c) = true :=
          List.all_eq_true.mp (by decide)
        exact ⟨.char c, List.mem_map_of_mem hmem, hmarks c hc⟩

/-- The quotation marks of a text are solid, even if it is empty. -/
theorem exists_solid_quote (asciiOnly : Bool) (t : Text) :
    ∃ c ∈ quote asciiOnly t, isSolid c = true :=
  ⟨.char '"', List.mem_cons_self, by decide⟩

/-- So is an opening bracket. -/
theorem exists_solid_enclose (depth : Nat) {opening : Char}
    (hopening : isSolid (.char opening) = true) (closing : Char) (parts : List Text) :
    ∃ c ∈ l.enclose depth opening closing parts, isSolid c = true := by
  refine ⟨.char opening, ?_, hopening⟩
  unfold Layout.enclose
  split
  · exact List.mem_cons_self
  · exact List.mem_cons_self

/-- JSON is never blank, nor a mere sign. -/
theorem exists_solid_write {v : Value} {t : Text} (h : write l v = .ok t) :
    ∃ c ∈ t, isSolid c = true := by
  -- a word or a digit, a quotation mark, or a bracket
  cases v with
  | null =>
    cases h
    exact ⟨.char 'n', by decide, by decide⟩
  | bool b =>
    cases h
    cases b with
    | false => exact ⟨.char 'e', by decide, by decide⟩
    | true => exact ⟨.char 'e', by decide, by decide⟩
  | number n => exact exists_solid_writeNumber h
  | text u =>
    cases h
    exact exists_solid_quote _ _
  | function source =>
    cases h
    exact exists_solid_quote _ _
  | complex re im =>
    cases h
    exact exists_solid_quote _ _
  | foreign type shown =>
    cases h
    exact exists_solid_quote _ _
  | list items =>
    obtain ⟨parts, -, hpure⟩ := Outcome.bind_eq_ok_iff.mp h
    cases hpure
    exact exists_solid_enclose 0 (by decide) _ _
  | object members =>
    obtain ⟨parts, -, hpure⟩ := Outcome.bind_eq_ok_iff.mp h
    cases hpure
    exact exists_solid_enclose 0 (by decide) _ _

/-! ## No blanks at the end -/

/-- What numbers are made of is not blank. -/
theorem isBlank_of_isNumeral {c : CodePoint} (h : c.is isNumeral = true) :
    Blank.isBlank c = false :=
  (Bool.not_eq_true' _).mp (of_isNumeral (p := fun c => !Blank.isBlank c) (by decide) (by decide) h)

/-- A quoted text ends with its mark. -/
theorem getLast?_quote (asciiOnly : Bool) (t : Text) :
    (quote asciiOnly t).getLast? = some (.char '"') := List.getLast?_concat

/-- A collection ends with its bracket. -/
theorem getLast?_enclose (depth : Nat) (opening closing : Char) (parts : List Text) :
    (l.enclose depth opening closing parts).getLast? = some (.char closing) := by
  unfold Layout.enclose
  split
  · rfl
  · exact List.getLast?_concat

/-- JSON does not end with a blank. -/
theorem trimEnd_write {v : Value} {t : Text} (h : write l v = .ok t) : Blank.trimEnd t = t := by
  -- A quote or a bracket ends everything but the plain words and the numbers.
  have hend : ∀ {c : CodePoint}, t.getLast? = some c → Blank.isBlank c = false →
      Blank.trimEnd t = t := by
    intro c hlast hc
    refine Blank.trimEnd_eq_self fun c' hc' => ?_
    rw [hlast] at hc'
    cases hc'
    exact hc
  cases v with
  | null =>
    cases h
    rfl
  | bool b =>
    cases h
    cases b with
    | false => rfl
    | true => rfl
  | number n =>
    have hnumeral := numeral_writeNumber h
    exact Blank.trimEnd_eq_self fun c hc =>
      isBlank_of_isNumeral (hnumeral c (List.mem_of_getLast? hc))
  | text u =>
    cases h
    exact hend (getLast?_quote _ _) (by decide)
  | function source =>
    cases h
    exact hend (getLast?_quote _ _) (by decide)
  | complex re im =>
    cases h
    exact hend (getLast?_quote _ _) (by decide)
  | foreign type shown =>
    cases h
    exact hend (getLast?_quote _ _) (by decide)
  | list items =>
    obtain ⟨parts, -, hpure⟩ := Outcome.bind_eq_ok_iff.mp h
    cases hpure
    exact hend (getLast?_enclose _ _ _ _) (by decide)
  | object members =>
    obtain ⟨parts, -, hpure⟩ := Outcome.bind_eq_ok_iff.mp h
    cases hpure
    exact hend (getLast?_enclose _ _ _ _) (by decide)

end Json

end OptionTypes
