import OptionTypes.Proofs.Conventions

/-!
# Names keep their letters

A name in camelCase or in PascalCase has the letters and digits of the name that it is made from, in
their order. Separators are dropped and the case of letters changes, and that is all. This holds of
names in ASCII: beyond it the capital of a letter may be several letters.

On ASCII both cases look at each character alone, so the passes of `split` are followed character by
character: `lowerCapital` does not tell a name from the name with its runs of capitals reduced, and
cutting loses the separators only.

* `flatten_split`: the words, one after the other, are the letters of the name in lower case.
* `lower_camel`: so is the name in camelCase, but for its case.
* `names_keep_letters`: what names in both conventions keep.
-/

namespace OptionTypes

/-- Whether a code point is an ASCII character. -/
def CodePoint.isAscii (c : CodePoint) : Bool := c.is fun a => a.toNat < 0x80

/-- Whether a text consists of ASCII characters. -/
def Text.IsAscii (t : Text) : Prop := ∀ c ∈ t, c.isAscii = true

instance (t : Text) : Decidable (Text.IsAscii t) := inferInstanceAs (Decidable (∀ c ∈ t, _))

namespace Words

/-- A name without its separators. -/
def letters (name : Text) : Text := name.filter fun c => !isSeparator c

/-- The capital of a small letter of ASCII; other code points stay. -/
def upperSmall : CodePoint → CodePoint
  | .char a => .char (Case.upperAscii a)
  | c => c

variable {name t w : Text} {ws : List Text} {c : CodePoint}

/-! ## The case of one character -/

/-- The small letter of a capital is neither a separator nor a capital. This is decided letter by
letter. -/
theorem lowerCapital_of_isCapital (h : isCapital c = true) :
    isSeparator (lowerCapital c) = false ∧ isCapital (lowerCapital c) = false := by
  obtain ⟨a, rfl, ha⟩ := exists_char_of_is h
  have hascii : a.toNat < 0x80 := by
    simp only [Case.isCapital, Bool.and_eq_true, decide_eq_true_eq] at ha
    have hle : a.toNat ≤ 90 := ha.2
    omega
  exact Case.of_ascii
    (p := fun a => Case.isCapital a = true → isSeparator (lowerCapital (.char a)) = false
      ∧ isCapital (lowerCapital (.char a)) = false)
    (by decide) hascii ha

theorem lowerCapital_eq_self (h : isCapital c = false) : lowerCapital c = c := by
  cases c with
  | surrogate n => rfl
  | char a =>
    have ha : Case.isCapital a = false := h
    show CodePoint.char (Case.lowerAscii a) = .char a
    rw [Case.lowerAscii, ha]
    rfl

@[simp] theorem isCapital_lowerCapital (c : CodePoint) : isCapital (lowerCapital c) = false := by
  cases h : isCapital c with
  | false => rw [lowerCapital_eq_self h, h]
  | true => exact (lowerCapital_of_isCapital h).2

@[simp] theorem isSeparator_lowerCapital (c : CodePoint) :
    isSeparator (lowerCapital c) = isSeparator c := by
  cases h : isCapital c with
  | false => rw [lowerCapital_eq_self h]
  | true =>
    have hc : isSeparator c = false := by
      rw [Bool.eq_false_iff]
      intro hseparator
      rw [not_isCapital_of_isSeparator hseparator] at h
      cases h
    rw [(lowerCapital_of_isCapital h).1, hc]

@[simp] theorem lowerCapital_lowerCapital (c : CodePoint) :
    lowerCapital (lowerCapital c) = lowerCapital c :=
  lowerCapital_eq_self (isCapital_lowerCapital c)

/-- What the cases of an ASCII character have to do with each other. -/
theorem cases_of_isAscii (h : c.isAscii = true) :
    (Case.lowerOne c = [lowerCapital c] ∧ Case.upperOne c = [upperSmall c])
      ∧ ((lowerCapital c).isAscii = true ∧ (upperSmall c).isAscii = true)
      ∧ lowerCapital (upperSmall c) = lowerCapital c ∧ c.value ≠ 0x3A3 := by
  obtain ⟨a, rfl, ha⟩ := exists_char_of_is h
  exact Case.of_ascii
    (p := fun a => (Case.lowerOne (.char a) = [lowerCapital (.char a)]
        ∧ Case.upperOne (.char a) = [upperSmall (.char a)])
      ∧ ((lowerCapital (.char a)).isAscii = true ∧ (upperSmall (.char a)).isAscii = true)
      ∧ lowerCapital (upperSmall (.char a)) = lowerCapital (.char a)
      ∧ (CodePoint.char a).value ≠ 0x3A3)
    (by decide) (of_decide_eq_true ha)

/-- On ASCII lower case changes each character alone. -/
theorem lower_of_ascii (h : Text.IsAscii t) : Case.lower t = t.map lowerCapital := by
  rw [Case.lower_eq_flatMap fun c hc => (cases_of_isAscii (h c hc)).2.2.2, List.map_eq_flatMap]
  exact List.flatMap_congr fun c hc => (cases_of_isAscii (h c hc)).1.1

/-- On ASCII a capital at the start is one character. -/
theorem upperFirst_cons (h : Text.IsAscii (c :: t)) :
    Case.upperFirst (c :: t) = upperSmall c :: t := by
  rw [Case.upperFirst, (cases_of_isAscii (h c List.mem_cons_self)).1.2, List.singleton_append]

/-- A capital at the start is a matter of case. -/
theorem map_lowerCapital_upperFirst (h : Text.IsAscii t) :
    (Case.upperFirst t).map lowerCapital = t.map lowerCapital := by
  cases t with
  | nil => rfl
  | cons c t =>
    have hc := (cases_of_isAscii (h c List.mem_cons_self)).2.2.1
    rw [upperFirst_cons h, List.map_cons, hc, List.map_cons]

theorem isAscii_upperFirst (h : Text.IsAscii t) : Text.IsAscii (Case.upperFirst t) := by
  cases t with
  | nil => exact h
  | cons c t =>
    obtain ⟨hc, ht⟩ := List.forall_mem_cons.mp h
    rw [upperFirst_cons h]
    exact List.forall_mem_cons.mpr ⟨(cases_of_isAscii hc).2.1.2, ht⟩

/-! ## The passes of a split -/

/-- Reducing runs of capitals changes no more than the case of capitals. -/
theorem map_lowerCapital_collapseFrom (inside : Bool) (t : Text) :
    (collapseFrom inside t).map lowerCapital = t.map lowerCapital := by
  induction t generalizing inside with
  | nil => rfl
  | cons c t ih =>
    rw [collapseFrom]
    split
    · rw [List.map_cons, ih, List.map_cons]
      split
      · rw [lowerCapital_lowerCapital]
      · rfl
    · rw [List.map_cons, ih, List.map_cons]

/-- Runs of capitals are reduced to ASCII. -/
theorem isAscii_collapseFrom (inside : Bool) (h : Text.IsAscii t) :
    Text.IsAscii (collapseFrom inside t) := by
  induction t generalizing inside with
  | nil => exact h
  | cons c t ih =>
    obtain ⟨hc, ht⟩ := List.forall_mem_cons.mp h
    rw [collapseFrom]
    split
    · refine List.forall_mem_cons.mpr ⟨?_, ih true ht⟩
      split
      · exact (cases_of_isAscii hc).2.1.1
      · exact hc
    · exact List.forall_mem_cons.mpr ⟨hc, ih false ht⟩

/-- **Cutting loses the separators only.** -/
theorem flatten_pieces (t : Text) : (pieces t).flatten = letters t := by
  induction t with
  | nil => rfl
  | cons c t ih =>
    rw [letters] at ih ⊢
    rw [pieces]
    cases hc : isSeparator c with
    | true => simp [hc, ih]
    | false =>
      rw [List.filter_cons_of_pos (by rw [hc]; rfl), ← ih, if_neg Bool.false_ne_true]
      -- the character begins the piece after it, or one of its own
      cases pieces t with
      | nil => rfl
      | cons piece more =>
        show (if isCapital c then [] :: (c :: piece) :: more else (c :: piece) :: more).flatten = _
        split
        · rfl
        · rfl

/-- The fragments of a text make up its letters. -/
theorem flatten_fragments (t : Text) : (fragments t).flatten = letters t := by
  rw [fragments, List.flatten_filter_not_isEmpty, flatten_pieces]

/-- Dropping separators and lowering capitals may be done in any order. -/
theorem map_lowerCapital_letters (t : Text) :
    (letters t).map lowerCapital = letters (t.map lowerCapital) := by
  have hsame : ((fun c => !isSeparator c) ∘ lowerCapital) = fun c => !isSeparator c := by
    funext c
    show (!isSeparator (lowerCapital c)) = _
    rw [isSeparator_lowerCapital]
  rw [letters, letters, List.filter_map, hsame]

theorem isAscii_letters (h : Text.IsAscii t) : Text.IsAscii (letters t) :=
  fun c hc => h c (List.mem_filter.mp hc).1

/-- A fragment consists of characters of the text. -/
theorem isAscii_of_mem_fragments (h : Text.IsAscii t) (hw : w ∈ fragments t) : Text.IsAscii w := by
  intro c hc
  have hmem : c ∈ (fragments t).flatten := List.mem_flatten.mpr ⟨w, hw, hc⟩
  rw [flatten_fragments] at hmem
  exact isAscii_letters h c hmem

/-- **The words of a name, one after the other,** are its letters in lower case. -/
theorem flatten_split (h : Text.IsAscii name) :
    (split name).flatten = Case.lower (letters name) := by
  have hcollapse : Text.IsAscii (collapse name) := isAscii_collapseFrom false h
  calc (split name).flatten
      = ((fragments (collapse name)).map Case.lower).flatten := by rw [split_eq]
    _ = ((fragments (collapse name)).map (List.map lowerCapital)).flatten := by
        refine congrArg List.flatten (List.map_congr_left fun w hw => ?_)
        exact lower_of_ascii (isAscii_of_mem_fragments hcollapse hw)
    _ = (letters (collapse name)).map lowerCapital := by
        rw [← List.map_flatten, flatten_fragments]
    _ = (letters name).map lowerCapital := by
        rw [map_lowerCapital_letters, collapse, map_lowerCapital_collapseFrom,
          ← map_lowerCapital_letters]
    _ = Case.lower (letters name) := (lower_of_ascii (isAscii_letters h)).symm

/-! ## The words -/

/-- Whether a text is a word as it is found in a name of ASCII. -/
structure IsAsciiWord (w : Text) : Prop where
  ne_nil : w ≠ []
  ascii : Text.IsAscii w
  plain : ∀ c ∈ w, isSeparator c = false ∧ isCapital c = false

theorem IsAsciiWord.lower (h : IsAsciiWord w) : Case.lower w = w := by
  rw [lower_of_ascii h.ascii]
  have hplain := List.map_congr_left fun c hc => lowerCapital_eq_self (h.plain c hc).2
  exact hplain.trans (List.map_id w)

/-- A word of a name is not empty, and has neither capitals nor separators: it was cut at separators
and is in lower case. -/
theorem isAsciiWord_of_mem_split (h : Text.IsAscii name) (hw : w ∈ split name) : IsAsciiWord w := by
  obtain ⟨piece, hpiece, rfl⟩ := List.mem_map.mp hw
  have hascii : Text.IsAscii piece := isAscii_of_mem_fragments (isAscii_collapseFrom false h) hpiece
  have hne : piece ≠ [] := by simpa using (List.mem_filter.mp hpiece).2
  -- what is in a piece is in the name, so it separates nothing
  have hinner : ∀ c ∈ piece, isSeparator c = false := by
    intro c hc
    have hmem : c ∈ (fragments (collapse name)).flatten := List.mem_flatten.mpr ⟨piece, hpiece, hc⟩
    rw [flatten_fragments] at hmem
    simpa using (List.mem_filter.mp hmem).2
  rw [lower_of_ascii hascii]
  refine ⟨by simpa using hne, ?_, ?_⟩
  · intro d hd
    obtain ⟨c, hc, rfl⟩ := List.mem_map.mp hd
    exact (cases_of_isAscii (hascii c hc)).2.1.1
  · intro d hd
    obtain ⟨c, hc, rfl⟩ := List.mem_map.mp hd
    exact ⟨by rw [isSeparator_lowerCapital, hinner c hc], isCapital_lowerCapital c⟩

/-! ## Names -/

theorem pascalOf_cons (w : Text) (ws : List Text) :
    pascalOf (w :: ws) = Case.upperFirst w ++ pascalOf ws :=
  List.flatMap_cons

/-- A capital at the start of a text is one at the start of its first word. -/
theorem upperFirst_append (hne : w ≠ []) (t : Text) :
    Case.upperFirst (w ++ t) = Case.upperFirst w ++ t := by
  obtain ⟨c, w, rfl⟩ := List.exists_cons_of_ne_nil hne
  rw [List.cons_append, Case.upperFirst, Case.upperFirst, List.append_assoc]

/-- Words with capitals are the words but for the case. -/
theorem map_lowerCapital_pascalOf (hws : ∀ w ∈ ws, IsAsciiWord w) :
    Text.IsAscii (pascalOf ws) ∧ (pascalOf ws).map lowerCapital = ws.flatten := by
  induction ws with
  | nil => exact ⟨nofun, rfl⟩
  | cons w ws ih =>
    obtain ⟨hw, hws⟩ := List.forall_mem_cons.mp hws
    obtain ⟨hascii, hmap⟩ := ih hws
    rw [pascalOf_cons]
    refine ⟨List.forall_mem_append.mpr ⟨isAscii_upperFirst hw.ascii, hascii⟩, ?_⟩
    rw [List.map_append, map_lowerCapital_upperFirst hw.ascii, ← lower_of_ascii hw.ascii, hw.lower,
      hmap, List.flatten_cons]

/-- Words in camelCase are the words but for the case. -/
theorem map_lowerCapital_camelOf (hws : ∀ w ∈ ws, IsAsciiWord w) :
    Text.IsAscii (camelOf ws) ∧ (camelOf ws).map lowerCapital = ws.flatten := by
  cases ws with
  | nil => exact ⟨nofun, rfl⟩
  | cons w ws =>
    obtain ⟨hw, hws⟩ := List.forall_mem_cons.mp hws
    obtain ⟨hascii, hmap⟩ := map_lowerCapital_pascalOf hws
    show Text.IsAscii (w ++ pascalOf ws) ∧ (w ++ pascalOf ws).map lowerCapital = _
    refine ⟨List.forall_mem_append.mpr ⟨hw.ascii, hascii⟩, ?_⟩
    rw [List.map_append, ← lower_of_ascii hw.ascii, hw.lower, hmap, List.flatten_cons]

/-- The two conventions differ in the first character. -/
theorem pascalOf_eq_upperFirst (hws : ∀ w ∈ ws, w ≠ []) :
    pascalOf ws = Case.upperFirst (camelOf ws) := by
  cases ws with
  | nil => rfl
  | cons w ws =>
    show pascalOf (w :: ws) = Case.upperFirst (w ++ pascalOf ws)
    rw [pascalOf_cons, upperFirst_append (hws w List.mem_cons_self)]

/-- **A name in camelCase** is the letters of the name that it is made from, but for their case. -/
theorem lower_camel (h : Text.IsAscii name) :
    Case.lower (camel name) = Case.lower (letters name) := by
  obtain ⟨hascii, hmap⟩ := map_lowerCapital_camelOf fun w hw => isAsciiWord_of_mem_split h hw
  rw [camel_eq, lower_of_ascii hascii, hmap, flatten_split h]

/-- **No letter is lost in a name.** The words of a name are in lower case, hold no separators, and
are its letters one after the other. So is the name in camelCase but for the case; it holds no
separators, begins with no capital, and is the name in PascalCase but for its first character.

Each pass changes the case of capitals at most (`map_lowerCapital_collapseFrom`) or drops separators
(`flatten_pieces`), so that up to case nothing but separators is gone in the end. -/
theorem names_keep_letters (h : Text.IsAscii name) :
    (∀ w ∈ split name, w ≠ [] ∧ Case.lower w = w ∧ ∀ c ∈ w, isSeparator c = false)
      ∧ (split name).flatten = Case.lower (letters name)
      ∧ (∀ c ∈ camel name, isSeparator c = false)
      ∧ (∀ c ∈ (camel name).head?, isCapital c = false)
      ∧ Case.lower (camel name) = Case.lower (letters name)
      ∧ pascal name = Case.upperFirst (camel name) := by
  have hwords : ∀ w ∈ split name, IsAsciiWord w := fun w hw => isAsciiWord_of_mem_split h hw
  obtain ⟨-, hmap⟩ := map_lowerCapital_camelOf hwords
  rw [← camel_eq] at hmap
  refine ⟨?_, flatten_split h, ?_, ?_, lower_camel h, ?_⟩
  · intro w hw
    exact ⟨(hwords w hw).ne_nil, (hwords w hw).lower, fun c hc => ((hwords w hw).plain c hc).1⟩
  · -- a separator would be one in lower case as well, and so in a word
    intro c hc
    have hmem : lowerCapital c ∈ (split name).flatten := hmap ▸ List.mem_map_of_mem hc
    obtain ⟨w, hw, hcw⟩ := List.mem_flatten.mp hmem
    rw [← isSeparator_lowerCapital]
    exact ((hwords w hw).plain _ hcw).1
  · intro c hc
    rw [camel_eq] at hc
    cases hsplit : split name with
    | nil =>
      rw [hsplit] at hc
      cases hc
    | cons w ws =>
      have hw : IsAsciiWord w := hwords w (hsplit ▸ List.mem_cons_self)
      obtain ⟨d, w, rfl⟩ := List.exists_cons_of_ne_nil hw.ne_nil
      rw [hsplit] at hc
      obtain rfl : d = c := Option.some.inj hc
      exact (hw.plain d List.mem_cons_self).2
  · rw [pascal_eq, camel_eq]
    exact pascalOf_eq_upperFirst fun w hw => (hwords w hw).ne_nil

/-- A run of capitals up to a digit, separators of four kinds, and a word that begins with a
digit. -/
theorem names_keep_letters_mixture :
    let name : Text := "._AMO2 Base--URLs\t3d"
    Text.IsAscii name ∧ split name = ["amo2", "base", "urls", "3d"]
      ∧ letters name = "AMO2BaseURLs3d" ∧ camel name = "amo2BaseUrls3d"
      ∧ Case.lower (camel name) = Case.lower (letters name)
      ∧ pascal name = Case.upperFirst (camel name) := by
  intro name
  have hascii : Text.IsAscii name := by decide
  obtain ⟨-, -, -, -, hlower, hpascal⟩ := names_keep_letters hascii
  exact ⟨hascii, rfl, rfl, rfl, hlower, hpascal⟩

end Words

end OptionTypes
