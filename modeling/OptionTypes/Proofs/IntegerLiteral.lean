import Mathlib.Data.Nat.Digits.Lemmas
import OptionTypes.Number.Literal
import OptionTypes.Proofs.Integer
import OptionTypes.Proofs.Spelling

/-!
# Integers in every notation

A script has five ways to write an integer in full: hexadecimal, octal and binary digits after the
mark of their base, decimal digits before the letter `n`, and octal digits after a zero. The letter
may also follow the digits of a marked base. Letters among the digits are small or capital, zeros
may come first except in a decimal number, and a separator may stand between any two digits.

* `Literal.Digits` are digits of a base with their separators, `Literal.Writes` the notations.
* `Reading.integer_of_hexDigits`: what digits are read as, for whatever base they are in.
* `Literal.parse_of_writes`: an integer in any notation denotes itself.
-/

namespace OptionTypes

open Text
open Escape (HexDigit)

/-! ## Digits -/

namespace Escape.HexDigit

/-- The number that digits of a base write, most significant first. -/
def numberIn (base : Nat) (ds : List HexDigit) : Nat :=
  Nat.ofDigits base (ds.reverse.map fun d => d.value.val)

/-- What is decided for the digits below a bound, in both cases, holds of each of them. -/
theorem forall_char {p : Char → Prop} (bound : Nat)
    (hp : ∀ v : Fin 16, v.val < bound → ∀ b : Bool, p (char ⟨v, b⟩)) {ds : List HexDigit}
    (hds : ∀ d ∈ ds, d.value.val < bound) : ∀ c ∈ ds.map char, p c := by
  intro c hc
  obtain ⟨d, hd, rfl⟩ := List.mem_map.mp hc
  exact hp d.value (hds d hd) d.capital

theorem readingValue_char : ∀ d : HexDigit, Reading.digitValue d.char = d.value := by
  rintro ⟨v, b⟩
  revert v b
  decide

theorem char_eq_zero_iff : ∀ d : HexDigit, d.char = '0' ↔ d.value = 0 := by
  rintro ⟨v, b⟩
  revert v b
  decide

/-- Digits are read as the number that they write in a base. -/
theorem number_chars (base : Nat) (ds : List HexDigit) :
    Digit.number base ((ds.map char).map Reading.digitValue) = numberIn base ds := by
  rw [List.map_map]
  exact number_map base readingValue_char ds

end Escape.HexDigit

/-! ## Reading digits of any base -/

namespace Reading

/-- Whether a character belongs to a number and is no sign of it. -/
def IsUnsigned (c : Char) : Prop := IsMark c ∧ c ≠ '-' ∧ c ≠ '+'

instance (c : Char) : Decidable (IsUnsigned c) :=
  inferInstanceAs (Decidable (IsMark c ∧ c ≠ '-' ∧ c ≠ '+'))

/-- A text of digits has no sign. -/
theorem sign_body {cs : List Char} (h : ∀ c ∈ cs, IsUnsigned c) :
    sign (body (ofChars cs)) = (false, cs) := by
  rw [body_ofChars fun c hc => (h c hc).1]
  exact sign_of_unsigned fun c hc => (h c (List.mem_of_mem_head? hc)).2

/-- **Digits of any base are read as their number.** Decimal ones must be few, and a zero comes
first among them only in zero. -/
theorem integer_of_hexDigits {base actual : Nat} (start : List Char) {ds : List HexDigit}
    (hstart : ∀ c ∈ start, IsUnsigned c)
    (hmark : afterPrefix base (start ++ ds.map HexDigit.char) = (actual, ds.map HexDigit.char))
    (hne : ds ≠ []) (hdigits : ∀ d ∈ ds, d.value.val < actual)
    (hshort : isBinaryBase actual = true ∨ ds.length ≤ digitLimit)
    (hzero : base = 0 → actual = 10 → (start ++ ds.map HexDigit.char).head? = some '0' →
      HexDigit.numberIn actual ds = 0) :
    integer base (ofChars (start ++ ds.map HexDigit.char))
      = .ok (HexDigit.numberIn actual ds : Int) := by
  -- the mark of the base consists of a zero and a letter, neither of which is a sign
  have hunsigned : ∀ c ∈ start ++ ds.map HexDigit.char, IsUnsigned c :=
    List.forall_mem_append.mpr
      ⟨hstart, HexDigit.forall_char 16 (by decide) fun d _ => d.value.isLt⟩
  have hvalues : ∀ c ∈ ds.map HexDigit.char, c ≠ '_' ∧ digitValue c < actual := by
    intro c hc
    refine ⟨HexDigit.forall_char (p := (· ≠ '_')) 16 (by decide)
      (fun d _ => d.value.isLt) c hc, ?_⟩
    obtain ⟨d, hd, rfl⟩ := List.mem_map.mp hc
    rw [HexDigit.readingValue_char]
    exact hdigits d hd
  have hfits : (!isBinaryBase actual && decide (digitLimit < ds.length)) = false := by
    rcases hshort with hbinary | hshort
    · rw [hbinary]
      rfl
    · rw [decide_eq_false (Nat.not_lt.mpr hshort), Bool.and_false]
  rw [integer_of_digits (sign_body hunsigned) hmark (by simpa using hne) hvalues,
    HexDigit.number_chars, List.length_map, hfits, if_neg Bool.false_ne_true, if_neg]
  · rfl
  · simp only [Bool.and_eq_true, beq_iff_eq, bne_iff_ne, ne_eq]
    -- a zero comes first in base ten only if the number is zero
    rintro ⟨⟨⟨hbase, hactual⟩, hhead⟩, hnumber⟩
    exact hnumber (hzero hbase hactual hhead)

end Reading

namespace Literal

open Reading

/-! ## Notations -/

/-- Whether characters are digits of a base, with single separators between some of them. -/
inductive Digits (base : Nat) : List HexDigit → List Char → Prop where
  | last (d : HexDigit) (hd : d.value.val < base) : Digits base [d] [d.char]
  | next (d : HexDigit) (hd : d.value.val < base) {ds : List HexDigit} {cs : List Char}
    (h : Digits base ds cs) : Digits base (d :: ds) (d.char :: cs)
  | separated (d : HexDigit) (hd : d.value.val < base) {ds : List HexDigit} {cs : List Char}
    (h : Digits base ds cs) : Digits base (d :: ds) (d.char :: '_' :: cs)

/-- The letters that mark a base after a zero. -/
def marks : List (Char × Nat) := [('x', 16), ('X', 16), ('o', 8), ('O', 8), ('b', 2), ('B', 2)]

/-- Whether characters write an integer as a literal that is never rounded. -/
inductive Writes (n : Nat) : List Char → Prop where
  | marked {mark : Char} {base : Nat} (hmark : (mark, base) ∈ marks) {ds : List HexDigit}
    {cs : List Char} (h : Digits base ds cs) (hn : HexDigit.numberIn base ds = n) :
    Writes n ('0' :: mark :: cs)
  | markedBig {mark : Char} {base : Nat} (hmark : (mark, base) ∈ marks) {ds : List HexDigit}
    {cs : List Char} (h : Digits base ds cs) (hn : HexDigit.numberIn base ds = n) :
    Writes n ('0' :: mark :: cs ++ ['n'])
  /-- Decimal digits, the first of which is a zero only if it is the only one. -/
  | decimalBig {ds : List HexDigit} {cs : List Char} (h : Digits 10 ds cs)
    (hzero : ds.length = 1 ∨ ∀ d ∈ ds.head?, d.value ≠ 0) (hshort : ds.length ≤ digitLimit)
    (hn : HexDigit.numberIn 10 ds = n) : Writes n (cs ++ ['n'])
  | legacyOctal {zero : HexDigit} (hzero : zero.value = 0) {ds : List HexDigit} {cs : List Char}
    (h : Digits 8 (zero :: ds) cs) (hne : ds ≠ []) (hn : HexDigit.numberIn 8 ds = n) :
    Writes n cs

variable {base : Nat} {ds : List HexDigit} {cs : List Char}

theorem Digits.ne_nil (h : Digits base ds cs) : ds ≠ [] := by
  cases h <;> exact List.cons_ne_nil _ _

/-- All digits are those of the base. -/
theorem Digits.value_lt (h : Digits base ds cs) : ∀ d ∈ ds, d.value.val < base := by
  induction h with
  | last d hd => exact List.forall_mem_singleton.mpr hd
  | next d hd _ ih => exact List.forall_mem_cons.mpr ⟨hd, ih⟩
  | separated d hd _ ih => exact List.forall_mem_cons.mpr ⟨hd, ih⟩

/-- The digits are what is left without the separators. -/
theorem Digits.filter_eq (h : Digits base ds cs) :
    cs.filter (· != '_') = ds.map HexDigit.char := by
  have hplain : ∀ d : HexDigit, d.char ≠ '_' := by
    rintro ⟨v, b⟩
    revert v b
    decide
  induction h with
  | last d => simp [hplain]
  | next d _ _ ih => simp [hplain, ih]
  | separated d _ _ ih => simp [hplain, ih]

/-- Separators are left out character by character. -/
theorem withoutSeparators_ofChars (cs : List Char) :
    withoutSeparators (ofChars cs) = ofChars (cs.filter (· != '_')) := by
  rw [withoutSeparators, ofChars, ofChars, List.filter_map]
  congr 1
  refine List.filter_congr fun c _ => ?_
  simp [bne, CodePoint.char.injEq]

/-- Digits that are small enough for a base are written without separators. -/
theorem digits_of_value_lt (ds : List HexDigit) (hne : ds ≠ [])
    (hdigits : ∀ d ∈ ds, d.value.val < base) :
    Digits base ds (ds.map HexDigit.char) := by
  induction ds with
  | nil => exact absurd rfl hne
  | cons d ds ih =>
    obtain ⟨hd, hds⟩ := List.forall_mem_cons.mp hdigits
    by_cases hlast : ds = []
    · subst hlast
      exact .last d hd
    · exact .next d hd (ih hlast hds)

/-! ## Reading a notation -/

/-- The letter behind a zero is passed, and tells the base. -/
theorem afterPrefix_marked {mark : Char} (hmark : (mark, base) ∈ marks) (ds : List HexDigit) :
    afterPrefix 0 ('0' :: mark :: ds.map HexDigit.char) = (base, ds.map HexDigit.char) := by
  have hplain : ∀ c ∈ ds.map HexDigit.char, c ≠ '_' :=
    HexDigit.forall_char 16 (by decide) fun d _ => d.value.isLt
  generalize ds.map HexDigit.char = cs at hplain
  unfold afterPrefix
  extract_lets skipUnderscore
  have hkeep : skipUnderscore cs = cs := by
    unfold skipUnderscore
    split
    next => exact absurd rfl (hplain '_' List.mem_cons_self)
    next => rfl
  simp only [marks, List.mem_cons, Prod.mk.injEq, List.not_mem_nil, or_false] at hmark
  rcases hmark with ⟨rfl, rfl⟩ | ⟨rfl, rfl⟩ | ⟨rfl, rfl⟩ | ⟨rfl, rfl⟩ | ⟨rfl, rfl⟩ | ⟨rfl, rfl⟩
  all_goals simp [hkeep]

/-- Only a letter marks a base. -/
theorem afterPrefix_unmarked (hcs : ∀ c ∈ cs, c ∉ marks.map Prod.fst) :
    afterPrefix base cs = (if base = 0 then 10 else base, cs) := by
  unfold afterPrefix
  extract_lets skipUnderscore
  split
  next x rest =>
    have hx : x ∉ marks.map Prod.fst := hcs x (by simp)
    simp only [marks, List.map_cons, List.map_nil, List.mem_cons, List.not_mem_nil, or_false,
      not_or] at hx
    simp [hx]
  next => rfl

/-- Digits after the mark of a base. -/
theorem integer_marked {mark : Char} (hmark : (mark, base) ∈ marks) (hne : ds ≠ [])
    (hdigits : ∀ d ∈ ds, d.value.val < base) :
    integer 0 (ofChars ('0' :: mark :: ds.map HexDigit.char))
      = .ok (HexDigit.numberIn base ds : Int) := by
  have hmarks : ∀ m ∈ marks, IsUnsigned m.1 ∧ isBinaryBase m.2 = true := by decide
  obtain ⟨hunsigned, hbinary⟩ := hmarks _ hmark
  refine integer_of_hexDigits ['0', mark]
    (List.forall_mem_cons.mpr ⟨by decide, List.forall_mem_singleton.mpr hunsigned⟩)
    (afterPrefix_marked hmark ds) hne hdigits (.inl hbinary) ?_
  rintro - rfl
  cases hbinary

/-- Decimal digits without a zero that comes first. -/
theorem integer_decimal (hne : ds ≠ []) (hdigits : ∀ d ∈ ds, d.value.val < 10)
    (hzero : ds.length = 1 ∨ ∀ d ∈ ds.head?, d.value ≠ 0) (hshort : ds.length ≤ digitLimit) :
    integer 0 (ofChars (ds.map HexDigit.char)) = .ok (HexDigit.numberIn 10 ds : Int) := by
  have hcs := HexDigit.forall_char (p := (· ∉ marks.map Prod.fst)) _ (by decide) hdigits
  refine integer_of_hexDigits [] nofun (afterPrefix_unmarked hcs) hne hdigits
    (.inr hshort) ?_
  intro _ _ hhead
  -- a zero that comes first is the only digit
  obtain ⟨d, ds, rfl⟩ := List.exists_cons_of_ne_nil hne
  have hd : d.value = 0 := d.char_eq_zero_iff.mp (Option.some.inj hhead)
  rcases hzero with hone | hzero
  · obtain rfl : ds = [] := by simpa using hone
    simp [HexDigit.numberIn, hd]
  · exact absurd hd (hzero d rfl)

/-- Octal digits in their base. -/
theorem integer_octal (hne : ds ≠ []) (hdigits : ∀ d ∈ ds, d.value.val < 8) :
    integer 8 (ofChars (ds.map HexDigit.char)) = .ok (HexDigit.numberIn 8 ds : Int) := by
  have hcs := HexDigit.forall_char (p := (· ∉ marks.map Prod.fst)) _ (by decide) hdigits
  exact integer_of_hexDigits [] nofun (afterPrefix_unmarked hcs) hne hdigits (.inl rfl)
    nofun

/-! ## What a notation denotes -/

/-- With the letter at the end of a literal, what precedes it is read by its prefix. -/
theorem parse_big {t : Text} {n : Int} (cs : List Char)
    (ht : withoutSeparators t = ofChars (cs ++ ['n']))
    (hn : integer 0 (ofChars cs) = .ok n) : parse t = .ok (.int n) := by
  have hsplit : ofChars (cs ++ ['n']) = ofChars cs ++ [.char 'n'] := List.map_append
  rw [parse]
  simp only [ht, hsplit, List.getLast?_append, List.dropLast_concat, hn]
  rfl

/-- A literal with digits at its end has no letter there. -/
theorem getLast?_digits (start : List Char) (hne : ds ≠ []) :
    (ofChars (start ++ ds.map HexDigit.char)).getLast? ≠ some (.char 'n') := by
  have hletter : ∀ c ∈ ds.map HexDigit.char, c ≠ 'n' :=
    HexDigit.forall_char 16 (by decide) fun d _ => d.value.isLt
  have hcs : ds.map HexDigit.char ≠ [] := by simpa using hne
  intro hlast
  rw [ofChars, List.getLast?_map, List.getLast?_append_of_ne_nil _ hcs, Option.map_eq_some_iff]
    at hlast
  obtain ⟨c, hc, hn⟩ := hlast
  exact hletter c (List.mem_of_getLast? hc) (CodePoint.char.inj hn)

/-- A literal with a mark denotes the number that its digits write in the base of the mark. -/
theorem parse_marked {t : Text} {mark : Char} (hmark : (mark, base) ∈ marks) (hne : ds ≠ [])
    (hdigits : ∀ d ∈ ds, d.value.val < base)
    (ht : withoutSeparators t = ofChars ('0' :: mark :: ds.map HexDigit.char)) :
    parse t = .ok (.int (HexDigit.numberIn base ds)) := by
  have hend : (ofChars ('0' :: mark :: ds.map HexDigit.char)).getLast? ≠ some (.char 'n') :=
    getLast?_digits ['0', mark] hne
  have hprefix : hasBasePrefix (ofChars ('0' :: mark :: ds.map HexDigit.char)) = true := by
    have hmarks : ∀ m ∈ marks, "xXoObB".toList.contains m.1 = true := by decide
    exact hmarks _ hmark
  rw [parse]
  simp only [ht, if_neg hend, hprefix, if_true, integer_marked hmark hne hdigits]
  rfl

/-- Octal digits after a zero are in their base: they end in no letter, mark no base, and no digit
rules them out. -/
theorem parse_legacyOctal {t : Text} {zero : HexDigit} (hzero : zero.value = 0) (hne : ds ≠ [])
    (hdigits : ∀ d ∈ zero :: ds, d.value.val < 8)
    (ht : withoutSeparators t = ofChars ((zero :: ds).map HexDigit.char)) :
    parse t = .ok (.int (HexDigit.numberIn 8 (zero :: ds))) := by
  let bare := ofChars ((zero :: ds).map HexDigit.char)
  -- the three things that are asked before: no letter at the end, no mark of a base, octal digits
  -- only
  have hend : bare.getLast? ≠ some (.char 'n') := getLast?_digits [] (List.cons_ne_nil _ _)
  have hall : ∀ c ∈ (zero :: ds).map HexDigit.char, Digit.isDigit (.char c) = true
      ∧ Digit.isOctal c = true ∧ "xXoObB".toList.contains c = false :=
    HexDigit.forall_char 8 (by decide) hdigits
  have hoctal : isOctal bare = true := by
    refine List.all_eq_true.mpr (List.forall_mem_map.mpr fun c hc => ?_)
    exact (hall c hc).2.1
  obtain ⟨d, ds, rfl⟩ := List.exists_cons_of_ne_nil hne
  have hbare : bare = .char '0' :: .char d.char :: ofChars (ds.map HexDigit.char) := by
    rw [← zero.char_eq_zero_iff.mpr hzero]
    rfl
  have hprefix : hasBasePrefix bare = false := by
    rw [hbare]
    exact (hall d.char (by simp)).2.2
  have hlegacy : isLegacyOctal bare = true := by
    rw [hbare]
    show (List.map CodePoint.char ((d :: ds).map HexDigit.char)).all Digit.isDigit = true
    refine List.all_eq_true.mpr (List.forall_mem_map.mpr fun c hc => ?_)
    exact (hall c (List.mem_cons_of_mem _ hc)).1
  rw [parse]
  simp only [ht]
  rw [if_neg hend, hprefix, if_neg Bool.false_ne_true, if_pos hlegacy, if_pos hoctal,
    integer_octal (List.cons_ne_nil _ _) hdigits]
  rfl

/-- **An integer in any notation denotes itself.**

The notation may have separators between digits, a mark for the base in either case, zeros before
the digits, and the letter for long integers at its end. Separators go first; what is left has a
prefix that tells the base, and digits (`integer_of_hexDigits`). -/
theorem parse_of_writes {n : Nat} {cs : List Char} (h : Writes n cs) :
    parse (ofChars cs) = .ok (.int n) := by
  have hplain : ∀ m ∈ marks, m.1 ≠ '_' := by decide
  -- the four notations: a mark with or without the letter at the end, decimal digits, octal ones
  cases h with
  | @marked mark base hmark ds cs h hn =>
    refine hn ▸ parse_marked hmark h.ne_nil h.value_lt ?_
    rw [withoutSeparators_ofChars]
    simp [hplain _ hmark, h.filter_eq]
  | @markedBig mark base hmark ds cs h hn =>
    refine parse_big ('0' :: mark :: ds.map HexDigit.char) ?_
      (hn ▸ integer_marked hmark h.ne_nil h.value_lt)
    rw [withoutSeparators_ofChars]
    simp [hplain _ hmark, h.filter_eq]
  | @decimalBig ds cs h hzero hshort hn =>
    refine parse_big (ds.map HexDigit.char) ?_
      (hn ▸ integer_decimal h.ne_nil h.value_lt hzero hshort)
    rw [withoutSeparators_ofChars]
    simp [h.filter_eq]
  | @legacyOctal zero hzero ds cs h hne hn =>
    have hnumber : HexDigit.numberIn 8 (zero :: ds) = n := by
      simp [HexDigit.numberIn, Nat.ofDigits_append, hzero, ← hn]
    refine hnumber ▸ parse_legacyOctal hzero hne h.value_lt ?_
    rw [withoutSeparators_ofChars, h.filter_eq]

/-- A mark and digits in both cases after further zeros, a marked base before the letter, a decimal
number that would be rounded without it, and digits after a zero that could be decimal ones. -/
theorem parse_of_writes_notations :
    (Writes 0xBEEF "0X00_bE_eF".toList ∧ parse "0X00_bE_eF" = .ok (.int 0xBEEF))
      ∧ (Writes 5 "0B1_01n".toList ∧ parse "0B1_01n" = .ok (.int 5))
      ∧ (Writes 9007199254740993 "9_007199254740993n".toList
        ∧ parse "9_007199254740993n" = .ok (.int 9007199254740993))
      ∧ (Writes 15 "00_17".toList ∧ parse "00_17" = .ok (.int 15)) := by
  have hmarkX : ('X', 16) ∈ marks := by decide
  have hmarkB : ('B', 2) ∈ marks := by decide
  -- separators stand between digits, never two of them
  have hhex : Writes 0xBEEF "0X00_bE_eF".toList :=
    .marked hmarkX (.next ⟨0, false⟩ (by decide)
      (.separated ⟨0, false⟩ (by decide) (.next ⟨11, false⟩ (by decide)
        (.separated ⟨14, true⟩ (by decide) (.next ⟨14, false⟩ (by decide)
          (.last ⟨15, true⟩ (by decide))))))) (by decide)
  have hbinary : Writes 5 "0B1_01n".toList :=
    .markedBig hmarkB (.separated ⟨1, false⟩ (by decide)
      (.next ⟨0, false⟩ (by decide) (.last ⟨1, false⟩ (by decide)))) (by decide)
  have hplain : Digits 10 ([0, 0, 7, 1, 9, 9, 2, 5, 4, 7, 4, 0, 9, 9, 3].map (⟨·, false⟩))
      "007199254740993".toList := digits_of_value_lt _ (by decide) (by decide)
  have hdecimal : Writes 9007199254740993 "9_007199254740993n".toList :=
    .decimalBig (.separated ⟨9, false⟩ (by decide) hplain) (.inr (by decide)) (by decide)
      (by decide)
  have hoctal : Writes 15 "00_17".toList :=
    .legacyOctal (rfl : (⟨0, false⟩ : HexDigit).value = 0) (.next _ (by decide)
      (.separated ⟨0, false⟩ (by decide) (.next ⟨1, false⟩ (by decide)
        (.last ⟨7, false⟩ (by decide))))) (by decide) (by decide)
  exact ⟨⟨hhex, parse_of_writes hhex⟩, ⟨hbinary, parse_of_writes hbinary⟩,
    ⟨hdecimal, parse_of_writes hdecimal⟩, ⟨hoctal, parse_of_writes hoctal⟩⟩

end Literal

end OptionTypes
