import OptionTypes.Erasure
import OptionTypes.Proofs.Outcome
import OptionTypes.Proofs.Utf8
import OptionTypes.Script

/-!
# Erasure keeps the layout

Erasing blanks bytes of an encoding one by one. What is left is an encoding again as long as no
span cuts a character in two: then every character either stays or becomes as many blanks as it has
bytes. Line ends are single bytes and stay, so every offset stays in its line and column.

* `Erasure.IsBoundary`: an offset between two characters.
* `Erasure.blankFrom_encode`: blanking an encoding is blanking characters.
* `Erasure.lineOf_blank` and `Erasure.columnOf_blank`: no offset moves.
* `Erasure.eraseSpans_keeps_layout`: erasure succeeds and keeps the layout.
-/

namespace OptionTypes.Erasure

open Syntax TypeLayer

/-- Whether an offset into the encoding of characters lies between two of them, or at an end. -/
def IsBoundary (chars : List Char) (n : Nat) : Prop :=
  ∃ before after, chars = before ++ after ∧ n = (Utf8.encode before).length

/-- Whether an offset lies in one of several spans. -/
def Inside (spans : List Span) (n : Nat) : Prop := ∃ s ∈ spans, s.contains n = true

theorem inside_iff {spans : List Span} {n : Nat} :
    Inside spans n ↔ (spans.any fun s => s.contains n) = true := by
  simp [Inside]

theorem contains_iff {s : Span} {n : Nat} :
    s.contains n = true ↔ s.start ≤ n ∧ n < s.stop := by
  simp [Span.contains]

/-! ## Blanking bytes -/

@[simp] theorem length_blankFrom (spans : List Span) (offset : Nat) (bytes : Bytes) :
    (blankFrom spans offset bytes).length = bytes.length := by
  induction bytes generalizing offset with
  | nil => rfl
  | cons b rest ih => simp [blankFrom, ih]

/-- Each byte is blanked by its offset alone. -/
theorem getElem?_blankFrom (spans : List Span) (offset : Nat) (bytes : Bytes) (i : Nat) :
    (blankFrom spans offset bytes)[i]? = bytes[i]?.map (blankAt spans (offset + i)) := by
  induction bytes generalizing offset i with
  | nil => simp [blankFrom]
  | cons b rest ih =>
    cases i with
    | zero => simp [blankFrom]
    | succ i =>
      rw [blankFrom, List.getElem?_cons_succ, List.getElem?_cons_succ, ih]
      congr 2
      omega

/-- Two stretches of bytes are blanked one after the other, the second with the offset where it
begins. -/
theorem blankFrom_append (spans : List Span) (offset : Nat) (xs ys : Bytes) :
    blankFrom spans offset (xs ++ ys)
      = blankFrom spans offset xs ++ blankFrom spans (offset + xs.length) ys := by
  induction xs generalizing offset with
  | nil => rfl
  | cons x xs ih =>
    rw [List.cons_append, blankFrom, blankFrom, ih, List.length_cons, List.cons_append]
    congr 3
    omega

/-- Where all offsets count alike, blanking is a map. -/
theorem blankFrom_eq_map {spans : List Span} {offset : Nat} {bytes : Bytes} {f : UInt8 → UInt8}
    (h : ∀ i b, bytes[i]? = some b → blankAt spans (offset + i) b = f b) :
    blankFrom spans offset bytes = bytes.map f := by
  apply List.ext_getElem?
  intro i
  rw [getElem?_blankFrom, List.getElem?_map]
  cases hb : bytes[i]? with
  | none => rfl
  | some b =>
    rw [Option.map_some, Option.map_some, h i b hb]

/-- Line ends stay. -/
theorem blankAt_of_endsLine {spans : List Span} {offset : Nat} {b : UInt8}
    (h : endsLine b = true) : blankAt spans offset b = b := by
  simp [blankAt, h]

theorem blankAt_of_inside {spans : List Span} {offset : Nat} {b : UInt8}
    (h : endsLine b = false) (hin : Inside spans offset) : blankAt spans offset b = space := by
  rw [inside_iff] at hin
  simp only [blankAt, h, hin, Bool.not_false, Bool.and_self, if_true]

theorem blankAt_of_outside {spans : List Span} {offset : Nat} {b : UInt8}
    (hout : ¬Inside spans offset) : blankAt spans offset b = b := by
  rw [inside_iff, Bool.not_eq_true] at hout
  simp only [blankAt, hout, Bool.and_false, Bool.false_eq_true, if_false]

/-! ## Boundaries -/

/-- No boundary lies within a character. -/
theorem IsBoundary.le_or_ge {before after : List Char} {c : Char} {n : Nat}
    (h : IsBoundary (before ++ c :: after) n) :
    n ≤ (Utf8.encode before).length ∨ (Utf8.encode before).length + Utf8.size c ≤ n := by
  obtain ⟨left, right, hsplit, rfl⟩ := h
  -- two splits of the same characters: one of them is a prefix of the other
  rcases List.append_eq_append_iff.mp hsplit with ⟨more, hleft, hmore⟩ | ⟨more, hbefore, -⟩
  · cases more with
    | nil =>
      left
      simp [hleft]
    | cons d more =>
      right
      obtain ⟨rfl, -⟩ := List.cons.inj hmore
      rw [hleft, Utf8.encode_append, Utf8.encode_cons, List.length_append, List.length_append,
        Utf8.length_encodeChar]
      omega
  · left
    rw [hbefore, Utf8.encode_append, List.length_append]
    omega

/-- So a character lies in a span with all of its bytes or with none. -/
theorem inside_character_iff {before after : List Char} {c : Char} {spans : List Span}
    (hspans : ∀ s ∈ spans, IsBoundary (before ++ c :: after) s.start
      ∧ IsBoundary (before ++ c :: after) s.stop) {i : Nat} (hi : i < Utf8.size c) :
    Inside spans ((Utf8.encode before).length + i) ↔ Inside spans (Utf8.encode before).length := by
  have hsame : ∀ s ∈ spans, s.contains ((Utf8.encode before).length + i) = true
      ↔ s.contains (Utf8.encode before).length = true := by
    intro s hs
    -- both ends of a span lie before the character or after it
    have hstart := (hspans s hs).1.le_or_ge
    have hstop := (hspans s hs).2.le_or_ge
    rw [contains_iff, contains_iff]
    omega
  constructor
  · rintro ⟨s, hs, hin⟩
    exact ⟨s, hs, (hsame s hs).mp hin⟩
  · rintro ⟨s, hs, hin⟩
    exact ⟨s, hs, (hsame s hs).mpr hin⟩

/-! ## Blanking characters -/

theorem endsLine_iff {b : UInt8} : endsLine b = true ↔ b.toNat = 0x0A ∨ b.toNat = 0x0D := by
  simp only [endsLine, Bool.or_eq_true, beq_iff_eq, ← UInt8.toNat_inj]
  rfl

/-- Bytes that end a line occur in the encodings of the two line ends only. -/
theorem endsLine_eq_false_of_mem {c : Char} (hlf : c ≠ '\n') (hcr : c ≠ '\r') {b : UInt8}
    (hb : b ∈ Utf8.encodeChar c) : endsLine b = false := by
  have hlf' : c.toNat ≠ 0x0A := fun h => hlf (by rw [← Utf8.charOf_toNat c, h]; rfl)
  have hcr' : c.toNat ≠ 0x0D := fun h => hcr (by rw [← Utf8.charOf_toNat c, h]; rfl)
  rw [← Bool.not_eq_true, endsLine_iff]
  rcases Utf8.toNat_of_mem_encodeChar hb with h | h
  · omega
  · omega

/-- A line end is encoded with one byte that ends the line. -/
theorem endsLine_of_mem {c : Char} (hc : c = '\n' ∨ c = '\r') {b : UInt8}
    (hb : b ∈ Utf8.encodeChar c) : endsLine b = true := by
  rcases hc with rfl | rfl
  · have hb : b = 0x0A := List.mem_singleton.mp hb
    rw [hb]
    rfl
  · have hb : b = 0x0D := List.mem_singleton.mp hb
    rw [hb]
    rfl

/-- The character at an offset, or as many blanks as it has bytes if it lies in a span and ends no
line. -/
def blankChar (spans : List Span) (offset : Nat) (c : Char) : List Char :=
  if !(c == '\n' || c == '\r') && spans.any (·.contains offset) then
    List.replicate (Utf8.size c) ' '
  else [c]

/-- Characters from an offset on with those in spans turned into blanks. -/
def blankChars (spans : List Span) : Nat → List Char → List Char
  | _, [] => []
  | offset, c :: cs => blankChar spans offset c ++ blankChars spans (offset + Utf8.size c) cs

/-- Blanks are encoded with a byte each. -/
theorem encode_replicate_blank (n : Nat) :
    Utf8.encode (List.replicate n ' ') = List.replicate n space := by
  induction n with
  | zero => rfl
  | succ n ih =>
    rw [List.replicate_succ, Utf8.encode_cons, ih]
    rfl

/-- All bytes of a character are treated like its first one. -/
theorem blankAt_within {before after : List Char} {c : Char} {spans : List Span}
    (hspans : ∀ s ∈ spans, IsBoundary (before ++ c :: after) s.start
      ∧ IsBoundary (before ++ c :: after) s.stop) {i : Nat} (hi : i < Utf8.size c) (b : UInt8) :
    blankAt spans ((Utf8.encode before).length + i) b
      = blankAt spans (Utf8.encode before).length b := by
  have hinside : spans.any (·.contains ((Utf8.encode before).length + i))
      = spans.any (·.contains (Utf8.encode before).length) := by
    rw [Bool.eq_iff_iff, ← inside_iff, ← inside_iff]
    exact inside_character_iff hspans hi
  rw [blankAt, blankAt, hinside]

/-- Blanking the bytes of one character blanks the character. -/
theorem blankFrom_encodeChar {before after : List Char} {c : Char} {spans : List Span}
    (hspans : ∀ s ∈ spans, IsBoundary (before ++ c :: after) s.start
      ∧ IsBoundary (before ++ c :: after) s.stop) :
    blankFrom spans (Utf8.encode before).length (Utf8.encodeChar c)
      = Utf8.encode (blankChar spans (Utf8.encode before).length c) := by
  have hmap : blankFrom spans (Utf8.encode before).length (Utf8.encodeChar c)
      = (Utf8.encodeChar c).map (blankAt spans (Utf8.encode before).length) := by
    refine blankFrom_eq_map fun i b hb => blankAt_within hspans ?_ b
    rw [← Utf8.length_encodeChar c]
    exact (List.getElem?_eq_some_iff.mp hb).1
  rw [hmap, blankChar]
  -- all bytes of the character become blanks, or none of them does
  split
  next hblank =>
    simp only [Bool.and_eq_true, Bool.not_eq_true', Bool.or_eq_false_iff,
      beq_eq_false_iff_ne] at hblank
    have hspace : ∀ b ∈ Utf8.encodeChar c, blankAt spans (Utf8.encode before).length b = space :=
      fun b hb => blankAt_of_inside (endsLine_eq_false_of_mem hblank.1.1 hblank.1.2 hb)
        (inside_iff.mpr hblank.2)
    rw [List.map_congr_left hspace, List.map_const', Utf8.length_encodeChar, encode_replicate_blank]
  next hkeep =>
    have hsame : ∀ b ∈ Utf8.encodeChar c, blankAt spans (Utf8.encode before).length b = b := by
      intro b hb
      by_cases hin : Inside spans (Utf8.encode before).length
      · -- a character inside a span is kept only if it ends a line
        have hend : c = '\n' ∨ c = '\r' := by
          by_contra hne
          rw [not_or] at hne
          apply hkeep
          simp only [Bool.and_eq_true, Bool.not_eq_true', Bool.or_eq_false_iff,
            beq_eq_false_iff_ne]
          exact ⟨hne, inside_iff.mp hin⟩
        exact blankAt_of_endsLine (endsLine_of_mem hend hb)
      · exact blankAt_of_outside hin
    rw [List.map_congr_left hsame, List.map_id', Utf8.encode_cons, Utf8.encode_nil,
      List.append_nil]

/-- **Blanking an encoding is blanking characters.** Induction on the characters that are left; the
characters before them say where they start. -/
theorem blankFrom_encode {spans : List Span} (before after : List Char)
    (hspans : ∀ s ∈ spans, IsBoundary (before ++ after) s.start
      ∧ IsBoundary (before ++ after) s.stop) :
    blankFrom spans (Utf8.encode before).length (Utf8.encode after)
      = Utf8.encode (blankChars spans (Utf8.encode before).length after) := by
  induction after generalizing before with
  | nil => rfl
  | cons c cs ih =>
    have hnext : (Utf8.encode before).length + Utf8.size c
        = (Utf8.encode (before ++ [c])).length := by
      rw [Utf8.encode_append, List.length_append, Utf8.encode_cons, Utf8.encode_nil,
        List.append_nil, Utf8.length_encodeChar]
    have hrest := ih (before ++ [c]) (by rwa [List.append_assoc, List.singleton_append])
    rw [Utf8.encode_cons, blankFrom_append, Utf8.length_encodeChar, blankChars,
      Utf8.encode_append, blankFrom_encodeChar hspans, hnext, hrest]

/-! ## Lines and columns

The line and the column of an offset depend on the line ends before it only, and line ends stay. -/

/-- Where lines end among bytes. -/
def lineEnds (bytes : Bytes) : List Bool := bytes.map (· == 0x0A)

/-- **Blanking neither makes nor removes line ends.** A byte that ends a line is kept, and the blank
that takes the place of any other byte ends none. -/
theorem lineEnds_blank (spans : List Span) (bytes : Bytes) :
    lineEnds (blank spans bytes) = lineEnds bytes := by
  apply List.ext_getElem?
  intro i
  rw [lineEnds, lineEnds, List.getElem?_map, List.getElem?_map, blank, getElem?_blankFrom]
  cases bytes[i]? with
  | none => rfl
  | some b =>
    simp only [Option.map_some, Nat.zero_add]
    by_cases hend : endsLine b = true
    · rw [blankAt_of_endsLine hend]
    · rw [Bool.not_eq_true] at hend
      have hne : (b == 0x0A) = false := (Bool.or_eq_false_iff.mp hend).1
      by_cases hin : Inside spans i
      · rw [blankAt_of_inside hend hin, hne]
        rfl
      · rw [blankAt_of_outside hin]

/-- The line of an offset is counted by the line ends before it. -/
theorem lineOf_eq (bytes : Bytes) (n : Nat) :
    Place.lineOf bytes n = ((lineEnds bytes).take n).count true + 1 := by
  rw [Place.lineOf, lineEnds, ← List.map_take, List.count_eq_countP, List.count_eq_countP,
    List.countP_map]
  congr 2
  funext b
  simp

/-- The column of an offset is counted from the last line end before it. -/
theorem columnOf_eq (bytes : Bytes) (n : Nat) :
    Place.columnOf bytes n = (((lineEnds bytes).take n).reverse.takeWhile (!·)).length + 1 := by
  rw [Place.columnOf, lineEnds, ← List.map_take, ← List.map_reverse, List.takeWhile_map,
    List.length_map]
  rfl

/-- An offset stays in its line. -/
theorem lineOf_blank (spans : List Span) (bytes : Bytes) (n : Nat) :
    Place.lineOf (blank spans bytes) n = Place.lineOf bytes n := by
  rw [lineOf_eq, lineOf_eq, lineEnds_blank]

/-- An offset stays in its column. -/
theorem columnOf_blank (spans : List Span) (bytes : Bytes) (n : Nat) :
    Place.columnOf (blank spans bytes) n = Place.columnOf bytes n := by
  rw [columnOf_eq, columnOf_eq, lineEnds_blank]

/-! ## Erasure -/

/-- What erasure keeps of a source: its length, its bytes outside the spans, its line ends, and the
line and the column of every offset. -/
structure LayoutKept (spans : List Span) (before after : Bytes) : Prop where
  length : after.length = before.length
  same_or_blank : ∀ (i : Nat) (b : UInt8), before[i]? = some b →
    after[i]? = some b ∨ after[i]? = some space ∧ endsLine b = false ∧ Inside spans i
  blank_inside : ∀ (i : Nat) (b : UInt8), before[i]? = some b → endsLine b = false →
    Inside spans i → after[i]? = some space
  line : ∀ n, Place.lineOf after n = Place.lineOf before n
  column : ∀ n, Place.columnOf after n = Place.columnOf before n

/-- Blanking keeps the layout, whatever the spans are. -/
theorem layoutKept_blank (spans : List Span) (bytes : Bytes) :
    LayoutKept spans bytes (blank spans bytes) where
  length := length_blankFrom spans 0 bytes
  same_or_blank := by
    intro i b hb
    rw [blank, getElem?_blankFrom, hb, Option.map_some, Nat.zero_add]
    by_cases hend : endsLine b = true
    · left
      rw [blankAt_of_endsLine hend]
    · rw [Bool.not_eq_true] at hend
      by_cases hin : Inside spans i
      · right
        exact ⟨by rw [blankAt_of_inside hend hin], hend, hin⟩
      · left
        rw [blankAt_of_outside hin]
  blank_inside := by
    intro i b hb hend hin
    rw [blank, getElem?_blankFrom, hb, Option.map_some, Nat.zero_add, blankAt_of_inside hend hin]
  line := lineOf_blank spans bytes
  column := columnOf_blank spans bytes

/-- What is left of an encoding is one. -/
theorem blank_encode {chars : List Char} {spans : List Span}
    (hspans : ∀ s ∈ spans, IsBoundary chars s.start ∧ IsBoundary chars s.stop) :
    blank spans (Utf8.encode chars) = Utf8.encode (blankChars spans 0 chars) :=
  blankFrom_encode [] chars hspans

/-- So it is decoded. -/
theorem eraseSpans_eq {chars : List Char} {spans : List Span}
    (hspans : ∀ s ∈ spans, IsBoundary chars s.start ∧ IsBoundary chars s.stop) :
    eraseSpans spans chars = .ok (Text.ofChars (blankChars spans 0 chars)) := by
  rw [eraseSpans, blank_encode hspans, Utf8.decode_encode]
  rfl

/-- A fault is reported at the place of the first node that is at fault. -/
theorem place_of_read_eq_fault {chars : List Char} {f : SyntaxFault}
    (h : Script.read (Text.ofChars chars) = .error (.fault f)) :
    ∃ t, firstFault? (Dialect.javascript.parse chars) = some t
      ∧ f.line = Place.lineOf (Utf8.encode chars) t.start
      ∧ f.column = Place.columnOf (Utf8.encode chars) t.start := by
  rw [Script.read, Utf8.charsOfText_ofChars] at h
  simp only [Except.mapError, bind, Except.bind] at h
  cases ht : firstFault? (Dialect.javascript.parse chars) with
  | none =>
    rw [ht] at h
    cases h
  | some t =>
    rw [ht] at h
    cases h
    exact ⟨t, rfl, rfl, rfl⟩

/-- **Erasing spans between characters succeeds and keeps the layout.** The spans may come in any
order, overlap, nest or be empty. A fault found in what is left is reported at the line and the
column that its offset has in the original source.

Since the spans end between characters, each character is blanked as a whole or not at all
(`blankFrom_encode`), so what is left is an encoding again. The layout is kept byte by byte
(`layoutKept_blank`). -/
theorem eraseSpans_keeps_layout (text : Text) (chars : List Char) (spans : List Span)
    (htext : Utf8.charsOfText text = .ok chars)
    (hspans : ∀ s ∈ spans, IsBoundary chars s.start ∧ IsBoundary chars s.stop) :
    ∃ rest : List Char,
      eraseSpans spans chars = .ok (Text.ofChars rest)
        ∧ (spans = TypeLayer.spans (Dialect.typescript.parse chars) →
            erase text = .ok (Text.ofChars rest))
        ∧ LayoutKept spans (Utf8.encode chars) (Utf8.encode rest)
        ∧ ∀ f, Script.read (Text.ofChars rest) = .error (.fault f) →
            ∃ t, firstFault? (Dialect.javascript.parse rest) = some t
              ∧ f.line = Place.lineOf (Utf8.encode chars) t.start
              ∧ f.column = Place.columnOf (Utf8.encode chars) t.start := by
  have hok := eraseSpans_eq hspans
  have hkept : LayoutKept spans (Utf8.encode chars) (Utf8.encode (blankChars spans 0 chars)) := by
    rw [← blank_encode hspans]
    exact layoutKept_blank spans (Utf8.encode chars)
  refine ⟨blankChars spans 0 chars, hok, ?_, hkept, ?_⟩
  · rintro rfl
    rw [erase, htext]
    change (eraseSpans (TypeLayer.spans (Dialect.typescript.parse chars)) chars).mapError
      Error.decoding = _
    rw [hok]
    rfl
  · intro f hf
    obtain ⟨t, ht, hline, hcolumn⟩ := place_of_read_eq_fault hf
    exact ⟨t, ht, by rw [hline, hkept.line], by rw [hcolumn, hkept.column]⟩

/-- Spans that overlap, nest or are empty in a text with characters of several lengths. -/
theorem eraseSpans_keeps_layout_of_overlaps :
    let chars := ['a', 'é', '\n', '€', 'b']
    let spans : List Span := [⟨1, 7⟩, ⟨3, 4⟩, ⟨8, 8⟩, ⟨4, 7⟩, ⟨0, 3⟩]
    (∀ s ∈ spans, IsBoundary chars s.start ∧ IsBoundary chars s.stop)
      ∧ ∃ rest, eraseSpans spans chars = .ok (Text.ofChars rest)
        ∧ LayoutKept spans (Utf8.encode chars) (Utf8.encode rest) := by
  intro chars spans
  have hsplit : ∀ s ∈ spans, IsBoundary chars s.start ∧ IsBoundary chars s.stop := by
    intro s hs
    simp only [spans, List.mem_cons, List.not_mem_nil, or_false] at hs
    rcases hs with rfl | rfl | rfl | rfl | rfl
    · exact ⟨⟨['a'], ['é', '\n', '€', 'b'], rfl, by decide⟩,
        ⟨['a', 'é', '\n', '€'], ['b'], rfl, by decide⟩⟩
    · exact ⟨⟨['a', 'é'], ['\n', '€', 'b'], rfl, by decide⟩,
        ⟨['a', 'é', '\n'], ['€', 'b'], rfl, by decide⟩⟩
    · exact ⟨⟨chars, [], rfl, by decide⟩, ⟨chars, [], rfl, by decide⟩⟩
    · exact ⟨⟨['a', 'é', '\n'], ['€', 'b'], rfl, by decide⟩,
        ⟨['a', 'é', '\n', '€'], ['b'], rfl, by decide⟩⟩
    · exact ⟨⟨[], chars, rfl, by decide⟩, ⟨['a', 'é'], ['\n', '€', 'b'], rfl, by decide⟩⟩
  obtain ⟨rest, hok, -, hkept, -⟩ :=
    eraseSpans_keeps_layout (Text.ofChars chars) chars spans (Utf8.charsOfText_ofChars chars) hsplit
  exact ⟨hsplit, rest, hok, hkept⟩

end OptionTypes.Erasure
