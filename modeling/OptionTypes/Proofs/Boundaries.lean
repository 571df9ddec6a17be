import OptionTypes.Proofs.Extraction
import OptionTypes.Proofs.Grammar.Sequence
import OptionTypes.Proofs.Unchanged

/-!
# Boundaries of statements that erasure keeps

Erasure leaves all offsets as they are, so the statements of a script without its types can be
compared with those of the script with types by where they begin. They need not be the same: a
semicolon that is not written is found by what follows, and what follows may have been erased. The
statements `let x = a` and `(b)` become one when the type alias between them is gone.

* `isBlank_of_inside`: the characters left at erased bytes are blanks.
* `starts_eq_keptStarts_iff`: no statement begins at an erased byte, and the statements that are
  left begin where they did exactly when each of them still ends before the next one.
-/

namespace OptionTypes.Erasure

open Syntax TypeLayer

/-- The statements of a program that are not erased as a whole. -/
def keptStatements (root : Tree) : List Tree := root.statements.filter fun t => !isWhole t

/-- Where they begin. -/
def keptStarts (root : Tree) : List Nat := (keptStatements root).map Tree.start

/-! ## What is left at erased bytes -/

/-- Every character has a first byte. -/
theorem exists_getElem?_encode {source rest : List Char} {a : Char} {n : Nat}
    (h : Within source (a :: rest) n) :
    ∃ b ∈ Utf8.encodeChar a, (Utf8.encode source)[n]? = some b := by
  obtain ⟨before, rfl, rfl⟩ := h
  have hsize := Utf8.size_pos a
  rw [← Utf8.length_encodeChar] at hsize
  refine ⟨(Utf8.encodeChar a)[0], List.getElem_mem hsize, ?_⟩
  rw [Utf8.encode_append, List.getElem?_append_right (Nat.le_refl _), Nat.sub_self,
    Utf8.encode_cons, List.getElem?_append_left hsize, List.getElem?_eq_getElem hsize]

/-- A character one byte of which is a blank or ends a line is one of these. -/
theorem isBlank_of_isBlank_byte {a : Char} {b : UInt8} (hb : b ∈ Utf8.encodeChar a)
    (h : IsBlank b) : isBlank a = true := by
  have hnumber : b.toNat = 0x20 ∨ b.toNat = 0x0A ∨ b.toNat = 0x0D := by
    rcases h with rfl | hend
    · exact .inl rfl
    · exact .inr (endsLine_iff.mp hend)
  -- bytes of longer characters are out of that range
  have hsame : b.toNat = a.toNat := by
    rcases Utf8.toNat_of_mem_encodeChar hb with hsame | hhigh
    · exact hsame
    · omega
  rw [hsame] at hnumber
  rcases hnumber with h | h | h
  · simp [isBlank, h]
  · simp [isBlank, h]
  · simp [isBlank, h]

/-- **The characters that are left at erased bytes are blanks.** -/
theorem isBlank_of_inside {spans : List Span} {chars left rest : List Char} {a : Char} {n : Nat}
    (hblank : Utf8.encode left = blank spans (Utf8.encode chars))
    (h : Within left (a :: rest) n) (hinside : Inside spans n) : isBlank a = true := by
  obtain ⟨b, hb, hat⟩ := exists_getElem?_encode h
  rw [hblank, blank, getElem?_blankFrom, Option.map_eq_some_iff] at hat
  obtain ⟨old, -, rfl⟩ := hat
  rw [Nat.zero_add] at hb
  exact isBlank_of_isBlank_byte hb (isBlank_blankAt old hinside)

/-! ## Erased scripts -/

/-- What is left when a text is erased. -/
theorem exists_of_erase_eq_ok {text stripped : Text} (h : erase text = .ok stripped) :
    ∃ chars left, text = Text.ofChars chars ∧ stripped = Text.ofChars left
      ∧ Utf8.encode left
        = blank (spans (Dialect.typescript.parse chars)) (Utf8.encode chars) := by
  obtain ⟨chars, hchars, h⟩ := Outcome.bind_eq_ok_iff.mp h
  rw [Outcome.mapError_eq_ok_iff] at hchars h
  obtain ⟨left, hleft, rfl⟩ := Outcome.map_eq_ok_iff.mp h
  exact ⟨chars, left, Utf8.eq_ofChars_of_charsOfText hchars, rfl, Utf8.encode_of_decode hleft⟩

/-- **When erasure keeps the boundaries of statements.** No statement of what is left begins at a
byte of the type layer. The statements begin where those that are kept did exactly when the first
token is that of the first one, and each of them, read on its own in what is left, ends before the
token that the next one begins with.

That erasure succeeds and what it leaves is `eraseSpans_keeps_layout`; a statement of what is left
begins with a token (`statementIn_of_read`), and a blank begins none. For the equivalence, the
statements of a source are those that follow one another from its first token on
(`starts_eq_iff`). -/
theorem starts_eq_keptStarts_iff {text stripped : Text} {script : Script}
    (herase : erase text = .ok stripped) (hread : Script.read stripped = .ok script) :
    ∃ chars left, text = Text.ofChars chars ∧ stripped = Text.ofChars left
      ∧ (∀ n ∈ script.root.starts, n ∉ layer none none (Dialect.typescript.parse chars))
      ∧ (script.root.starts = keptStarts (Dialect.typescript.parse chars)
        ↔ StatementsAt (isRepaired left) left (depthFor left.length)
          (afterHashBang left).skip.position (keptStarts (Dialect.typescript.parse chars))) := by
  obtain ⟨chars, left, rfl, rfl, hblank⟩ := exists_of_erase_eq_ok herase
  obtain ⟨cs, hcs, rfl, hnone⟩ := Registration.eq_scriptOf_of_read hread
  obtain rfl := ofChars_injective hcs
  refine ⟨chars, left, rfl, rfl, ?_, starts_eq_iff hnone _⟩
  -- a statement begins at a token, and all that is left at erased bytes is blank
  intro n hn hlayer
  obtain ⟨a, rest, hwithin, htoken⟩ := (starts_of_read (read_eq_of_firstFault? hnone)).2 n hn
  rw [← (runs_iff_and_covered_spans _).2] at hlayer
  have hblanked := isBlank_of_inside hblank hwithin (inside_iff_mem_covered.mpr hlayer)
  rw [htoken] at hblanked
  cases hblanked

/-- The script that is left of characters. -/
theorem erase_eq_ok {chars left : List Char}
    (h : blank (spans (Dialect.typescript.parse chars)) (Utf8.encode chars) = Utf8.encode left) :
    erase (Text.ofChars chars) = .ok (Text.ofChars left) := by
  rw [erase, Utf8.charsOfText_ofChars]
  show (eraseSpans _ chars).mapError Error.decoding = _
  rw [eraseSpans, h, Utf8.decode_encode]
  rfl

/-- A declaration with an annotation and a call after an alias: both are read as they were. -/
theorem starts_annotated :
    let chars := "type T = string;\nlet x: T = a;\nf(x)".toList
    let left := "                \nlet x    = a;\nf(x)".toList
    erase (Text.ofChars chars) = .ok (Text.ofChars left)
      ∧ Script.read (Text.ofChars left) = .ok (Registration.scriptOf left)
      ∧ keptStarts (Dialect.typescript.parse chars) = [17, 31]
      ∧ StatementsAt (isRepaired left) left (depthFor left.length)
        (afterHashBang left).skip.position [17, 31]
      ∧ ∀ n ∈ [17, 31], n ∉ layer none none (Dialect.typescript.parse chars) := by
  intro chars left
  have herase : erase (Text.ofChars chars) = .ok (Text.ofChars left) :=
    erase_eq_ok (by decide +kernel)
  have hread : Script.read (Text.ofChars left) = .ok (Registration.scriptOf left) :=
    Registration.read_eq_ok (by decide +kernel)
  have hkept : keptStarts (Dialect.typescript.parse chars) = [17, 31] := by decide +kernel
  have hstarts : (Registration.scriptOf left).root.starts = [17, 31] := by decide +kernel
  obtain ⟨cs, ds, hcs, hds, houtside, hiff⟩ := starts_eq_keptStarts_iff herase hread
  obtain rfl := ofChars_injective hcs
  obtain rfl := ofChars_injective hds
  rw [hstarts] at houtside
  rw [hstarts, hkept] at hiff
  exact ⟨herase, hread, hkept, hiff.mp rfl, houtside⟩

/-- Boundaries are not always kept: without the alias between them a declaration and an expression
in parentheses are one declaration with a call. -/
theorem not_forall_starts_eq_keptStarts :
    ¬∀ chars stripped script, firstFault? (Dialect.typescript.parse chars) = none →
      erase (Text.ofChars chars) = .ok stripped → Script.read stripped = .ok script →
      script.root.starts = keptStarts (Dialect.typescript.parse chars) := by
  intro h
  let chars := "let x = a\ntype T = string;\n(b)".toList
  let left := "let x = a\n                \n(b)".toList
  have hfault : (firstFault? (Dialect.typescript.parse chars)).isNone = true := by decide +kernel
  have hjoined := h chars (Text.ofChars left) (Registration.scriptOf left)
    (Option.isNone_iff_eq_none.mp hfault) (erase_eq_ok (by decide +kernel))
    (Registration.read_eq_ok (by decide +kernel))
  have hkept : keptStarts (Dialect.typescript.parse chars) = [0, 27] := by decide +kernel
  have hleft : (Registration.scriptOf left).root.starts = [0] := by decide +kernel
  rw [hkept, hleft] at hjoined
  cases hjoined

end OptionTypes.Erasure
