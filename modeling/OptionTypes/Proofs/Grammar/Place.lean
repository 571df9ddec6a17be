import OptionTypes.Proofs.Grammar.Cursor
import OptionTypes.Syntax.Program

/-!
# Places in a source

What a reader finds depends on the source and on the place in it that it starts from. The comments
that were passed on the way to that place are of no account: they are collected for later.

* `Cursor.SamePlace` relates two cursors at one place of a source.
* `Cursor.SamePlace.skip`, `Cursor.SamePlace.advance` and `Cursor.SamePlace.place?`: moving both of
  them leads to one place again.
* `Cursor.skip_skip`: there is nothing to skip where a skip has ended.
-/

namespace OptionTypes.Syntax

/-! ## Offsets -/

/-- Widths add up to the length of the encoding. Induction on the characters. -/
theorem foldl_width (cs : List Char) (n : Nat) :
    cs.foldl (fun n c => n + Cursor.width c) n = n + (Utf8.encode cs).length := by
  induction cs generalizing n with
  | nil => rfl
  | cons c cs ih =>
    rw [List.foldl_cons, ih, Utf8.encode_cons, List.length_append, Utf8.length_encodeChar,
      Cursor.width, Nat.add_assoc]

/-- The length of a source is that of its encoding. -/
theorem byteLength_eq (cs : List Char) : byteLength cs = (Utf8.encode cs).length := by
  rw [byteLength, foldl_width, Nat.zero_add]

/-- Whether characters are what a source has from an offset on. -/
def Within (source cs : List Char) (n : Nat) : Prop :=
  ∃ before, source = before ++ cs ∧ n = (Utf8.encode before).length

namespace Within

variable {source cs : List Char} {c : Char} {n : Nat}

theorem start (source : List Char) : Within source source 0 := ⟨[], rfl, rfl⟩

/-- A character further on, the offset is larger by the width of that character. -/
theorem next (h : Within source (c :: cs) n) : Within source cs (n + Cursor.width c) := by
  obtain ⟨before, hsource, rfl⟩ := h
  refine ⟨before ++ [c], by rw [hsource, List.append_assoc, List.singleton_append], ?_⟩
  rw [Utf8.encode_append, List.length_append, Utf8.encode_cons, Utf8.encode_nil, List.append_nil,
    Utf8.length_encodeChar, Cursor.width]

/-- Only at its end nothing is left of a source. -/
theorem eq_nil_iff (h : Within source cs n) : cs = [] ↔ n = byteLength source := by
  obtain ⟨before, rfl, rfl⟩ := h
  rw [byteLength_eq, Utf8.encode_append, List.length_append]
  cases cs with
  | nil =>
    constructor
    · intro _
      rfl
    · intro _
      rfl
  | cons c cs =>
    -- every character takes at least one byte, so a place with text behind it is before the end
    have hpos := Utf8.size_pos c
    rw [← Utf8.length_encodeChar] at hpos
    rw [Utf8.encode_cons, List.length_append]
    constructor
    · intro h
      cases h
    · intro h
      omega

/-- What a source has from an offset on is found again from the offset. -/
theorem charsFrom_eq (h : Within source cs n) : faultAt.charsFrom n source = cs := by
  obtain ⟨before, rfl, rfl⟩ := h
  induction before with
  | nil =>
    rw [List.nil_append, Utf8.encode_nil, List.length_nil, faultAt.charsFrom]
  | cons c before ih =>
    have hpos := Utf8.size_pos c
    obtain ⟨m, hm⟩ : ∃ m, (Utf8.encode (c :: before)).length = m + 1 := by
      refine ⟨(Utf8.encode (c :: before)).length - 1, ?_⟩
      rw [Utf8.encode_cons, List.length_append, Utf8.length_encodeChar]
      omega
    rw [hm, List.cons_append, faultAt.charsFrom, ← hm, Utf8.encode_cons, List.length_append,
      Utf8.length_encodeChar, Cursor.width, Nat.add_sub_cancel_left]
    exact ih

end Within

namespace Cursor

/-! ## Two cursors at one place -/

/-- Whether two cursors are at the same place of a source. -/
structure SamePlace (source : List Char) (c c' : Cursor) : Prop where
  rest : c'.rest = c.rest
  position : c'.position = c.position
  within : Within source c.rest c.position

namespace SamePlace

variable {source : List Char} {c c' : Cursor}

/-- Two cursors that differ in the comments they know. -/
theorem of_within {cs : List Char} {n : Nat} (h : Within source cs n) (found found' : List Tree) :
    SamePlace source ⟨cs, n, found⟩ ⟨cs, n, found'⟩ := ⟨rfl, rfl, h⟩

/-- Two cursors that move by as many characters stay together. -/
theorem advance (h : SamePlace source c c') (n : Nat) :
    SamePlace source (c.advance n) (c'.advance n) := by
  induction n generalizing c c' with
  | zero => exact h
  | succ n ih =>
    obtain ⟨rest, position, found⟩ := c
    obtain ⟨rest', position', found'⟩ := c'
    obtain ⟨hrest, hposition, hwithin⟩ := h
    simp only at hrest hposition hwithin
    subst hrest
    subst hposition
    cases rest' with
    | nil => exact of_within hwithin _ _
    | cons a rest => exact ih (of_within hwithin.next found found')

end SamePlace

/-! ## The steps of a scan

One equation for each thing that a scan can meet: outside of comments a blank, the start of either
comment, a slash that starts none, or a token; inside of one its end, or anything else. -/

section Steps

variable {n start : Nat} {found : List Tree} {pauses : List Cursor} {c : Char} {rest : List Char}
  {entry : Cursor} {star : Bool}

/-- A blank outside of comments is passed. -/
theorem scan_blank (h : isBlank c = true) :
    scan .outside n found pauses (c :: rest) = scan .outside (n + width c) found pauses rest :=
  if_pos h

/-- Two slashes start a comment that goes on to the end of the line. -/
theorem scan_lineComment :
    scan .outside n found pauses ('/' :: '/' :: rest)
      = scan (.line n) (n + 1) found pauses ('/' :: rest) := rfl

/-- The place where the comment starts is kept, as the scan returns there if the comment has no
end. -/
theorem scan_blockComment :
    scan .outside n found pauses ('/' :: '*' :: rest)
      = scan (.block n ⟨'/' :: '*' :: rest, n, found⟩ true) (n + 1) found pauses
        ('*' :: rest) := rfl

/-- A slash that starts no comment is a token, and the scan ends. -/
theorem scan_slash (hline : ∀ cs, rest ≠ '/' :: cs) (hblock : ∀ cs, rest ≠ '*' :: cs) :
    scan .outside n found pauses ('/' :: rest) = (⟨'/' :: rest, n, found⟩, pauses) := by
  have hblank : isBlank '/' = false := by decide
  rw [scan.eq_def]
  simp only [hblank, Bool.false_eq_true, if_false, if_true]

/-- Any other character that is no blank is a token. -/
theorem scan_token (hblank : ¬isBlank c = true) (hslash : c ≠ '/') :
    scan .outside n found pauses (c :: rest) = (⟨c :: rest, n, found⟩, pauses) := by
  rw [scan.eq_def]
  simp only [hblank, hslash, Bool.false_eq_true, if_false]

/-- The end of the line ends the comment, and is passed behind it. -/
theorem scan_lineEnd (h : isLineEnd c = true) :
    scan (.line start) n found pauses (c :: rest)
      = scan .outside (n + width c) (commentLeaf start n :: found)
        (⟨c :: rest, n, commentLeaf start n :: found⟩ :: pauses) rest := if_pos h

/-- Any other character belongs to the comment. -/
theorem scan_inLine (h : ¬isLineEnd c = true) :
    scan (.line start) n found pauses (c :: rest)
      = scan (.line start) (n + width c) found pauses rest := if_neg h

/-- A slash behind a star ends the comment, unless the star is the one that it starts with. -/
theorem scan_blockEnd (h : (star && c = '/' && start + 2 < n) = true) :
    scan (.block start entry star) n found pauses (c :: rest)
      = scan .outside (n + 1) (commentLeaf start (n + 1) :: found)
        (⟨rest, n + 1, commentLeaf start (n + 1) :: found⟩ :: pauses) rest := if_pos h

/-- Any other character belongs to the comment, and a star is remembered for the next step. -/
theorem scan_inBlock (h : ¬(star && c = '/' && start + 2 < n) = true) :
    scan (.block start entry star) n found pauses (c :: rest)
      = scan (.block start entry (c = '*' && start + 1 < n)) (n + width c) found pauses rest :=
  if_neg h

end Steps

/-! ## Two scans from one place -/

/-- Two scans that are in the middle of the same. -/
inductive Mode.Same (source : List Char) : Mode → Mode → Prop where
  | outside : Same source .outside .outside
  | line (start : Nat) : Same source (.line start) (.line start)
  | block (start : Nat) {entry entry' : Cursor} (star : Bool)
      (h : SamePlace source entry entry') :
      Same source (.block start entry star) (.block start entry' star)

/-- **Two scans from one place end at one place**, and so do the comments between. Induction on the
first scan; the second one goes the same way. -/
theorem samePlace_scan {source cs : List Char} {mode mode' : Mode} {n : Nat}
    {found found' : List Tree} {pauses pauses' : List Cursor} (hmode : Mode.Same source mode mode')
    (hwithin : Within source cs n) (hpauses : List.Forall₂ (SamePlace source) pauses pauses') :
    SamePlace source (scan mode n found pauses cs).1 (scan mode' n found' pauses' cs).1
      ∧ List.Forall₂ (SamePlace source) (scan mode n found pauses cs).2
        (scan mode' n found' pauses' cs).2 := by
  fun_induction scan mode n found pauses cs generalizing mode' found' pauses' with
  -- outside of comments: blanks, what opens a comment, tokens
  | case1 n found pauses =>
    cases hmode
    exact ⟨.of_within hwithin _ _, hpauses⟩
  | case2 n found pauses c rest hblank ih =>
    cases hmode
    rw [scan_blank hblank]
    exact ih .outside hwithin.next hpauses
  | case3 n found pauses rest _ ih =>
    cases hmode
    rw [scan_lineComment]
    exact ih (.line n) hwithin.next hpauses
  | case4 n found pauses rest _ ih =>
    cases hmode
    rw [scan_blockComment]
    exact ih (.block n true (.of_within hwithin _ _)) hwithin.next hpauses
  | case5 n found pauses rest hline hblock _ =>
    cases hmode
    rw [scan_slash hline hblock]
    exact ⟨.of_within hwithin _ _, hpauses⟩
  | case6 n found pauses c rest hblank hslash =>
    cases hmode
    rw [scan_token hblank hslash]
    exact ⟨.of_within hwithin _ _, hpauses⟩
  -- in a comment that its line ends
  | case7 start n found pauses =>
    cases hmode
    exact ⟨.of_within hwithin _ _, .cons (.of_within hwithin _ _) hpauses⟩
  | case8 start n found pauses c rest hend found₁ =>
    rename_i ih
    cases hmode
    rw [scan_lineEnd hend]
    exact ih .outside hwithin.next (.cons (.of_within hwithin _ _) hpauses)
  | case9 start n found pauses c rest hend ih =>
    cases hmode
    rw [scan_inLine hend]
    exact ih (.line start) hwithin.next hpauses
  -- in a comment between marks; without the second one the scan goes back to the first
  | case10 start entry star n found pauses =>
    cases hmode with
    | block _ _ hentry => exact ⟨hentry, hpauses⟩
  | case11 start entry star n found pauses c rest hclose found₁ =>
    rename_i ih
    cases hmode with
    | block _ _ hentry =>
      rw [scan_blockEnd hclose]
      have hnext : Within source rest (n + 1) := by
        simp only [Bool.and_eq_true, decide_eq_true_eq] at hclose
        obtain rfl := hclose.1.2
        exact hwithin.next
      exact ih .outside hnext (.cons (.of_within hnext _ _) hpauses)
  | case12 start entry star n found pauses c rest hclose ih =>
    cases hmode with
    | block _ _ hentry =>
      rw [scan_inBlock hclose]
      exact ih (.block start _ hentry) hwithin.next hpauses

namespace SamePlace

variable {source : List Char} {c c' : Cursor}

/-- Scans from one place end in one place, and have as many places to pause in between. -/
theorem scanned (h : SamePlace source c c') :
    SamePlace source (scan .outside c.position c.comments [] c.rest).1
        (scan .outside c'.position c'.comments [] c'.rest).1
      ∧ List.Forall₂ (SamePlace source) (scan .outside c.position c.comments [] c.rest).2
        (scan .outside c'.position c'.comments [] c'.rest).2 := by
  rw [h.rest, h.position]
  exact samePlace_scan .outside h.within .nil

/-- Skipping from one place leads to one place. -/
theorem skip (h : SamePlace source c c') : SamePlace source c.skip c'.skip := h.scanned.1

/-- From one place the grammar may pause at the same places. -/
theorem pauses (h : SamePlace source c c') :
    List.Forall₂ (SamePlace source) c.pauses c'.pauses := by
  have hscanned := h.scanned.2
  exact .cons h (List.forall₂_reverse_iff.mpr hscanned)

/-- The place of a missing semicolon is the same too. -/
theorem place? (h : SamePlace source c c') (s : Semicolon.Setting) :
    Option.Rel (SamePlace source) (Semicolon.place? s c) (Semicolon.place? s c') := by
  have hpauses := h.pauses
  unfold Semicolon.place?
  generalize c.pauses = ps at hpauses ⊢
  generalize c'.pauses = ps' at hpauses ⊢
  induction hpauses with
  | nil => exact .none
  | cons hp _ ih =>
    rw [List.find?_cons, List.find?_cons, hp.rest]
    split
    · exact .some hp
    · exact ih

end SamePlace

/-- Skipping stays in the source. -/
theorem within_skip {source : List Char} {c : Cursor} (h : Within source c.rest c.position) :
    Within source c.skip.rest c.skip.position :=
  (SamePlace.skip ⟨rfl, rfl, h⟩).within

/-! ## Where a skip ends -/

/-- A cursor right before a token, or at the end: a scan stays there. -/
structure Settled (c : Cursor) : Prop where
  stays : ∀ found pauses,
    scan .outside c.position found pauses c.rest = (⟨c.rest, c.position, found⟩, pauses)
  token : ∀ a rest, c.rest = a :: rest → isBlank a = false

/-- At the end of the text nothing is left to skip. -/
theorem settled_end (n : Nat) (found : List Tree) : Settled ⟨[], n, found⟩ where
  stays _ _ := rfl
  token a rest h := by cases h

/-- What a scan in the middle of something has to come back to. -/
def Mode.Returns (n : Nat) (cs : List Char) : Mode → Prop
  | .block start entry star =>
    (∀ a rest, entry.rest = a :: rest → isBlank a = false)
      ∧ ∀ found pauses, scan .outside entry.position found pauses entry.rest
        = scan (.block start ⟨entry.rest, entry.position, found⟩ star) n found pauses cs
  | _ => True

/-- **A scan ends where another one stays.** Induction on the scan. A comment that is not closed
leads back to where it began, and would do so again. -/
theorem settled_scan (mode : Mode) (n : Nat) (found : List Tree) (pauses : List Cursor)
    (cs : List Char) (h : mode.Returns n cs) : (scan mode n found pauses cs).1.Settled := by
  fun_induction scan mode n found pauses cs with
  -- outside of comments: blanks, what opens a comment, tokens
  | case1 n found pauses => exact settled_end n found
  | case2 n found pauses c rest hblank ih => exact ih trivial
  | case3 n found pauses rest _ ih => exact ih trivial
  | case4 n found pauses rest hblank ih =>
    refine ih ⟨?_, fun found pauses => scan_blockComment⟩
    rintro a rest ⟨⟩
    exact eq_false_of_ne_true hblank
  | case5 n found pauses rest hline hblock hblank =>
    refine ⟨fun _ _ => scan_slash hline hblock, ?_⟩
    rintro a rest ⟨⟩
    exact eq_false_of_ne_true hblank
  | case6 n found pauses c rest hblank hslash =>
    refine ⟨fun _ _ => scan_token hblank hslash, ?_⟩
    rintro a rest ⟨⟩
    exact eq_false_of_ne_true hblank
  -- in a comment that its line ends
  | case7 start n found pauses => exact settled_end n _
  | case8 start n found pauses c rest _ _ ih => exact ih trivial
  | case9 start n found pauses c rest _ ih => exact ih trivial
  -- in a comment between marks; without the second one the scan goes back to the first
  | case10 start entry star n found pauses => exact ⟨h.2, h.1⟩
  | case11 start entry star n found pauses c rest _ _ ih => exact ih trivial
  | case12 start entry star n found pauses c rest hclose ih =>
    exact ih ⟨h.1, fun found pauses => (h.2 found pauses).trans (scan_inBlock hclose)⟩

/-- After a skip the cursor stands before a token or at the end. -/
theorem settled_skip (c : Cursor) : c.skip.Settled :=
  settled_scan .outside c.position c.comments [] c.rest trivial

/-- **There is nothing to skip after a skip.** -/
theorem skip_skip (c : Cursor) : c.skip.skip = c.skip := by
  have hfirst := congrArg Prod.fst ((settled_skip c).stays c.skip.comments [])
  exact hfirst

end Cursor

end OptionTypes.Syntax
