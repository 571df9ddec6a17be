import OptionTypes.Proofs.Lines
import OptionTypes.Proofs.Wrapping

/-!
# Where wrapping breaks a description

Lines are filled greedily: a line ends where the next word would not fit any more. The chunks of a
description are words and runs of blanks in turn. A line takes as many chunks as fit, leaves out the
run of blanks at its end, and the line after it leaves out the run at its start; so between two
lines there is exactly one run, and every word is on a line.

* `Wrap.words` are the words of a text, `Wrap.Broken` says that a text is broken greedily into
  lines.
* `Wrap.exists_packed` is one line: what it keeps, the run of blanks after it, and what comes later.
* `Wrap.ended_fill_false` is the induction over the lines, and `Wrap.ended_fill` adds the first one.
* `Wrap.wrap_breaks`: all that is promised of the lines of a description.
-/

namespace OptionTypes.Wrap

open Text

/-! ## Words -/

/-- The words of a text: what stands between blanks of any script. -/
def words (t : Text) : List Text := (t.splitOnP Blank.isBlank).filter fun w => !w.isEmpty

/-- The word that a text starts with. -/
def firstWord (t : Text) : Text := t.takeWhile fun c => !Blank.isBlank c

theorem words_nil : words [] = [] := by
  rw [words, List.splitOnP_nil]
  rfl

/-- A blank separates the words before it from those after it. -/
theorem words_append_blank {c : CodePoint} (hc : Blank.isBlank c = true) (s t : Text) :
    words (s ++ c :: t) = words s ++ words t := by
  rw [words, List.splitOnP_append_cons s t hc, List.filter_append]
  rfl

/-- Words around a run of blanks: those before it and those after it. -/
theorem words_append_blanks {gap : Text} (hne : gap ≠ [])
    (hgap : ∀ c ∈ gap, Blank.isBlank c = true) (s t : Text) :
    words (s ++ (gap ++ t)) = words s ++ words t := by
  induction gap generalizing s with
  | nil => exact absurd rfl hne
  | cons c gap ih =>
    obtain ⟨hc, hgap⟩ := List.forall_mem_cons.mp hgap
    rw [List.cons_append, words_append_blank hc]
    cases gap with
    | nil => rfl
    | cons d gap =>
      have hrest := ih (by simp) hgap []
      rw [words_nil, List.nil_append, List.nil_append] at hrest
      rw [hrest]

/-- Blanks at the start belong to no word. -/
theorem words_blanks_append {lead : Text} (hlead : ∀ c ∈ lead, Blank.isBlank c = true) (t : Text) :
    words (lead ++ t) = words t := by
  cases lead with
  | nil => rfl
  | cons c lead =>
    have hwords := words_append_blanks (by simp) hlead [] t
    rwa [words_nil, List.nil_append] at hwords

/-- Blanks at the end belong to no word. -/
theorem words_append_trail {trail : Text} (htrail : ∀ c ∈ trail, Blank.isBlank c = true)
    (t : Text) : words (t ++ trail) = words t := by
  cases trail with
  | nil => rw [List.append_nil]
  | cons c trail =>
    have hwords := words_append_blanks (by simp) htrail t []
    rwa [List.append_nil, words_nil, List.append_nil] at hwords

/-- A text without blanks is one word. -/
theorem words_eq_singleton {w : Text} (hne : w ≠ []) (hw : ∀ c ∈ w, Blank.isBlank c = false) :
    words w = [w] := by
  rw [words, List.splitOnP_eq_singleton hw]
  cases w with
  | nil => exact absurd rfl hne
  | cons c w => rfl

/-! ## Words stay when blanks become spaces -/

/-- The six blanks of ASCII are blanks. -/
theorem isBlank_of_isAsciiBlank {c : CodePoint} (h : isBlank c = true) :
    Blank.isBlank c = true := by
  have hall : ∀ a ∈ ['\t', '\n', '\x0b', '\x0c', '\r', ' '],
      Blank.isBlank (.char a) = true := List.all_eq_true.mp (by decide)
  cases c with
  | surrogate n => cases h
  | char a =>
    refine hall a ?_
    simpa [isBlank, CodePoint.is, Blank.isAsciiBlank, or_assoc] using h

theorem isBlank_space : Blank.isBlank (.char ' ') = true := rfl

/-- Induction on the text; a word that goes on across the seam is kept in front of it. -/
theorem words_append_spaced (t : Text) : ∀ s : Text, words (s ++ spaced t) = words (s ++ t) := by
  induction t with
  | nil => exact fun s => rfl
  | cons c t ih =>
    intro s
    rw [spaced, List.map_cons, ← spaced]
    by_cases hc : isBlank c = true
    · rw [if_pos hc, words_append_blank isBlank_space,
        words_append_blank (isBlank_of_isAsciiBlank hc)]
      congr 1
      exact ih []
    · rw [if_neg hc, ← List.singleton_append, ← List.append_assoc, ih, List.append_assoc]
      rfl

/-- Laying out the rest of a text keeps the words of the whole, whatever stands before. Induction on
the text; a tab becomes spaces, at least one. -/
theorem words_append_expandTabs (t : Text) :
    ∀ (s : Text) (column : Nat), words (s ++ expandTabs.go column t) = words (s ++ t) := by
  induction t with
  | nil => exact fun s column => rfl
  | cons c t ih =>
    intro s column
    rcases expandTabs_go_cons column c t with ⟨n, column', rfl, heq⟩ | ⟨column', heq⟩
    · have hrest : words (expandTabs.go column' t) = words t := ih [] column'
      rw [heq, words_append_blanks (by simp), hrest, words_append_blank rfl]
      intro d hd
      rw [List.eq_of_mem_replicate hd]
      rfl
    · rw [heq, ← List.singleton_append, ← List.append_assoc, ih, List.append_assoc]
      rfl

/-- Laying a text out on columns keeps its words. -/
theorem words_spaced_expandTabs (t : Text) : words (spaced (expandTabs t)) = words t := by
  have hspaced := words_append_spaced (expandTabs t) []
  have htabs := words_append_expandTabs t [] 0
  rw [List.nil_append, List.nil_append] at hspaced htabs
  rw [hspaced]
  exact htabs

/-! ## Chunks -/

/-- The text of chunks. -/
def textOf (cs : List Chunk) : Text := cs.flatMap Chunk.text

/-- Whether a chunk is a word or a run of blanks, and says which. -/
structure Chunk.Sound (c : Chunk) : Prop where
  nonempty : c.text ≠ []
  blank : ∀ d ∈ c.text, Blank.isBlank d = c.blank

/-- Whether chunks are words and runs of blanks in turn. -/
structure Alternating (cs : List Chunk) : Prop where
  sound : ∀ c ∈ cs, c.Sound
  turns : cs.IsChain fun a b => a.blank ≠ b.blank

/-- A chunk is all blank if it is a run of blanks: one character tells, as none of them is empty. -/
theorem Chunk.Sound.isAllBlank_eq {c : Chunk} (h : c.Sound) : c.isAllBlank = c.blank := by
  rw [Chunk.isAllBlank, Blank.isAllBlank]
  cases hblank : c.blank with
  | true =>
    rw [List.all_eq_true]
    intro d hd
    rw [h.blank d hd, hblank]
  | false =>
    obtain ⟨d, hd⟩ := List.exists_mem_of_ne_nil _ h.nonempty
    rw [List.all_eq_false]
    refine ⟨d, hd, ?_⟩
    rw [h.blank d hd, hblank]
    exact Bool.false_ne_true

theorem Alternating.of_append {before after : List Chunk} (h : Alternating (before ++ after)) :
    Alternating before ∧ Alternating after :=
  ⟨⟨fun c hc => h.sound c (List.mem_append_left _ hc), h.turns.left_of_append⟩,
    ⟨fun c hc => h.sound c (List.mem_append_right _ hc), h.turns.right_of_append⟩⟩

/-- What comes after a chunk is of the other kind. -/
theorem Alternating.head_ne {after : List Chunk} {a b : Chunk} (h : Alternating (a :: b :: after)) :
    a.blank ≠ b.blank :=
  (List.isChain_cons_cons.mp h.turns).1

theorem Alternating.blank_ne {before after : List Chunk} {a b : Chunk}
    (h : Alternating (before ++ a :: b :: after)) : a.blank ≠ b.blank :=
  h.of_append.2.head_ne

/-- Words stand next to runs of blanks, and runs of blanks next to words. -/
theorem Alternating.before {first rest : List Chunk} {c : Chunk}
    (h : Alternating (first ++ c :: rest)) : ∀ b ∈ first.getLast?, b.blank = !c.blank := by
  intro b hb
  obtain ⟨more, rfl⟩ := List.getLast?_eq_some_iff.mp hb
  rw [List.append_assoc] at h
  exact Bool.eq_not.mpr h.blank_ne

/-- What follows a chunk in a line is of the other kind. -/
theorem Alternating.after {first rest : List Chunk} {c : Chunk}
    (h : Alternating (first ++ c :: rest)) : ∀ d ∈ rest.head?, d.blank = !c.blank := by
  intro d hd
  obtain ⟨more, rfl⟩ := List.head?_eq_some_iff.mp hd
  exact Bool.eq_not.mpr h.blank_ne.symm

/-- The chunks of a text in which spaces are the only blanks. -/
theorem alternating_chunks {t : Text} (h : ∀ c ∈ t, Blank.isBlank c = (c == .char ' ')) :
    Alternating (chunks t) := by
  induction t with
  | nil => exact ⟨by simp [chunks], .nil⟩
  | cons c t ih =>
    obtain ⟨hc, ht⟩ := List.forall_mem_cons.mp h
    have hsingle : Chunk.Sound ⟨c == .char ' ', [c]⟩ :=
      ⟨List.cons_ne_nil _ _, by simpa using hc⟩
    have hmore := ih ht
    rw [chunks]
    split
    next => exact ⟨by simpa using hsingle, .singleton _⟩
    next chunk more hchunks =>
      rw [hchunks] at hmore
      obtain ⟨hchunk, hsound⟩ := List.forall_mem_cons.mp hmore.sound
      split
      next hsame =>
        -- the chunk grows by one code point of its own kind
        refine ⟨List.forall_mem_cons.mpr ⟨⟨List.cons_ne_nil _ _, ?_⟩, hsound⟩, ?_⟩
        · refine List.forall_mem_cons.mpr ⟨hc, fun d hd => ?_⟩
          rw [hchunk.blank d hd, hsame]
        · have hturns := hmore.turns
          rw [List.isChain_cons] at hturns ⊢
          simpa [← hsame] using hturns
      next hdifferent =>
        exact ⟨List.forall_mem_cons.mpr ⟨hsingle, hmore.sound⟩,
          List.isChain_cons_cons.mpr ⟨fun heq => hdifferent heq.symm, hmore.turns⟩⟩

/-- The word that a text of chunks starts with is its first chunk. -/
theorem firstWord_textOf {w : Chunk} {cs : List Chunk} (h : Alternating (w :: cs))
    (hw : w.blank = false) : firstWord (textOf (w :: cs)) = w.text := by
  have hword : ∀ c ∈ w.text, (!Blank.isBlank c) = true := by
    intro c hc
    rw [(h.sound w List.mem_cons_self).blank c hc, hw]
    rfl
  rw [firstWord, textOf, List.flatMap_cons, List.takeWhile_append_of_pos hword]
  cases cs with
  | nil => simp
  | cons b cs =>
    -- a word is followed by a run of blanks, the first of which ends it
    have hb : b.blank = true := by
      have hne := h.head_ne
      rw [hw] at hne
      simpa using hne.symm
    have hsound := h.sound b (List.mem_cons_of_mem _ List.mem_cons_self)
    cases htext : b.text with
    | nil => exact absurd htext hsound.nonempty
    | cons d text =>
      have hd : Blank.isBlank d = true := by
        rw [hsound.blank d (htext ▸ List.mem_cons_self), hb]
      simp [htext, hd]

/-! ## One line -/

/-- The chunks that are taken for a line fit on it. Induction on the chunks, with less room each
time. -/
theorem length_takeFitting_le (room : Nat) (cs : List Chunk) :
    (textOf (takeFitting room cs).1).length ≤ room := by
  induction cs generalizing room with
  | nil => exact Nat.zero_le _
  | cons c cs ih =>
    rw [takeFitting]
    split
    next hfits =>
      have hmore := ih (room - c.text.length)
      simp only [textOf, List.flatMap_cons, List.length_append] at hmore ⊢
      omega
    next => exact Nat.zero_le _

/-- What is left does not fit. -/
theorem lt_length_of_takeFitting (room : Nat) (cs : List Chunk) :
    ∀ c ∈ (takeFitting room cs).2.head?,
      room < (textOf (takeFitting room cs).1).length + c.text.length := by
  induction cs generalizing room with
  | nil =>
    intro c hc
    cases hc
  | cons c cs ih =>
    rw [takeFitting]
    split
    next hfits =>
      intro d hd
      have hmore := ih (room - c.text.length) d hd
      simp only [textOf, List.flatMap_cons, List.length_append] at hmore ⊢
      omega
    -- the first chunk left behind is the one that did not fit
    next hwide =>
      intro d hd
      cases hd
      simpa [textOf] using hwide

/-- A line is not empty; it is as wide as the room, unless it is a single chunk that is wider; and
the chunk after it would not fit. -/
theorem pack_fits (width : Nat) {cs : List Chunk} (hne : cs ≠ []) :
    (pack width cs).1 ≠ []
      ∧ ((textOf (pack width cs).1).length ≤ width
        ∨ ∃ c, (pack width cs).1 = [c] ∧ width < c.text.length)
      ∧ ∀ c ∈ (pack width cs).2.head?,
        width < (textOf (pack width cs).1).length + c.text.length := by
  have hall := takeFitting_append width cs
  have hroom := length_takeFitting_le width cs
  have hleft := lt_length_of_takeFitting width cs
  rw [pack]
  split
  next hfit =>
    rw [hfit] at hall
    exact absurd hall.symm hne
  -- nothing fits: the first chunk is too wide and stands alone
  next c rest hfit =>
    rw [hfit] at hleft
    have hwide : width < c.text.length := by simpa [textOf] using hleft c rfl
    rw [if_pos hwide]
    refine ⟨List.cons_ne_nil _ _, .inr ⟨c, rfl, hwide⟩, fun d hd => ?_⟩
    simp only [textOf, List.flatMap_cons, List.flatMap_nil, List.append_nil]
    omega
  -- something fits, and the next chunk would not
  next line hnil hcons =>
    refine ⟨fun hempty => ?_, .inl hroom, hleft⟩
    cases hrest : (takeFitting width cs).2 with
    | nil => exact hnil (Prod.ext hempty hrest)
    | cons c rest => exact hcons c rest (Prod.ext hempty hrest)

/-- **One line.** Chunks are what a line keeps, a run of blanks that belongs to no line, and what
comes later. -/
structure Packed (width : Nat) (cs kept gap later : List Chunk) : Prop where
  split : cs = kept ++ (gap ++ later)
  text : lineText (pack width cs).1 = textOf kept
  rest : startOfLine false (pack width cs).2 = later
  gap_blank : ∀ c ∈ gap, c.blank = true
  later_word : ∀ c ∈ later.head?, c.blank = false
  kept_word : ∀ c ∈ kept.getLast?, c.blank = false
  fits : (textOf kept).length ≤ width ∨ ∃ w, kept = [w] ∧ width < w.text.length
  /-- The first word of what comes later would not fit. -/
  full : ∀ w ∈ later.head?,
    gap ≠ [] ∧ width < (textOf kept).length + (textOf gap).length + w.text.length
  /-- Where nothing is kept, all that is left over comes later. -/
  nothing : kept = [] → (pack width cs).2 = later

theorem textOf_append (cs ds : List Chunk) : textOf (cs ++ ds) = textOf cs ++ textOf ds :=
  List.flatMap_append

theorem textOf_singleton (c : Chunk) : textOf [c] = c.text := by
  simp [textOf]

/-- Of a line only a run of blanks at its end is left out. -/
theorem lineText_concat (before : List Chunk) {last : Chunk} (h : last.Sound) :
    lineText (before ++ [last])
      = if last.blank then textOf before else textOf (before ++ [last]) := by
  rw [lineText, List.reverse_concat]
  simp only [List.reverse_reverse, h.isAllBlank_eq]
  split
  · rfl
  · rfl

theorem startOfLine_word {c : Chunk} (h : c.Sound) (hc : c.blank = false) (cs : List Chunk) :
    startOfLine false (c :: cs) = c :: cs := by
  rw [startOfLine, h.isAllBlank_eq, hc]
  rfl

/-- A run of blanks at the start of a line is left out. -/
theorem startOfLine_blank {c : Chunk} (h : c.Sound) (hc : c.blank = true) (cs : List Chunk) :
    startOfLine false (c :: cs) = cs := by
  rw [startOfLine, h.isAllBlank_eq, hc]
  rfl

/-- A line that ends with a run of blanks leaves it out: it is the gap, and a word comes after. -/
theorem packed_of_blank {width : Nat} {cs before rest : List Chunk} {last : Chunk}
    (h : Alternating cs) (hne : cs ≠ []) (hpack : pack width cs = (before ++ [last], rest))
    (hblank : last.blank = true) : Packed width cs before [last] rest := by
  obtain ⟨-, hroom, hfull⟩ := pack_fits width hne
  have hsplit := pack_append width cs
  rw [hpack] at hroom hfull hsplit
  rw [List.append_assoc, List.singleton_append] at hsplit
  subst hsplit
  have hafter := h.after
  have hbefore := h.before
  simp only [hblank, Bool.not_true] at hafter hbefore
  simp only [textOf_append, textOf_singleton, List.length_append] at hroom hfull
  exact {
    split := rfl
    text := by
      rw [hpack, lineText_concat before (h.sound last (by simp)), if_pos hblank]
    rest := by
      rw [hpack]
      cases rest with
      | nil => rfl
      | cons c more => exact startOfLine_word (h.sound c (by simp)) (hafter c rfl) more
    gap_blank := by simpa using hblank
    later_word := hafter
    kept_word := hbefore
    fits := by
      refine .inl ?_
      -- the run of blanks is dropped, so that what is kept has even more room
      rcases hroom with hroom | ⟨c, hsingle, -⟩
      · omega
      · have hnil : before = [] := by simpa using congrArg List.length hsingle
        simp [hnil, textOf]
    full := by
      intro w hw
      rw [textOf_singleton]
      exact ⟨List.cons_ne_nil _ _, hfull w hw⟩
    nothing := fun _ => by rw [hpack] }

/-- A line that ends with a word is followed by a run of blanks, which the next line leaves out,
unless nothing follows. -/
theorem packed_of_word {width : Nat} {cs before rest : List Chunk} {last : Chunk}
    (h : Alternating cs) (hne : cs ≠ []) (hpack : pack width cs = (before ++ [last], rest))
    (hword : last.blank = false) :
    Packed width cs (before ++ [last]) (rest.take 1) (rest.drop 1) := by
  obtain ⟨-, hroom, hfull⟩ := pack_fits width hne
  have hsplit := pack_append width cs
  rw [hpack] at hroom hfull hsplit
  simp only at hroom hfull hsplit
  have hgap : ∀ gap ∈ rest.head?, gap.blank = true := by
    rw [← hsplit, List.append_assoc, List.singleton_append] at h
    simpa [hword] using h.after
  have hlater : ∀ w ∈ (rest.drop 1).head?, w.blank = false := by
    cases rest with
    | nil => exact nofun
    | cons gap later =>
      rw [← hsplit] at h
      simpa [hgap gap rfl] using h.after
  exact {
    split := by rw [List.take_append_drop, hsplit]
    text := by
      rw [hpack, lineText_concat before (h.sound last (by simp [← hsplit])), hword,
        if_neg Bool.false_ne_true]
    rest := by
      rw [hpack]
      cases rest with
      | nil => rfl
      | cons gap later =>
        exact startOfLine_blank (h.sound gap (by simp [← hsplit])) (hgap gap rfl) later
    gap_blank := by
      cases rest with
      | nil => exact nofun
      | cons gap later => simpa using hgap
    later_word := hlater
    kept_word := by simpa using hword
    fits := hroom
    full := by
      -- the line was full before the run of blanks, so the more after it
      cases rest with
      | nil => exact nofun
      | cons gap later =>
        intro w _
        have hwide := hfull gap rfl
        rw [List.take_succ_cons, List.take_zero, textOf_singleton]
        exact ⟨List.cons_ne_nil _ _, by omega⟩
    nothing := fun hnil => absurd hnil (by simp) }

/-- A line can always be packed. What is taken for it may be empty, when the first chunk is a word
wider than the line: then the word stands there alone. -/
theorem exists_packed (width : Nat) {cs : List Chunk} (h : Alternating cs) (hne : cs ≠ []) :
    ∃ kept gap later, Packed width cs kept gap later := by
  obtain ⟨⟨line, rest⟩, hpack⟩ : ∃ packed, pack width cs = packed := ⟨_, rfl⟩
  have hline := (pack_fits width hne).1
  rw [hpack] at hline
  obtain ⟨before, last, rfl⟩ := (List.eq_nil_or_concat' line).resolve_left hline
  cases hlast : last.blank with
  | true => exact ⟨_, _, _, packed_of_blank h hne hpack hlast⟩
  | false => exact ⟨_, _, _, packed_of_word h hne hpack hlast⟩

/-! ## All lines -/

/-- Whether a text may stand on a line: no blank ends it, and it is at most as long as the line is
wide, or a single word that is longer. -/
structure Fits (width : Nat) (l : Text) : Prop where
  nonempty : l ≠ []
  last : ∀ c ∈ l.getLast?, Blank.isBlank c = false
  room : l.length ≤ width ∨ width < l.length ∧ words l = [l]

/-- Whether a text is broken greedily into lines: between two of them stands a run of blanks, and
the word after the run would not fit on the line before it. -/
inductive Broken (width : Nat) : Text → List Text → Prop where
  | none : Broken width [] []
  | last {l : Text} (h : Fits width l) : Broken width l [l]
  | next {l gap rest m : Text} {ms : List Text} (h : Fits width l) (hne : gap ≠ [])
    (hgap : ∀ c ∈ gap, Blank.isBlank c = true) (hword : firstWord m ≠ [])
    (hfull : width < l.length + gap.length + (firstWord m).length)
    (hrest : Broken width rest (m :: ms)) : Broken width (l ++ (gap ++ rest)) (l :: m :: ms)

/-- An empty text has no lines. -/
theorem Broken.eq_nil {width : Nat} {t : Text} {lines : List Text} (h : Broken width t lines)
    (ht : t = []) : lines = [] := by
  cases h with
  | none => rfl
  | last hl => exact absurd ht hl.nonempty
  | next hl => exact absurd (List.append_eq_nil_iff.mp ht).1 hl.nonempty

/-- Whether lines are those of a text, blanks at its end excepted. -/
def Ended (width : Nat) (t : Text) (lines : List Text) : Prop :=
  ∃ body trail, t = body ++ trail ∧ (∀ c ∈ trail, Blank.isBlank c = true)
    ∧ Broken width body lines

variable {width : Nat} {cs kept gap later : List Chunk}

theorem isBlank_of_mem_textOf (h : Alternating cs) (hcs : ∀ c ∈ cs, c.blank = true) :
    ∀ d ∈ textOf cs, Blank.isBlank d = true := by
  intro d hd
  obtain ⟨c, hc, hmem⟩ := List.mem_flatMap.mp hd
  rw [(h.sound c hc).blank d hmem, hcs c hc]

theorem textOf_ne_nil (h : Alternating cs) (hne : cs ≠ []) : textOf cs ≠ [] := by
  cases cs with
  | nil => exact absurd rfl hne
  | cons c cs =>
    intro hempty
    exact (h.sound c List.mem_cons_self).nonempty (List.append_eq_nil_iff.mp hempty).1

/-- What a line keeps may stand on a line. -/
theorem Packed.fits_textOf (h : Packed width cs kept gap later) (hkept : Alternating kept)
    (hne : kept ≠ []) : Fits width (textOf kept) where
  nonempty := textOf_ne_nil hkept hne
  -- blanks at the end have been dropped, so the last chunk is a word
  last := by
    obtain ⟨before, w, rfl⟩ := (List.eq_nil_or_concat' kept).resolve_left hne
    have hsound := hkept.sound w (by simp)
    intro c hc
    rw [textOf_append, textOf_singleton, List.getLast?_append_of_ne_nil _ hsound.nonempty] at hc
    rw [hsound.blank c (List.mem_of_getLast? hc)]
    exact h.kept_word w (by simp)
  room := by
    rcases h.fits with hroom | ⟨w, rfl, hwide⟩
    · exact .inl hroom
    · -- a word of its own line may be wider than the line
      have hsound := hkept.sound w List.mem_cons_self
      rw [textOf_singleton]
      refine .inr ⟨hwide, words_eq_singleton hsound.nonempty fun c hc => ?_⟩
      rw [hsound.blank c hc]
      exact h.kept_word w rfl

/-- A line goes before the lines of what comes later. -/
theorem Packed.ended (h : Packed width cs kept gap later) (hcs : Alternating cs)
    (hne : kept ≠ []) {lines : List Text} (hlater : Ended width (textOf later) lines)
    (hfirst : ∀ w ∈ later.head?, ∃ l ls, lines = l :: ls ∧ firstWord l = w.text) :
    Ended width (textOf cs) (textOf kept :: lines) := by
  rw [h.split] at hcs ⊢
  have hfits := h.fits_textOf hcs.of_append.1 hne
  have hblank := isBlank_of_mem_textOf hcs.of_append.2.of_append.1 h.gap_blank
  obtain ⟨body, trail, hsplit, htrail, hbroken⟩ := hlater
  rw [textOf_append, textOf_append]
  cases later with
  | nil =>
    -- the last line: what is left of it are blanks
    obtain ⟨rfl, rfl⟩ := List.append_eq_nil_iff.mp hsplit.symm
    rw [hbroken.eq_nil rfl]
    exact ⟨_, textOf gap, by rw [hsplit, List.append_nil, List.append_nil], hblank, .last hfits⟩
  | cons w more =>
    obtain ⟨l, ls, rfl, hword⟩ := hfirst w rfl
    obtain ⟨hgap, hfull⟩ := h.full w rfl
    have hsound := hcs.of_append.2.of_append.2.sound w List.mem_cons_self
    refine ⟨textOf kept ++ (textOf gap ++ body), trail, by simp [hsplit], htrail, ?_⟩
    refine .next hfits (textOf_ne_nil hcs.of_append.2.of_append.1 hgap) hblank ?_ ?_ hbroken
    · rw [hword]
      exact hsound.nonempty
    · rw [hword]
      exact hfull

theorem fill_nil (width fuel : Nat) (first : Bool) : fill width fuel first [] = [] := by
  cases fuel with
  | zero => rfl
  | succ fuel => rfl

/-- Without anything to begin a line with there are no lines. -/
theorem fill_of_startOfLine {fuel : Nat} {first : Bool} (h : startOfLine first cs = []) :
    fill width fuel first cs = [] := by
  cases fuel with
  | zero => rfl
  | succ fuel =>
    cases cs with
    | nil => rfl
    | cons c cs =>
      rw [fill.eq_3 width first (c :: cs) fuel (by simp), oneLine_eq, h]
      exact fill_nil width fuel first

/-- A line that keeps something is followed by the lines of what is left, one that keeps nothing is
none. -/
theorem fill_eq (fuel : Nat) (first : Bool) (hne : cs ≠ [])
    (h : Packed width (startOfLine first cs) kept gap later)
    (hkept : Alternating kept) :
    fill width (fuel + 1) first cs
      = if kept = [] then fill width fuel first (pack width (startOfLine first cs)).2
        else textOf kept :: fill width fuel false (pack width (startOfLine first cs)).2 := by
  rw [fill.eq_3 width first cs fuel hne, oneLine_eq]
  simp only [h.text]
  by_cases hnil : kept = []
  · simp [hnil, textOf]
  · have htext : (textOf kept).isEmpty = false := by
      simpa using textOf_ne_nil hkept hnil
    simp [hnil, htext]

theorem ended_nil (width : Nat) : Ended width [] [] := ⟨[], [], rfl, by simp, .none⟩

theorem startOfLine_true (cs : List Chunk) : startOfLine true cs = cs := by
  cases cs with
  | nil => rfl
  | cons c cs => rfl

/-- After the blanks at the start of a line comes a word. -/
theorem word_of_mem_startOfLine (hcs : Alternating cs) :
    ∀ w ∈ (startOfLine false cs).head?, w.blank = false := by
  intro w hw
  cases cs with
  | nil => cases hw
  | cons c cs =>
    cases hc : c.blank with
    | false =>
      rw [startOfLine_word (hcs.sound c List.mem_cons_self) hc] at hw
      cases hw
      exact hc
    | true =>
      rw [startOfLine_blank (hcs.sound c List.mem_cons_self) hc] at hw
      obtain ⟨more, rfl⟩ := List.head?_eq_some_iff.mp hw
      simpa [hc] using hcs.head_ne

/-- A line of chunks that start with a word keeps the word. -/
theorem Packed.exists_kept_eq {w : Chunk} {more : List Chunk}
    (h : Packed width (w :: more) kept gap later) (hw : w.blank = false) :
    ∃ ws, kept = w :: ws := by
  have hsplit := h.split
  cases kept with
  | cons k ws =>
    obtain ⟨rfl, -⟩ := List.cons.inj hsplit
    exact ⟨ws, rfl⟩
  | nil =>
    cases gap with
    | nil => exact absurd rfl (h.full w (by rw [← show w :: more = later from hsplit]; rfl)).1
    | cons g gap =>
      obtain ⟨rfl, -⟩ := List.cons.inj hsplit
      exact absurd (h.gap_blank w List.mem_cons_self) (by simp [hw])

/-- What a line leaves are fewer chunks, in turn as before. -/
theorem rest_pack (width : Nat) (hcs : Alternating cs) (hne : cs ≠ []) :
    Alternating (pack width cs).2 ∧ (pack width cs).2.length < cs.length := by
  have hall := pack_append width cs
  have hpos := List.length_pos_iff.mpr (pack_fits width hne).1
  refine ⟨(Alternating.of_append (hall.symm ▸ hcs)).2, ?_⟩
  have hlength := congrArg List.length hall
  rw [List.length_append] at hlength
  omega

/-- The lines after the first one. Induction on the fuel: a line is followed by the lines of what
comes later, and the first word of these is the first chunk of it. -/
theorem ended_fill_false (width : Nat) {fuel : Nat} (hcs : Alternating cs)
    (hfuel : cs.length ≤ fuel) :
    Ended width (textOf (startOfLine false cs)) (fill width fuel false cs)
      ∧ ∀ w ∈ (startOfLine false cs).head?,
        ∃ l ls, fill width fuel false cs = l :: ls ∧ firstWord l = w.text := by
  induction fuel generalizing cs with
  | zero =>
    rw [List.eq_nil_of_length_eq_zero (Nat.le_zero.mp hfuel)]
    exact ⟨ended_nil width, nofun⟩
  | succ fuel ih =>
    obtain ⟨dropped, hdropped⟩ := startOfLine_suffix false cs
    have hstart : Alternating (startOfLine false cs) :=
      (Alternating.of_append (hdropped.symm ▸ hcs)).2
    have hword := word_of_mem_startOfLine hcs
    cases hline : startOfLine false cs with
    | nil =>
      rw [fill_of_startOfLine hline]
      exact ⟨ended_nil width, nofun⟩
    | cons w more =>
      have hcons : cs ≠ [] := by
        rintro rfl
        cases hline
      rw [hline] at hstart hword
      have hw := hword w rfl
      obtain ⟨kept, gap, later, hpacked⟩ := exists_packed width hstart (by simp)
      obtain ⟨ws, rfl⟩ := hpacked.exists_kept_eq hw
      have hkept : Alternating (w :: ws) :=
        (Alternating.of_append (hpacked.split ▸ hstart)).1
      obtain ⟨hrest, hless⟩ := rest_pack width hstart (by simp)
      have hlength := congrArg List.length hdropped
      rw [hline, List.length_append] at hlength
      -- `later` is shorter than `cs`, so the fuel that is left is enough for it.
      obtain ⟨hended, hfirst⟩ := ih hrest (by omega)
      rw [hpacked.rest] at hended hfirst
      rw [fill_eq _ _ hcons (hline.symm ▸ hpacked) hkept, if_neg (by simp), hline]
      refine ⟨hpacked.ended hstart (by simp) hended hfirst, ?_⟩
      intro v hv
      cases hv
      exact ⟨_, _, rfl, firstWord_textOf hkept hw⟩

/-- All lines. Blanks that fill the first line alone make no line. -/
theorem ended_fill (width : Nat) {fuel : Nat} (hcs : Alternating cs) (hfuel : cs.length ≤ fuel) :
    ∃ lead t, textOf cs = lead ++ t ∧ (∀ c ∈ lead, Blank.isBlank c = true)
      ∧ Ended width t (fill width fuel true cs) := by
  induction fuel generalizing cs with
  | zero =>
    rw [List.eq_nil_of_length_eq_zero (Nat.le_zero.mp hfuel)]
    exact ⟨[], [], rfl, by simp, ended_nil width⟩
  | succ fuel ih =>
    by_cases hne : cs = []
    · rw [hne]
      exact ⟨[], [], rfl, by simp, ended_nil width⟩
    · obtain ⟨kept, gap, later, hpacked⟩ := exists_packed width hcs hne
      obtain ⟨hrest, hless⟩ := rest_pack width hcs hne
      have hparts := Alternating.of_append (hpacked.split ▸ hcs)
      have hfill := fill_eq fuel true hne
        ((startOfLine_true cs).symm ▸ hpacked) hparts.1
      rw [startOfLine_true] at hfill
      by_cases hkept : kept = []
      -- The blanks of the first line are dropped, and the line with them: they go to the lead.
      · rw [if_pos hkept] at hfill
        obtain ⟨lead, t, hsplit, hlead, hended⟩ := ih hrest (by omega)
        have hblank := isBlank_of_mem_textOf hparts.2.of_append.1 hpacked.gap_blank
        rw [hpacked.nothing hkept] at hsplit
        refine ⟨textOf gap ++ lead, t, ?_, List.forall_mem_append.mpr ⟨hblank, hlead⟩, ?_⟩
        · rw [hpacked.split, hkept, textOf_append, textOf_append, hsplit]
          simp [textOf]
        · rw [hfill]
          exact hended
      · rw [if_neg hkept] at hfill
        obtain ⟨hended, hfirst⟩ := ended_fill_false width hrest
          (Nat.le_of_lt_succ (Nat.lt_of_lt_of_le hless hfuel))
        rw [hpacked.rest] at hended hfirst
        rw [hfill]
        exact ⟨[], _, rfl, by simp, hpacked.ended hcs hkept hended hfirst⟩

/-! ## What is promised of the lines -/

/-- Each line has room, has no blanks at its ends, and has a word. -/
theorem Broken.fits {t : Text} {lines : List Text} (h : Broken width t lines) :
    ∀ l ∈ lines, Fits width l := by
  induction h with
  | none => exact nofun
  | last hl => simpa using hl
  | next hl _ _ _ _ _ ih => exact List.forall_mem_cons.mpr ⟨hl, ih⟩

/-- Every line but the first starts with a word. -/
theorem Broken.firstWord_ne {t : Text} {lines : List Text} (h : Broken width t lines) :
    ∀ l ∈ lines.tail, firstWord l ≠ [] := by
  induction h with
  | none => exact nofun
  | last _ => exact nofun
  | next _ _ _ hword _ _ ih => exact List.forall_mem_cons.mpr ⟨hword, ih⟩

/-- The words of the lines are those of the text, in order. -/
theorem Broken.words_eq {t : Text} {lines : List Text} (h : Broken width t lines) :
    lines.flatMap words = words t := by
  induction h with
  | none => exact words_nil.symm
  | last _ => simp
  | next _ hne hgap _ _ _ ih => rw [List.flatMap_cons, ih, words_append_blanks hne hgap]

/-- A text that starts with a word does not start with a blank. -/
theorem isBlank_head_of_firstWord_ne {l : Text} (h : firstWord l ≠ []) :
    ∀ c ∈ l.head?, Blank.isBlank c = false := by
  intro c hc
  obtain ⟨more, rfl⟩ := List.head?_eq_some_iff.mp hc
  by_contra hblank
  refine h ?_
  rw [firstWord, List.takeWhile_cons_of_neg]
  simpa using hblank

/-- Whether every blank of a text is an ASCII blank. -/
def PlainBlanks (t : Text) : Prop := ∀ c ∈ t, Blank.isBlank c = true → isBlank c = true

instance (t : Text) : Decidable (PlainBlanks t) := inferInstanceAs (Decidable (∀ c ∈ t, _))

/-- Layout on columns brings in spaces only. -/
theorem mem_expandTabs_go {column : Nat} {t : Text} {c : CodePoint}
    (h : c ∈ expandTabs.go column t) : c = .char ' ' ∨ c ∈ t := by
  induction t generalizing column with
  | nil => exact .inr h
  | cons d t ih =>
    have hlater : ∀ column, c ∈ expandTabs.go column t → c = .char ' ' ∨ c ∈ d :: t :=
      fun _ hmem => (ih hmem).imp_right (List.mem_cons_of_mem d)
    rcases expandTabs_go_cons column d t with ⟨n, column', -, heq⟩ | ⟨column', heq⟩
    · rw [heq] at h
      rcases List.mem_append.mp h with hspace | hmem
      · exact .inl (List.eq_of_mem_replicate hspace)
      · exact hlater column' hmem
    · rw [heq] at h
      rcases List.mem_cons.mp h with rfl | hmem
      · exact .inr List.mem_cons_self
      · exact hlater column' hmem

/-- Spaces are the only blanks of a text that is laid out on columns. -/
theorem isBlank_eq_of_mem_spaced {t : Text} (h : PlainBlanks t) :
    ∀ c ∈ spaced (expandTabs (guardEnd t)), Blank.isBlank c = (c == .char ' ') := by
  intro c hc
  obtain ⟨d, hd, rfl⟩ := List.mem_map.mp hc
  split
  next => rfl
  -- what stands as it was is no ASCII blank, and by the hypothesis no other blank either
  next hplain =>
    have hword : Blank.isBlank d = false := by
      rcases mem_expandTabs_go hd with rfl | hmem
      · exact absurd rfl hplain
      · rcases mem_replace hmem with hnew | hold
        · have hall : ∀ d ∈ ofString "*\\/", (!Blank.isBlank d) = true := by decide
          simpa using hall d hnew
        · by_contra hblank
          exact hplain (h d hold (by simpa using hblank))
    have hne : d ≠ .char ' ' := by
      rintro rfl
      exact hplain rfl
    rw [hword, beq_eq_false_iff_ne.mpr hne]

/-- **What is promised of the lines of a description**, at any width, where ASCII blanks are its
only blanks. The words of the lines are its words in order, end marks of a comment broken up. A line
is at most as long as the width, or is a single longer word. No line is empty or ends with a blank,
only the first may start with one, and none holds an end mark. And lines are broken greedily: the
text laid out on columns consists of the lines with runs of blanks around and between them, and
after each run the next word would not have fitted on the line before.

Induction on the chunks that are left: a line takes as many as fit, and those after it begin with a
word again (`exists_packed`, `ended_fill`). `Broken` keeps what has to be said of two lines that
follow each other. -/
theorem wrap_breaks {width : Int} (hwidth : 1 ≤ width) {description : Text}
    (hplain : PlainBlanks description) :
    ∃ lines, wrap width description = .ok lines
      ∧ lines.flatMap words = words (guardEnd description)
      ∧ (∀ l ∈ lines, (l.length : Int) ≤ width ∨ width < l.length ∧ words l = [l])
      ∧ (∀ l ∈ lines, l ≠ [] ∧ ∀ c ∈ l.getLast?, Blank.isBlank c = false)
      ∧ (∀ l ∈ lines.tail, ∀ c ∈ l.head?, Blank.isBlank c = false)
      ∧ (∀ l ∈ lines, ¬endMark <:+: l)
      ∧ ∃ lead body trail, spaced (expandTabs (guardEnd description)) = lead ++ (body ++ trail)
        ∧ (∀ c ∈ lead, Blank.isBlank c = true) ∧ (∀ c ∈ trail, Blank.isBlank c = true)
        ∧ Broken width.toNat body lines := by
  have hlaid : textOf (chunks (spaced (expandTabs (guardEnd description))))
      = spaced (expandTabs (guardEnd description)) := flatMap_text_chunks _
  have hcs := alternating_chunks (isBlank_eq_of_mem_spaced hplain)
  -- what is laid out are blanks, the lines with their gaps, and blanks
  obtain ⟨lead, t, hsplit, hlead, body, trail, rfl, htrail, hbroken⟩ :=
    ended_fill width.toNat hcs (Nat.le_refl _)
  rw [hlaid] at hsplit
  have hwords : words (guardEnd description) = words body := by
    rw [← words_spaced_expandTabs, hsplit, words_blanks_append hlead, words_append_trail htrail]
  refine ⟨linesOf width.toNat description, ?_, ?_, ?_, ?_, ?_, ?_, lead, body, trail, hsplit, hlead,
    htrail, hbroken⟩
  · rw [wrap, if_neg (by omega)]
  · rw [hwords]
    exact hbroken.words_eq
  · intro l hl
    exact (hbroken.fits l hl).room.imp (by omega) (And.imp_left (by omega))
  · intro l hl
    exact ⟨(hbroken.fits l hl).nonempty, (hbroken.fits l hl).last⟩
  · intro l hl
    exact isBlank_head_of_firstWord_ne (hbroken.firstWord_ne l hl)
  · intro l hl
    exact keepsOpen_iff.mp (keepsOpen_of_mem_linesOf hl)

/-- A blank at the start, a tab, an end mark, a word that is too long, and a run of blanks that is
wider than a line. -/
theorem wrap_breaks_mixture :
    let description : Text := " a*/\tlongword b\n\t\tc "
    let lines : List Text := [" a*\\/", "longword", "b", "c"]
    (1 : Int) ≤ 6 ∧ PlainBlanks description ∧ wrap 6 description = .ok lines
      ∧ lines.flatMap words = words (guardEnd description)
      ∧ ∃ lead body trail, spaced (expandTabs (guardEnd description)) = lead ++ (body ++ trail)
        ∧ (∀ c ∈ lead, Blank.isBlank c = true) ∧ (∀ c ∈ trail, Blank.isBlank c = true)
        ∧ Broken 6 body lines := by
  intro description lines
  have hplain : PlainBlanks description := by decide
  obtain ⟨_, hlines, hwords, -, -, -, -, hbroken⟩ := wrap_breaks (by decide : (1 : Int) ≤ 6) hplain
  have hwrap : wrap 6 description = .ok lines := rfl
  obtain rfl := Except.ok.inj (hwrap.symm.trans hlines)
  exact ⟨by decide, hplain, hwrap, hwords, hbroken⟩

end OptionTypes.Wrap
