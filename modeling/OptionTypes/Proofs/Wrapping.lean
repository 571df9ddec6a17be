import OptionTypes.Proofs.EndMark
import OptionTypes.Text.Wrap

/-!
# What wrapping keeps of a description

The lines of a wrapped description are pieces of it: every line is an uninterrupted stretch of the
text whose blanks have become spaces. So a line holds no end mark of a comment, because the marks
were broken up before and no blank that becomes a space brings their halves together again.

* `Wrap.flatMap_text_chunks`: the chunks of a text are the text.
* `Wrap.infix_of_mem_fill` and `Wrap.infix_of_mem_linesOf`: every line is a stretch of the chunks,
  of the text.
* `Wrap.keepsOpen_of_mem_linesOf`: no line holds an end mark.
-/

namespace OptionTypes.Wrap

/-! ## Lines are stretches of the text -/

/-- Cutting a text into chunks loses nothing. -/
theorem flatMap_text_chunks : ∀ t : Text, (chunks t).flatMap Chunk.text = t
  | [] => rfl
  | c :: rest => by
    have ih := flatMap_text_chunks rest
    rw [chunks]
    split
    next hnil =>
      rw [hnil] at ih
      simp [← ih]
    next chunk more hcons =>
      rw [hcons] at ih
      split
      · simp [← ih]
      · simp [← ih]

/-- What is taken for a line and what is left are the chunks. -/
theorem takeFitting_append (room : Nat) (cs : List Chunk) :
    (takeFitting room cs).1 ++ (takeFitting room cs).2 = cs := by
  induction cs generalizing room with
  | nil => rfl
  | cons c rest ih =>
    rw [takeFitting]
    split
    · simp [ih]
    · rfl

/-- The chunks of a line without the blanks that are dropped at its start. -/
def startOfLine (first : Bool) : List Chunk → List Chunk
  | [] => []
  | c :: rest => if !first && c.isAllBlank then rest else c :: rest

/-- The chunks of one line, at least one if there are any, and the others. -/
def pack (width : Nat) (cs : List Chunk) : List Chunk × List Chunk :=
  match takeFitting width cs with
  | ([], []) => ([], [])
  | ([], c :: rest) => if c.text.length > width then ([c], rest) else ([], c :: rest)
  | fitting => fitting

theorem oneLine_eq (width : Nat) (first : Bool) (cs : List Chunk) :
    oneLine width first cs = pack width (startOfLine first cs) := by
  cases cs with
  | nil => rfl
  | cons c rest => rfl

/-- At most the first chunk is dropped at the start of a line. -/
theorem startOfLine_suffix (first : Bool) (cs : List Chunk) : startOfLine first cs <:+ cs := by
  cases cs with
  | nil => exact List.suffix_refl []
  | cons c rest =>
    rw [startOfLine]
    split
    · exact List.suffix_cons c rest
    · exact List.suffix_refl (c :: rest)

/-- What a line is packed with and what is left are the chunks, also where a word is too wide. -/
theorem pack_append (width : Nat) (cs : List Chunk) :
    (pack width cs).1 ++ (pack width cs).2 = cs := by
  have hall := takeFitting_append width cs
  rw [pack]
  split
  next hfit =>
    rw [hfit] at hall
    exact hall
  next c rest hfit =>
    rw [hfit] at hall
    split
    · exact hall
    · exact hall
  next => exact hall

/-- A line is taken from the start of the chunks, blanks that are dropped there excepted. -/
theorem oneLine_suffix (width : Nat) (first : Bool) (cs : List Chunk) :
    (oneLine width first cs).1 ++ (oneLine width first cs).2 <:+ cs := by
  rw [oneLine_eq, pack_append]
  exact startOfLine_suffix first cs

/-- The text of a line is that of its chunks up to some place. -/
theorem prefix_lineText (line : List Chunk) : lineText line <+: line.flatMap Chunk.text := by
  rw [lineText]
  split
  next hnil =>
    exact List.nil_prefix
  next last before hrev =>
    split
    · have hline : line = before.reverse ++ [last] := by
        rw [← List.reverse_reverse line, hrev, List.reverse_cons]
      rw [hline, List.flatMap_append]
      exact List.prefix_append _ _
    · exact List.prefix_refl _

/-- Every line is a stretch of the text that the chunks make up. Induction on the fuel: what is
left after a line is a suffix of the chunks before. -/
theorem infix_of_mem_fill {width fuel : Nat} {first : Bool} {cs : List Chunk} {line : Text}
    (h : line ∈ fill width fuel first cs) : line <:+: cs.flatMap Chunk.text := by
  induction fuel generalizing first cs with
  | zero => simp [fill] at h
  | succ fuel ih =>
    cases cs with
    | nil => simp [fill] at h
    | cons c rest =>
      obtain ⟨dropped, hdropped⟩ := oneLine_suffix width first (c :: rest)
      have hwhole : (c :: rest).flatMap Chunk.text
          = dropped.flatMap Chunk.text
            ++ ((oneLine width first (c :: rest)).1.flatMap Chunk.text
              ++ (oneLine width first (c :: rest)).2.flatMap Chunk.text) := by
        rw [← List.flatMap_append, ← List.flatMap_append, hdropped]
      -- what holds of a later line holds of the chunks left for it
      have hlater : ∀ b, line ∈ fill width fuel b (oneLine width first (c :: rest)).2 →
          line <:+: (c :: rest).flatMap Chunk.text := by
        intro b hb
        rw [hwhole, ← List.append_assoc]
        exact (ih hb).trans (List.suffix_append _ _).isInfix
      rw [fill.eq_3 width first (c :: rest) fuel (by simp)] at h
      simp only at h
      split at h
      · exact hlater first h
      · rcases List.mem_cons.mp h with rfl | hmem
        · rw [hwhole]
          have hline := (prefix_lineText (oneLine width first (c :: rest)).1).isInfix
          refine List.IsInfix.trans ?_ (List.suffix_append _ _).isInfix
          exact hline.trans (List.prefix_append _ _).isInfix
        · exact hlater false hmem

/-- Every line of a description is a stretch of the text that is laid out. -/
theorem infix_of_mem_linesOf {width : Nat} {description line : Text}
    (h : line ∈ linesOf width description) :
    line <:+: spaced (expandTabs (guardEnd description)) := by
  have hfill := infix_of_mem_fill h
  rwa [flatMap_text_chunks] at hfill

/-! ## No line ends a comment -/

open Text

/-- A backslash is put between the halves of an end mark. -/
theorem guardEnd_mark (rest : Text) :
    guardEnd (.char '*' :: .char '/' :: rest)
      = .char '*' :: .char '\\' :: .char '/' :: guardEnd rest := rfl

/-- What does not start an end mark stays. -/
theorem guardEnd_cons {c : CodePoint} {rest : Text} (h : ¬endMark <+: c :: rest) :
    guardEnd (c :: rest) = c :: guardEnd rest := by
  rw [guardEnd, replace, replace.go, if_neg]
  · rfl
  · simp only [Bool.and_eq_true, List.isPrefixOf_iff_prefix, not_and]
    intro _
    exact h

/-- A text starts with what it started with before. -/
theorem head?_guardEnd (t : Text) : (guardEnd t).head? = t.head? := by
  cases t with
  | nil => rfl
  | cons c rest =>
    by_cases hmark : endMark <+: c :: rest
    · obtain ⟨after, hafter⟩ := hmark
      rw [← hafter]
      rfl
    · rw [guardEnd_cons hmark]
      rfl

/-- A broken-up text holds no end mark. -/
theorem keepsOpen_guardEnd (t : Text) : KeepsOpen (guardEnd t) := by
  match t with
  | [] => exact keepsOpen_nil
  | c :: rest =>
    by_cases hmark : endMark <+: c :: rest
    · obtain ⟨after, hafter⟩ := hmark
      rw [endMark_eq] at hafter
      -- the search goes on after the mark
      have hlen : after.length < (c :: rest).length := by
        rw [← hafter]
        simp only [List.length_append, List.length_cons, List.length_nil]
        omega
      have ih := keepsOpen_guardEnd after
      rw [← hafter]
      show KeepsOpen (guardEnd (.char '*' :: .char '/' :: after))
      rw [guardEnd_mark, KeepsOpen, List.isChain_cons_cons]
      refine ⟨by decide, ?_⟩
      exact (keepsOpen_cons (by decide)).mpr ((keepsOpen_cons (by decide)).mpr ih)
    · have ih := keepsOpen_guardEnd rest
      rw [guardEnd_cons hmark, KeepsOpen, List.isChain_cons]
      refine ⟨?_, ih⟩
      rintro d hd ⟨rfl, rfl⟩
      -- the text that follows starts as it did, so the mark stood here before
      rw [head?_guardEnd] at hd
      obtain ⟨more, hmore⟩ := List.head?_eq_some_iff.mp hd
      rw [hmore] at hmark
      exact hmark ⟨more, rfl⟩
termination_by t.length
decreasing_by
  · exact hlen
  · exact Nat.lt_succ_self _

/-- A tab becomes at least one space, and everything else stays. -/
theorem expandTabs_go_cons (column : Nat) (c : CodePoint) (rest : Text) :
    (∃ n column', c = .char '\t' ∧ expandTabs.go column (c :: rest)
        = List.replicate (n + 1) (.char ' ') ++ expandTabs.go column' rest)
      ∨ ∃ column', expandTabs.go column (c :: rest) = c :: expandTabs.go column' rest := by
  obtain ⟨t, htext⟩ : ∃ t, t = c :: rest := ⟨_, rfl⟩
  have hgo := expandTabs.go.eq_def column t
  rw [← htext]
  split at hgo
  next => cases htext
  next =>
    obtain ⟨rfl, rfl⟩ := List.cons.inj htext
    -- the next stop is one to eight columns away
    have hwidth : 8 - column % 8 ≠ 0 := by
      have := Nat.mod_lt column (by decide : 8 > 0)
      omega
    obtain ⟨n, hn⟩ := Nat.exists_eq_succ_of_ne_zero hwidth
    rw [hn] at hgo
    exact .inl ⟨n, _, rfl, hgo⟩
  next =>
    obtain ⟨rfl, rfl⟩ := List.cons.inj htext
    exact .inr ⟨_, hgo⟩
  next =>
    obtain ⟨rfl, rfl⟩ := List.cons.inj htext
    exact .inr ⟨_, hgo⟩
  next =>
    obtain ⟨rfl, rfl⟩ := List.cons.inj htext
    exact .inr ⟨_, hgo⟩

/-- Where a laid-out text starts with the second half of the mark, the text did so before. -/
theorem head?_expandTabs {column : Nat} {t : Text}
    (h : (expandTabs.go column t).head? = some (.char '/')) : t.head? = some (.char '/') := by
  cases t with
  | nil => exact h
  | cons c rest =>
    rcases expandTabs_go_cons column c rest with ⟨n, column', -, heq⟩ | ⟨column', heq⟩
    · rw [heq, List.replicate_succ] at h
      simp at h
    · rw [heq] at h
      exact h

/-- Characters that do not begin an end mark may stand before any text. -/
theorem keepsOpen_replicate_append (n : Nat) {c : CodePoint} (hc : c ≠ .char '*') (t : Text) :
    KeepsOpen (List.replicate n c ++ t) ↔ KeepsOpen t := by
  induction n with
  | zero => rfl
  | succ n ih => rw [List.replicate_succ, List.cons_append, keepsOpen_cons hc, ih]

/-- Spaces in the place of tabs bring nothing together. -/
theorem keepsOpen_expandTabs_go (column : Nat) {t : Text} (h : KeepsOpen t) :
    KeepsOpen (expandTabs.go column t) := by
  induction t generalizing column with
  | nil => exact keepsOpen_nil
  | cons c rest ih =>
    rw [KeepsOpen, List.isChain_cons] at h
    rcases expandTabs_go_cons column c rest with ⟨n, column', -, heq⟩ | ⟨column', heq⟩
    · rw [heq]
      exact (keepsOpen_replicate_append _ (by decide) _).mpr (ih _ h.2)
    · rw [heq, KeepsOpen, List.isChain_cons]
      refine ⟨?_, ih _ h.2⟩
      rintro d hd ⟨rfl, rfl⟩
      exact h.1 _ (head?_expandTabs hd) ⟨rfl, rfl⟩

theorem keepsOpen_expandTabs {t : Text} (h : KeepsOpen t) : KeepsOpen (expandTabs t) :=
  keepsOpen_expandTabs_go 0 h

/-- Blanks that become spaces bring nothing together. -/
theorem keepsOpen_spaced {t : Text} (h : KeepsOpen t) : KeepsOpen (spaced t) := by
  rw [spaced, KeepsOpen, List.isChain_map]
  refine List.IsChain.imp ?_ h
  rintro a b hab ⟨ha, hb⟩
  -- neither half of a mark comes from a blank
  split at ha
  · exact absurd ha (by decide)
  · split at hb
    · exact absurd hb (by decide)
    · exact hab ⟨ha, hb⟩

/-- No line of a description holds an end mark, whatever the description. -/
theorem keepsOpen_of_mem_linesOf {width : Nat} {description line : Text}
    (h : line ∈ linesOf width description) : KeepsOpen line :=
  (keepsOpen_spaced (keepsOpen_expandTabs (keepsOpen_guardEnd description))).of_isInfix
    (infix_of_mem_linesOf h)

end OptionTypes.Wrap
