import OptionTypes.Declaration.Interface
import OptionTypes.Proofs.Outcome
import OptionTypes.Proofs.Spelling

/-!
# Unions of choices are read back

The type of an array option with choices is a union of literals in single quotes. A backslash in a
literal takes the code point after it along, so a quote that belongs to a choice does not end its
literal, and neither do the marks that stand between literals and around the union. So there is one
way to read the union, and the script that it stands in finds every choice in its literal.

* `Property.LiteralBody` is what may stand between two quotes, `Property.ReadAs` a whole union.
* `Property.literalBody_unique`: a literal ends in one place.
* `Property.readAs_unique`: a union is read in at most one way.
* `Property.arrayType_read_back`: the union of choices is read as their literals, and each literal
  is decoded to its choice.
-/

namespace OptionTypes

namespace Text

/-- A single code point is replaced wherever it stands. -/
theorem replace_singleton (c : CodePoint) (new t : Text) :
    replace [c] new t = t.flatMap fun d => if d = c then new else [d] := by
  rw [replace]
  induction t with
  | nil => rfl
  | cons d t ih =>
    rw [replace.go, List.flatMap_cons]
    by_cases hd : d = c
    · simp [hd, ih]
    · have hne : c ≠ d := fun heq => hd heq.symm
      simp [hd, hne, ih]

end Text

namespace Declaration.Property

open Text

/-! ## Literals -/

/-- The quote around a literal. -/
def quotationMark : CodePoint := .char '\''

/-- The code point that takes the one after it along. -/
def backslash : CodePoint := .char '\\'

/-- Whether a text may stand between two quotes: every quote in it is taken along by a backslash. -/
inductive LiteralBody : Text → Prop where
  | nil : LiteralBody []
  | plain {c : CodePoint} {t : Text} (hquote : c ≠ quotationMark) (hslash : c ≠ backslash)
    (h : LiteralBody t) : LiteralBody (c :: t)
  | taken {c : CodePoint} {t : Text} (h : LiteralBody t) : LiteralBody (backslash :: c :: t)

/-- The text of a literal. -/
def literalText (body : Text) : Text := quotationMark :: body ++ [quotationMark]

/-- The text of a union of literals. -/
def unionText (bodies : List Text) : Text :=
  "(" ++ join " | " (bodies.map literalText) ++ ")[]"

/-- Whether a text is read as a union of literals with the given bodies. -/
def ReadAs (t : Text) (bodies : List Text) : Prop :=
  (∀ body ∈ bodies, LiteralBody body) ∧ t = unionText bodies

/-- **A literal ends in one place.** Induction on one body; the other one has to go along, code
point by code point. -/
theorem literalBody_unique {b b' s s' : Text} (h : LiteralBody b) (h' : LiteralBody b')
    (heq : b ++ quotationMark :: s = b' ++ quotationMark :: s') : b = b' ∧ s = s' := by
  have hne : quotationMark ≠ backslash := by decide
  -- two bodies go on together, since at each place the first character tells how they go on
  induction h generalizing b' with
  | nil =>
    cases h' with
    | nil => exact ⟨rfl, (List.cons.inj heq).2⟩
    | plain hquote _ _ => exact absurd (List.cons.inj heq).1.symm hquote
    | taken _ => exact absurd (List.cons.inj heq).1 hne
  | plain hquote hslash _ ih =>
    cases h' with
    | nil => exact absurd (List.cons.inj heq).1 hquote
    | plain _ _ hrest =>
      obtain ⟨rfl, htail⟩ := List.cons.inj heq
      obtain ⟨rfl, rfl⟩ := ih hrest htail
      exact ⟨rfl, rfl⟩
    | taken _ => exact absurd (List.cons.inj heq).1 hslash
  | taken _ ih =>
    cases h' with
    | nil => exact absurd (List.cons.inj heq).1.symm hne
    | plain _ hslash _ => exact absurd (List.cons.inj heq).1.symm hslash
    | taken hrest =>
      obtain ⟨rfl, htail⟩ := List.cons.inj (List.cons.inj heq).2
      obtain ⟨rfl, rfl⟩ := ih hrest htail
      exact ⟨rfl, rfl⟩

/-- What follows the first literal of a union, up to the end of the union. -/
def afterLiteral : List Text → Text
  | [] => ")[]"
  | body :: bodies => " | " ++ (unionText (body :: bodies)).tail

theorem unionText_cons (body : Text) (bodies : List Text) :
    unionText (body :: bodies)
      = .char '(' :: quotationMark :: (body ++ quotationMark :: afterLiteral bodies) := by
  have hopen : ofString "(" = [.char '('] := rfl
  cases bodies with
  | nil => simp [unionText, afterLiteral, literalText, join, hopen]
  | cons b bodies => simp [unionText, afterLiteral, literalText, join, hopen]

/-- **A union is read in at most one way.** -/
theorem readAs_unique {t : Text} {bodies bodies' : List Text} (h : ReadAs t bodies)
    (h' : ReadAs t bodies') : bodies = bodies' := by
  induction bodies generalizing t bodies' with
  | nil =>
    cases bodies' with
    | nil => rfl
    | cons b' bodies' =>
      -- an empty union closes where the other one has its first quote
      have heq := h.2.symm.trans h'.2
      rw [unionText_cons] at heq
      cases heq
  | cons b bodies ih =>
    cases bodies' with
    | nil =>
      have heq := h'.2.symm.trans h.2
      rw [unionText_cons] at heq
      cases heq
    | cons b' bodies' =>
      obtain ⟨hb, hbodies⟩ := List.forall_mem_cons.mp h.1
      obtain ⟨hb', hbodies'⟩ := List.forall_mem_cons.mp h'.1
      have heq := h.2.symm.trans h'.2
      rw [unionText_cons, unionText_cons] at heq
      obtain ⟨rfl, hafter⟩ := literalBody_unique hb hb' (List.cons.inj (List.cons.inj heq).2).2
      cases bodies with
      | nil =>
        cases bodies' with
        | nil => rfl
        | cons c' bodies' => cases hafter
      | cons c bodies =>
        cases bodies' with
        | nil => cases hafter
        | cons c' bodies' =>
          have htail : (unionText (c :: bodies)).tail = (unionText (c' :: bodies')).tail :=
            List.append_cancel_left hafter
          have hrest : unionText (c :: bodies) = unionText (c' :: bodies') := by
            rw [unionText_cons, unionText_cons] at htail ⊢
            exact congrArg (.char '(' :: ·) htail
          rw [ih ⟨hbodies, rfl⟩ ⟨hbodies', hrest⟩]

/-! ## The literal of a choice -/

/-- What stands for a code point of a choice in its literal. -/
def spellChoice (c : CodePoint) : Text :=
  if c = backslash ∨ c = quotationMark then [backslash, c] else [c]

/-- The body of the literal of a choice. -/
def choiceBody (choice : Text) : Text := choice.flatMap spellChoice

/-- A text among the choices is quoted, with backslashes and quotation marks escaped. The two
replacements together are one of single code points, since the second brings in no backslash that
the first would still have to escape. -/
theorem choiceLiteral_text (choice : Text) :
    choiceLiteral (.text choice) = .ok (literalText (choiceBody choice)) := by
  have hescape : replace "'" "\\'" (replace "\\" "\\\\" choice) = choiceBody choice := by
    have hquote : ofString "'" = [quotationMark] := rfl
    have hslash : ofString "\\" = [backslash] := rfl
    rw [hquote, hslash, replace_singleton, replace_singleton, List.flatMap_assoc, choiceBody]
    congr 1
    funext c
    by_cases hc : c = backslash
    · simp [hc, spellChoice, backslash, quotationMark, ofString]
    · by_cases hq : c = quotationMark
      · simp [hq, spellChoice, backslash, quotationMark, ofString]
      · simp [hc, hq, spellChoice]
  rw [← hescape]
  rfl

/-- The choices that are texts, one after the other. -/
theorem choiceLiterals_texts (choices : List Text) :
    choiceLiterals (choices.map .text)
      = .ok ((choices.map choiceBody).map literalText) := by
  induction choices with
  | nil => rfl
  | cons choice choices ih =>
    rw [List.map_cons, choiceLiterals, choiceLiteral_text, ih]
    rfl

/-- The type of a list of choices that are texts. -/
theorem arrayType_texts {choices : List Text} (hne : choices ≠ []) :
    arrayType (some (choices.map .text)) = .ok (unionText (choices.map choiceBody)) := by
  cases choices with
  | nil => exact absurd rfl hne
  | cons choice choices =>
    show (choiceLiterals ((choice :: choices).map .text) >>= _) = _
    rw [choiceLiterals_texts]
    rfl

/-- A spelled code point ends no literal. -/
theorem LiteralBody.append_spellChoice {c : CodePoint} {t : Text} (h : LiteralBody t) :
    LiteralBody (spellChoice c ++ t) := by
  unfold spellChoice
  split
  next => exact .taken h
  next hplain =>
    rw [not_or] at hplain
    exact .plain hplain.2 hplain.1 h

/-- No choice ends its literal. -/
theorem literalBody_choiceBody (choice : Text) : LiteralBody (choiceBody choice) := by
  induction choice with
  | nil => exact .nil
  | cons c choice ih => exact ih.append_spellChoice

theorem readAs_choices (choices : List Text) :
    ReadAs (unionText (choices.map choiceBody)) (choices.map choiceBody) := by
  refine ⟨fun body hbody => ?_, rfl⟩
  obtain ⟨choice, -, rfl⟩ := List.mem_map.mp hbody
  exact literalBody_choiceBody choice

/-- A spelling of a code point tells it from all others, whatever follows. -/
theorem spellChoice_append_inj {c d : CodePoint} {s t : Text}
    (h : spellChoice c ++ s = spellChoice d ++ t) : c = d ∧ s = t := by
  unfold spellChoice at h
  split at h
  next hc =>
    split at h
    next =>
      obtain ⟨-, h⟩ := List.cons.inj h
      exact List.cons.inj h
    next hd =>
      exact absurd (.inl (List.cons.inj h).1.symm) hd
  next hc =>
    split at h
    next =>
      exact absurd (.inl (List.cons.inj h).1) hc
    next => exact List.cons.inj h

/-- Different choices have different literals. -/
theorem choiceBody_injective {s t : Text} (h : choiceBody s = choiceBody t) : s = t := by
  -- no choice is spelled by nothing, so both texts end together
  have hnonempty : ∀ c, spellChoice c ≠ [] := by
    intro c
    unfold spellChoice
    split
    · exact List.cons_ne_nil _ _
    · exact List.cons_ne_nil _ _
  induction s generalizing t with
  | nil =>
    cases t with
    | nil => rfl
    | cons d t => exact absurd (List.append_eq_nil_iff.mp h.symm).1 (hnonempty d)
  | cons c s ih =>
    cases t with
    | nil => exact absurd (List.append_eq_nil_iff.mp h).1 (hnonempty c)
    | cons d t =>
      obtain ⟨rfl, hrest⟩ := spellChoice_append_inj h
      rw [ih hrest]

/-- The body of the literal of a choice spells the choice. -/
theorem spelled_choiceBody (s : List Char) : Escape.Spelled s (choiceBody (ofChars s)) := by
  induction s with
  | nil => exact .nil
  | cons c s ih =>
    refine .cons ?_ ih
    show Escape.Spelling c (spellChoice (.char c))
    unfold spellChoice
    split
    -- the quote and the backslash are escaped, and everything else stands for itself
    next hmark =>
      refine .plain ?_
      rcases hmark with hslash | hquote
      · rw [CodePoint.char.inj hslash]
        decide
      · rw [CodePoint.char.inj hquote]
        decide
    next hplain =>
      rw [not_or] at hplain
      exact .raw fun heq => hplain.1 (congrArg CodePoint.char heq)

/-- **Choices are read back from their type.** The type for a list of choices is read as a union in
exactly one way, with a literal for each choice; decoding a literal gives the choice, unless it has
surrogates; and no other list of choices has the same type.

No choice ends its literal (`literalBody_choiceBody`), so the union is read in one way
(`readAs_unique`). Escaping is undone by decoding (`spelled_choiceBody`) and loses nothing even for
surrogates (`choiceBody_injective`). -/
theorem arrayType_read_back {choices : List Text} (hne : choices ≠ []) :
    ∃ t bodies, arrayType (some (choices.map .text)) = .ok t
      ∧ (∀ other, ReadAs t other ↔ other = bodies)
      ∧ bodies.length = choices.length
      ∧ List.Forall₂ (fun body choice => (∀ c ∈ choice, c.isSurrogate = false) →
        Escape.decode body = .ok choice) bodies choices
      ∧ ∀ others, arrayType (some (others.map .text)) = .ok t → others = choices := by
  refine ⟨_, choices.map choiceBody, arrayType_texts hne, ?_, List.length_map _, ?_, ?_⟩
  · intro other
    constructor
    · intro hother
      exact readAs_unique hother (readAs_choices choices)
    · rintro rfl
      exact readAs_choices choices
  · rw [List.forall₂_map_left_iff]
    refine List.forall₂_same.mpr fun choice _ hchars => ?_
    obtain ⟨s, rfl⟩ := exists_eq_ofChars hchars
    exact Escape.decode_spelled (spelled_choiceBody s)
  · intro others hothers
    cases others with
    | nil =>
      -- without choices the type is that of any text
      obtain ⟨choice, rest, rfl⟩ := List.exists_cons_of_ne_nil hne
      have htype := Except.ok.inj hothers
      rw [List.map_cons, unionText_cons] at htype
      cases htype
    | cons other others =>
      rw [arrayType_texts (List.cons_ne_nil _ _)] at hothers
      have hread := readAs_choices (other :: others)
      rw [Except.ok.inj hothers] at hread
      have hbodies := readAs_unique hread (readAs_choices choices)
      exact List.map_injective_iff.mpr (fun _ _ h => choiceBody_injective h) hbodies

/-- A choice that looks like two of them, a backslash alone, one before a quote, and the marks
around a union. -/
theorem arrayType_read_back_marks :
    let choices : List Text := ["a' | 'b", "\\", "\\')[]"]
    let t : Text := "('a\\' | \\'b' | '\\\\' | '\\\\\\')[]')[]"
    choices ≠ [] ∧ arrayType (some (choices.map .text)) = .ok t
      ∧ ∃ bodies, (∀ other, ReadAs t other ↔ other = bodies) ∧ bodies.length = choices.length
        ∧ List.Forall₂ (fun body choice => (∀ c ∈ choice, c.isSurrogate = false) →
          Escape.decode body = .ok choice) bodies choices
        ∧ ∀ others, arrayType (some (others.map .text)) = .ok t → others = choices := by
  intro choices t
  have hne : choices ≠ [] := List.cons_ne_nil _ _
  have ht : arrayType (some (choices.map .text)) = .ok t := rfl
  obtain ⟨_, bodies, htype, hread⟩ := arrayType_read_back hne
  obtain rfl := Except.ok.inj (ht.symm.trans htype)
  exact ⟨hne, ht, bodies, hread⟩

end Declaration.Property

end OptionTypes
