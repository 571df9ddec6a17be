import Mathlib.Tactic.Common
import OptionTypes.Proofs.Names

/-!
# Naming conventions

The words of a name do not depend on the convention that it is written in. Words of a small letter
and at least one more small letter or digit are found again in every spelling: between separators
of any kind and number, in camelCase, in PascalCase, and between separators in capitals if they
consist of letters. So each of the two conventions of a declaration has one name for all of them.

The proof follows the two passes. Reducing runs of capitals changes nothing where every capital is
followed by something else, and makes capitalised words of words in capitals. Cutting gives back the
pieces that a text is put together from, if each begins at a separator or a capital.

* `Spells` says which texts spell words.
* `collapseFrom_append` and `fragments_append`: the two passes go through a text piece by piece.
* `split_of_spells`: the words are found, and the names are the same.
-/

namespace OptionTypes

namespace Case

/-- Without a sigma lower case looks at each code point alone. -/
theorem lower_eq_flatMap {t : Text} (h : ∀ c ∈ t, c.value ≠ 0x3A3) :
    lower t = t.flatMap lowerOne := by
  have hafter : ∀ before, lowerAfter before t = t.flatMap lowerOne := by
    induction t with
    | nil => intro before; rfl
    | cons c t ih =>
      intro before
      obtain ⟨hc, ht⟩ := List.forall_mem_cons.mp h
      rw [lowerAfter, if_neg (fun hsigma => hc hsigma.1), ih ht, List.flatMap_cons]
  exact hafter []

theorem flatMap_lowerOne {t : Text} (h : ∀ c ∈ t, lowerOne c = [c]) : t.flatMap lowerOne = t := by
  induction t with
  | nil => rfl
  | cons c t ih =>
    obtain ⟨hc, ht⟩ := List.forall_mem_cons.mp h
    rw [List.flatMap_cons, hc, ih ht, List.singleton_append]

end Case

namespace Words

/-! ## Words and their spellings

A word is small letters and digits, two characters at least, and begins with a letter. A single
letter would not do: between capitals it is taken for part of a run. -/

/-- Whether a character is a small letter or a digit of ASCII. -/
def isWordChar (c : Char) : Bool := Case.isSmall c || c.isDigit

/-- Whether a text is a small letter and at least one small letter or digit. -/
def IsWord (w : Text) : Prop :=
  2 ≤ w.length ∧ (∀ c ∈ w.head?, c.is Case.isSmall = true) ∧ ∀ c ∈ w, c.is isWordChar = true

instance (w : Text) : Decidable (IsWord w) := inferInstanceAs (Decidable (_ ∧ _ ∧ _))

/-- Whether a text consists of separators. -/
def AreSeparators (t : Text) : Prop := ∀ c ∈ t, isSeparator c = true

instance (t : Text) : Decidable (AreSeparators t) := inferInstanceAs (Decidable (∀ c ∈ t, _))

/-- Words, each written in some way, with separators between them. -/
inductive Joined (write : Text → Text) : List Text → Text → Prop where
  | last (w : Text) : Joined write [w] (write w)
  | next {w run t : Text} {ws : List Text} (hne : run ≠ []) (hrun : AreSeparators run)
      (h : Joined write ws t) : Joined write (w :: ws) (write w ++ (run ++ t))

/-- Words in camelCase. -/
def camelOf : List Text → Text
  | [] => []
  | w :: ws => w ++ ws.flatMap Case.upperFirst

/-- Words in PascalCase. -/
def pascalOf (ws : List Text) : Text := ws.flatMap Case.upperFirst

/-- A name that is made of words by one of the conventions. -/
inductive Spells (ws : List Text) : Text → Prop where
  | separated {before t after : Text} (hbefore : AreSeparators before)
      (hafter : AreSeparators after) (h : Joined id ws t) : Spells ws (before ++ (t ++ after))
  | camel : Spells ws (camelOf ws)
  | pascal : Spells ws (pascalOf ws)
  | capitals {before t after : Text} (hletters : ∀ w ∈ ws, ∀ c ∈ w, c.is Case.isSmall = true)
      (hbefore : AreSeparators before) (hafter : AreSeparators after)
      (h : Joined Case.upper ws t) : Spells ws (before ++ (t ++ after))

variable {p t w run before after name : Text} {ps ws : List Text} {c : CodePoint}
  {write : Text → Text}

/-- Camel case is the first word as it is and the others with a capital. -/
theorem camel_eq (name : Text) : camel name = camelOf (split name) := by
  unfold camel camelOf
  cases split name <;> rfl

theorem pascal_eq (name : Text) : pascal name = pascalOf (split name) := rfl

/-! ## Pieces

Splitting cuts a name at separators and before capitals. `pieces` does so from the end, so each
lemma puts something in front of a text that has been cut already; a piece may only be put before a
boundary, or it would grow into the piece behind it. -/

/-- A piece of a name: it goes on with what neither separates nor is a capital. -/
def IsPiece (p : Text) : Prop :=
  ∃ c rest, p = c :: rest ∧ rest ≠ [] ∧ isSeparator c = false
    ∧ ∀ d ∈ rest, isSeparator d = false ∧ isCapital d = false

/-- Whether the first piece of a text is empty, since the text is or begins a new one. -/
def AtBoundary (t : Text) : Prop := ∃ more, pieces t = [] :: more

/-- The pieces of a text that are not empty. -/
def fragments (t : Text) : List Text := (pieces t).filter (!·.isEmpty)

theorem split_eq (name : Text) : split name = (fragments (collapse name)).map Case.lower := rfl

/-- A separator cuts, and leaves an empty piece in front. -/
theorem pieces_separator (hc : isSeparator c = true) (t : Text) :
    pieces (c :: t) = [] :: pieces t := by
  rw [pieces, if_pos hc]

/-- A run of separators has no fragments. -/
theorem fragments_separators (hrun : AreSeparators run) (t : Text) :
    fragments (run ++ t) = fragments t := by
  induction run with
  | nil => rfl
  | cons c run ih =>
    obtain ⟨hc, hrun⟩ := List.forall_mem_cons.mp hrun
    rw [List.cons_append, fragments, pieces_separator hc]
    exact ih hrun

theorem atBoundary_append (hrun : AreSeparators run) (ht : run ≠ [] ∨ AtBoundary t) :
    AtBoundary (run ++ t) := by
  cases run with
  | nil => simpa using ht
  | cons c run => exact ⟨_, pieces_separator (List.forall_mem_cons.mp hrun).1 (run ++ t)⟩

/-- Without capitals and separators a text is one piece, up to the next boundary. -/
theorem pieces_inner_append {more : List Text} (ht : pieces t = [] :: more)
    (hp : ∀ d ∈ p, isSeparator d = false ∧ isCapital d = false) :
    pieces (p ++ t) = p :: more := by
  induction p with
  | nil => exact ht
  | cons d p ih =>
    obtain ⟨⟨hseparator, hcapital⟩, hp⟩ := List.forall_mem_cons.mp hp
    simp [pieces, ih hp, hseparator, hcapital]

/-- What begins with no separator is cut off the next boundary, and begins anew with a capital. -/
theorem pieces_cons_append {more : List Text} (ht : pieces t = [] :: more)
    (hc : isSeparator c = false) (hp : ∀ d ∈ p, isSeparator d = false ∧ isCapital d = false) :
    pieces (c :: (p ++ t)) = if isCapital c then [] :: (c :: p) :: more else (c :: p) :: more := by
  rw [pieces, hc, pieces_inner_append ht hp]
  rfl

/-- A piece is cut off the boundary behind it. With a capital at its start it has a boundary before
it as well. -/
theorem pieces_append (hp : IsPiece p) (ht : AtBoundary t) :
    ∃ more, pieces t = [] :: more
      ∧ pieces (p ++ t) = if isCapital (p.headD default) then [] :: p :: more else p :: more := by
  obtain ⟨c, rest, rfl, -, hc, hrest⟩ := hp
  obtain ⟨more, hmore⟩ := ht
  exact ⟨more, hmore, pieces_cons_append hmore hc hrest⟩

/-- A piece before a boundary is a fragment. -/
theorem fragments_append (hp : IsPiece p) (ht : AtBoundary t) :
    fragments (p ++ t) = p :: fragments t := by
  obtain ⟨more, hmore, hpieces⟩ := pieces_append hp ht
  obtain ⟨c, rest, rfl, -⟩ := hp
  rw [fragments, fragments, hpieces, hmore]
  split
  · simp
  · simp

/-- Pieces between separators are the fragments of the text. -/
theorem fragments_joined (hws : ∀ w ∈ ws, IsPiece (write w)) (hafter : AreSeparators after)
    (h : Joined write ws t) : fragments (t ++ after) = ws.map write := by
  -- separators alone have no piece between them
  have hend : fragments after = [] := by
    have hall := fragments_separators hafter []
    rwa [List.append_nil] at hall
  induction h with
  | last w =>
    have hboundary : AtBoundary after := by
      have hall := atBoundary_append hafter (.inr ⟨[], rfl⟩ : after ≠ [] ∨ AtBoundary [])
      rwa [List.append_nil] at hall
    rw [fragments_append (hws w (List.mem_singleton_self w)) hboundary, hend]
    rfl
  | @next w run t ws hne hrun h ih =>
    obtain ⟨hw, hws⟩ := List.forall_mem_cons.mp hws
    have hboundary := atBoundary_append (t := t ++ after) hrun (.inl hne)
    rw [List.append_assoc, List.append_assoc, fragments_append hw hboundary,
      fragments_separators hrun, ih hws]
    rfl

/-- Pieces that begin with capitals need nothing between them. -/
theorem fragments_capitalised (hps : ∀ p ∈ ps, IsPiece p ∧ isCapital (p.headD default) = true) :
    AtBoundary ps.flatten ∧ fragments ps.flatten = ps := by
  induction ps with
  | nil => exact ⟨⟨[], rfl⟩, rfl⟩
  | cons p ps ih =>
    obtain ⟨⟨hp, hcapital⟩, hps⟩ := List.forall_mem_cons.mp hps
    obtain ⟨hboundary, hfragments⟩ := ih hps
    obtain ⟨more, -, hpieces⟩ := pieces_append hp hboundary
    rw [if_pos hcapital] at hpieces
    exact ⟨⟨_, hpieces⟩, by rw [List.flatten_cons, fragments_append hp hboundary, hfragments]⟩

/-! ## Runs of capitals

Before a name is split, all capitals of a run but the first one become small. A name without two
capitals in a row is left as it is. -/

theorem collapseFrom_cons (inside : Bool) (hc : isCapital c = false) (t : Text) :
    collapseFrom inside (c :: t) = c :: collapseFrom false t := by
  rw [collapseFrom, hc]
  rfl

/-- Without capitals nothing is changed. -/
theorem collapseFrom_inner (hp : ∀ d ∈ p, isCapital d = false) (t : Text) :
    collapseFrom false (p ++ t) = p ++ collapseFrom false t := by
  induction p with
  | nil => rfl
  | cons d p ih =>
    obtain ⟨hd, hp⟩ := List.forall_mem_cons.mp hp
    rw [List.cons_append, collapseFrom_cons false hd, ih hp, List.cons_append]

/-- In a piece no capital follows a capital. This is where a word needs a second character. -/
theorem collapseFrom_append (hp : IsPiece p) (t : Text) :
    collapseFrom false (p ++ t) = p ++ collapseFrom false t := by
  obtain ⟨c, rest, rfl, hne, -, hrest⟩ := hp
  obtain ⟨d, rest, rfl⟩ := List.exists_cons_of_ne_nil hne
  have hinner : ∀ e ∈ d :: rest, isCapital e = false := fun e he => (hrest e he).2
  obtain ⟨hd, hrest⟩ := List.forall_mem_cons.mp hinner
  have htail : ∀ inside,
      collapseFrom inside (d :: (rest ++ t)) = d :: (rest ++ collapseFrom false t) := by
    intro inside
    rw [collapseFrom_cons inside hd, collapseFrom_inner hrest]
  simp only [List.cons_append]
  rw [collapseFrom]
  split <;> simp [htail]

/-- A separator is no capital. -/
theorem not_isCapital_of_isSeparator (hc : isSeparator c = true) : isCapital c = false := by
  rw [Bool.eq_false_iff]
  intro hcapital
  cases c with
  | surrogate n => cases hcapital
  | char a =>
    have hascii : a.toNat < 0x80 := by
      have hle : a ≤ 'Z' := by
        simp only [isCapital, CodePoint.is, Case.isCapital, Bool.and_eq_true,
          decide_eq_true_eq] at hcapital
        exact hcapital.2
      have hbound : a.toNat ≤ 90 := hle
      omega
    -- a capital is an ASCII letter, so the finitely many ASCII characters decide
    have hall : isCapital (.char a) = true → isSeparator (.char a) = false :=
      Case.of_ascii (p := fun a => isCapital (.char a) = true → isSeparator (.char a) = false)
        (by decide) hascii
    rw [hall hcapital] at hc
    cases hc

/-- What precedes a text without a capital at its start makes no difference. -/
theorem collapseFrom_true (ht : ∀ c ∈ t.head?, isCapital c = false) :
    collapseFrom true t = collapseFrom false t := by
  cases t with
  | nil => rfl
  | cons c t => rw [collapseFrom_cons true (ht c rfl), collapseFrom_cons false (ht c rfl)]

theorem collapseFrom_separators (hrun : AreSeparators run) (t : Text) :
    collapseFrom false (run ++ t) = run ++ collapseFrom false t :=
  collapseFrom_inner (fun d hd => not_isCapital_of_isSeparator (hrun d hd)) t

theorem collapseFrom_after (inside : Bool) (hafter : AreSeparators after) :
    collapseFrom inside after = after := by
  have hfalse : collapseFrom false after = after := by
    have hall := collapseFrom_separators hafter []
    rwa [List.append_nil, collapseFrom, List.append_nil] at hall
  cases inside with
  | false => exact hfalse
  | true =>
    rw [collapseFrom_true, hfalse]
    intro c hc
    exact not_isCapital_of_isSeparator (hafter c (List.mem_of_mem_head? hc))

/-! ## Letters and digits -/

theorem exists_char_of_is {q : Char → Bool} (h : c.is q = true) :
    ∃ a, c = .char a ∧ q a = true := by
  cases c with
  | char a => exact ⟨a, rfl, h⟩
  | surrogate n => cases h

theorem toNat_lt_of_isWordChar {a : Char} (h : isWordChar a = true) : a.toNat < 0x80 := by
  rcases Bool.or_eq_true_iff.mp h with hsmall | hdigit
  · simp only [Case.isSmall, Bool.and_eq_true, decide_eq_true_eq] at hsmall
    have hle : a.toNat ≤ 122 := hsmall.2
    omega
  · simp only [Char.isDigit, Bool.and_eq_true, decide_eq_true_eq] at hdigit
    have hle : a.toNat ≤ 57 := UInt32.le_iff_toNat_le.mp hdigit.2
    omega

/-- Inside a word nothing separates, nothing is a capital, and lower case changes nothing. -/
theorem inner_of_isWordChar (h : c.is isWordChar = true) :
    isSeparator c = false ∧ isCapital c = false ∧ Case.lowerOne c = [c] ∧ c.value ≠ 0x3A3 := by
  obtain ⟨a, rfl, ha⟩ := exists_char_of_is h
  exact Case.of_ascii
    (p := fun a => isWordChar a = true → isSeparator (.char a) = false ∧ isCapital (.char a) = false
      ∧ Case.lowerOne (.char a) = [.char a] ∧ (CodePoint.char a).value ≠ 0x3A3)
    (by decide) (toNat_lt_of_isWordChar ha) ha

/-- The capital of a small letter, whose small letter it is. -/
theorem exists_capital (h : c.is Case.isSmall = true) :
    ∃ d, Case.upperOne c = [d] ∧ isSeparator d = false ∧ isCapital d = true ∧ lowerCapital d = c
      ∧ Case.lowerOne d = [c] ∧ d.value ≠ 0x3A3 := by
  obtain ⟨a, rfl, ha⟩ := exists_char_of_is h
  have hword : isWordChar a = true := by rw [isWordChar, ha, Bool.true_or]
  have hcapital := Case.of_ascii
    (p := fun a => Case.isSmall a = true → Case.upperOne (.char a) = [.char (Case.upperAscii a)]
      ∧ isSeparator (.char (Case.upperAscii a)) = false
      ∧ isCapital (.char (Case.upperAscii a)) = true
      ∧ lowerCapital (.char (Case.upperAscii a)) = .char a
      ∧ Case.lowerOne (.char (Case.upperAscii a)) = [.char a]
      ∧ (CodePoint.char (Case.upperAscii a)).value ≠ 0x3A3)
    (by decide) (toNat_lt_of_isWordChar hword) ha
  exact ⟨_, hcapital⟩

/-- A word is a small letter and at least one more character. -/
theorem IsWord.exists_eq (h : IsWord w) :
    ∃ c rest, w = c :: rest ∧ rest ≠ [] ∧ c.is Case.isSmall = true
      ∧ ∀ d ∈ w, d.is isWordChar = true := by
  obtain ⟨hlength, hhead, hall⟩ := h
  match w, hlength with
  | c :: d :: rest, _ => exact ⟨c, d :: rest, rfl, List.cons_ne_nil _ _, hhead c rfl, hall⟩

/-- A word is a piece. -/
theorem IsWord.isPiece (h : IsWord w) : IsPiece w := by
  obtain ⟨c, rest, rfl, hne, -, hall⟩ := h.exists_eq
  obtain ⟨hc, hrest⟩ := List.forall_mem_cons.mp hall
  refine ⟨c, rest, rfl, hne, (inner_of_isWordChar hc).1, fun d hd => ?_⟩
  exact ⟨(inner_of_isWordChar (hrest d hd)).1, (inner_of_isWordChar (hrest d hd)).2.1⟩

/-- A word with a capital is a piece of its own, and its lower case is the word. -/
theorem IsWord.upperFirst (h : IsWord w) :
    IsPiece (Case.upperFirst w) ∧ isCapital ((Case.upperFirst w).headD default) = true
      ∧ Case.lower (Case.upperFirst w) = w := by
  obtain ⟨c, rest, rfl, hne, hsmall, hall⟩ := h.exists_eq
  obtain ⟨-, hrest⟩ := List.forall_mem_cons.mp hall
  obtain ⟨d, hupper, hseparator, hcapital, -, hlower, hsigma⟩ := exists_capital hsmall
  have hword : Case.upperFirst (c :: rest) = d :: rest := by
    rw [Case.upperFirst, hupper, List.singleton_append]
  have hrestLower := Case.flatMap_lowerOne fun e he => (inner_of_isWordChar (hrest e he)).2.2.1
  rw [hword]
  refine ⟨⟨d, rest, rfl, hne, hseparator, fun e he => ?_⟩, hcapital, ?_⟩
  · exact ⟨(inner_of_isWordChar (hrest e he)).1, (inner_of_isWordChar (hrest e he)).2.1⟩
  · rw [Case.lower_eq_flatMap, List.flatMap_cons, hlower, hrestLower, List.singleton_append]
    exact List.forall_mem_cons.mpr ⟨hsigma, fun e he => (inner_of_isWordChar (hrest e he)).2.2.2⟩

/-- A word is in lower case already. -/
theorem IsWord.lower (h : IsWord w) : Case.lower w = w := by
  rw [Case.lower_eq_flatMap fun c hc => (inner_of_isWordChar (h.2.2 c hc)).2.2.2,
    Case.flatMap_lowerOne fun c hc => (inner_of_isWordChar (h.2.2 c hc)).2.2.1]

/-! ## Words in capitals -/

theorem upper_cons {d : CodePoint} (hupper : Case.upperOne c = [d]) (w : Text) :
    Case.upper (c :: w) = d :: Case.upper w := by
  rw [Case.upper, List.flatMap_cons, hupper]
  rfl

/-- After a capital all letters of a word in capitals are reduced. -/
theorem collapseFrom_upper (hw : ∀ c ∈ w, c.is Case.isSmall = true) (t : Text) :
    collapseFrom true (Case.upper w ++ t) = w ++ collapseFrom true t := by
  induction w with
  | nil => rfl
  | cons c w ih =>
    obtain ⟨hc, hw⟩ := List.forall_mem_cons.mp hw
    obtain ⟨d, hupper, -, hcapital, hreduced, -⟩ := exists_capital hc
    rw [upper_cons hupper, List.cons_append, collapseFrom, if_pos hcapital, if_pos rfl, hreduced,
      ih hw, List.cons_append]

/-- A word in capitals keeps the first. -/
theorem collapseFrom_upper_word (h : IsWord w) (hw : ∀ c ∈ w, c.is Case.isSmall = true) (t : Text) :
    collapseFrom false (Case.upper w ++ t) = Case.upperFirst w ++ collapseFrom true t := by
  obtain ⟨c, rest, rfl, -⟩ := h.exists_eq
  obtain ⟨hc, hrest⟩ := List.forall_mem_cons.mp hw
  obtain ⟨d, hupper, -, hcapital, -⟩ := exists_capital hc
  rw [upper_cons hupper, List.cons_append, collapseFrom, if_pos hcapital, if_neg Bool.false_ne_true,
    collapseFrom_upper hrest, Case.upperFirst, hupper]
  rfl

/-- Words in capitals between separators become capitalised words between them. -/
theorem exists_collapseFrom_capitals (hws : ∀ w ∈ ws, IsWord w)
    (hletters : ∀ w ∈ ws, ∀ c ∈ w, c.is Case.isSmall = true) (h : Joined Case.upper ws t) :
    ∃ u, Joined Case.upperFirst ws u ∧ ∀ after, AreSeparators after →
      collapseFrom false (t ++ after) = u ++ after := by
  induction h with
  | last w =>
    refine ⟨_, .last w, fun after hafter => ?_⟩
    rw [collapseFrom_upper_word (hws w (List.mem_singleton_self w))
      (hletters w (List.mem_singleton_self w)), collapseFrom_after true hafter]
  | @next w run t ws hne hrun h ih =>
    obtain ⟨hw, hws⟩ := List.forall_mem_cons.mp hws
    obtain ⟨hletter, hletters⟩ := List.forall_mem_cons.mp hletters
    obtain ⟨u, hu, hcollapse⟩ := ih hws hletters
    refine ⟨_, .next hne hrun hu, fun after hafter => ?_⟩
    -- the separators end the run of capitals
    have hstart : ∀ c ∈ (run ++ (t ++ after)).head?, isCapital c = false := by
      obtain ⟨c, run, rfl⟩ := List.exists_cons_of_ne_nil hne
      rintro d ⟨⟩
      exact not_isCapital_of_isSeparator (hrun c List.mem_cons_self)
    rw [List.append_assoc, List.append_assoc, collapseFrom_upper_word hw hletter,
      collapseFrom_true hstart, collapseFrom_separators hrun, hcollapse after hafter,
      List.append_assoc, List.append_assoc]

/-! ## Names -/

/-- Spelled words have no two capitals in a row, so there is nothing to reduce. Induction on the
words. -/
theorem collapseFrom_joined (hws : ∀ w ∈ ws, IsPiece (write w)) (hafter : AreSeparators after)
    (h : Joined write ws t) : collapseFrom false (t ++ after) = t ++ after := by
  induction h with
  | last w =>
    rw [collapseFrom_append (hws w (List.mem_singleton_self w)), collapseFrom_after false hafter]
  | @next w run t ws hne hrun h ih =>
    obtain ⟨hw, hws⟩ := List.forall_mem_cons.mp hws
    rw [List.append_assoc, List.append_assoc, collapseFrom_append hw, collapseFrom_separators hrun,
      ih hws]

theorem collapseFrom_flatten (hps : ∀ p ∈ ps, IsPiece p) :
    collapseFrom false ps.flatten = ps.flatten := by
  induction ps with
  | nil => rfl
  | cons p ps ih =>
    obtain ⟨hp, hps⟩ := List.forall_mem_cons.mp hps
    rw [List.flatten_cons, collapseFrom_append hp, ih hps]

/-- The fragments of capitalised words. -/
theorem fragments_pascalOf (hws : ∀ w ∈ ws, IsWord w) :
    AtBoundary (pascalOf ws) ∧ fragments (pascalOf ws) = ws.map Case.upperFirst
      ∧ collapseFrom false (pascalOf ws) = pascalOf ws := by
  have hps : ∀ p ∈ ws.map Case.upperFirst, IsPiece p ∧ isCapital (p.headD default) = true := by
    intro p hp
    obtain ⟨w, hw, rfl⟩ := List.mem_map.mp hp
    exact ⟨(hws w hw).upperFirst.1, (hws w hw).upperFirst.2.1⟩
  have hflat : pascalOf ws = (ws.map Case.upperFirst).flatten := rfl
  obtain ⟨hboundary, hfragments⟩ := fragments_capitalised hps
  rw [hflat]
  exact ⟨hboundary, hfragments, collapseFrom_flatten fun p hp => (hps p hp).1⟩

theorem map_lower (hws : ∀ w ∈ ws, IsWord w) : ws.map Case.lower = ws :=
  (List.map_congr_left fun w hw => (hws w hw).lower).trans (List.map_id ws)

theorem map_lower_upperFirst (hws : ∀ w ∈ ws, IsWord w) :
    (ws.map Case.upperFirst).map Case.lower = ws := by
  rw [List.map_map]
  exact (List.map_congr_left fun w hw => (hws w hw).upperFirst.2.2).trans (List.map_id ws)

/-- **The words of a name are found** whichever convention spells them. -/
theorem split_of_spells (hws : ∀ w ∈ ws, IsWord w) (h : Spells ws name) : split name = ws := by
  have hpieces : ∀ w ∈ ws, IsPiece (id w) := fun w hw => (hws w hw).isPiece
  rw [split_eq, collapse]
  cases h with
  | separated hbefore hafter h =>
    rw [collapseFrom_separators hbefore, collapseFrom_joined hpieces hafter h,
      fragments_separators hbefore, fragments_joined hpieces hafter h, List.map_id, map_lower hws]
  | camel =>
    cases ws with
    | nil => rfl
    | cons w ws =>
      obtain ⟨hw, hws⟩ := List.forall_mem_cons.mp hws
      obtain ⟨hboundary, hfragments, hcollapse⟩ := fragments_pascalOf hws
      show (fragments (collapseFrom false (w ++ pascalOf ws))).map Case.lower = w :: ws
      rw [collapseFrom_append hw.isPiece, hcollapse, fragments_append hw.isPiece hboundary,
        hfragments, List.map_cons, hw.lower, map_lower_upperFirst hws]
  | pascal =>
    obtain ⟨-, hfragments, hcollapse⟩ := fragments_pascalOf hws
    rw [hcollapse, hfragments, map_lower_upperFirst hws]
  | capitals hletters hbefore hafter h =>
    -- what is left of the capitals is words in PascalCase, still between their separators
    obtain ⟨u, hu, hcollapse⟩ := exists_collapseFrom_capitals hws hletters h
    have hcapitalised : ∀ w ∈ ws, IsPiece (Case.upperFirst w) := fun w hw => (hws w hw).upperFirst.1
    rw [collapseFrom_separators hbefore, hcollapse _ hafter, fragments_separators hbefore,
      fragments_joined hcapitalised hafter hu, map_lower_upperFirst hws]

/-- **A name does not depend on the convention.** Every spelling of words has these words, and their
names in camelCase and in PascalCase, which stay as they are when they are converted again.

All that matters is that the words are found (`split_of_spells`). The two conventions spell the same
words themselves, which is why they stay. -/
theorem spellings_agree (hws : ∀ w ∈ ws, IsWord w) (h : Spells ws name) :
    split name = ws ∧ camel name = camelOf ws ∧ pascal name = pascalOf ws
      ∧ camel (camel name) = camel name ∧ pascal (pascal name) = pascal name := by
  have hsplit := split_of_spells hws h
  have hcamel : camel name = camelOf ws := by rw [camel_eq, hsplit]
  have hpascal : pascal name = pascalOf ws := by rw [pascal_eq, hsplit]
  refine ⟨hsplit, hcamel, hpascal, ?_, ?_⟩
  · rw [hcamel, camel_eq, split_of_spells hws .camel]
  · rw [hpascal, pascal_eq, split_of_spells hws .pascal]

/-- Words in capitals with separators of several kinds between and around them. -/
theorem spellings_agree_capitals :
    let ws : List Text := ["amo", "base", "url"]
    let name : Text := "-_AMO. BASE\u2003--URL_"
    (∀ w ∈ ws, IsWord w) ∧ Spells ws name ∧ split name = ws ∧ camel name = "amoBaseUrl"
      ∧ pascal name = "AmoBaseUrl" ∧ camel (camel name) = camel name := by
  intro ws name
  have hws : ∀ w ∈ ws, IsWord w := by decide
  have hjoined : Joined Case.upper ws (Case.upper "amo" ++ (". " ++ (Case.upper "base"
      ++ ("\u2003--" ++ Case.upper "url")))) :=
    .next (by decide) (by decide) (.next (by decide) (by decide) (.last _))
  have hbefore : AreSeparators "-_" := by decide
  have hafter : AreSeparators "_" := by decide
  have hspells : Spells ws name := .capitals (by decide) hbefore hafter hjoined
  obtain ⟨hsplit, hcamel, hpascal, hagain, -⟩ := spellings_agree hws hspells
  exact ⟨hws, hspells, hsplit, hcamel, hpascal, hagain⟩

end Words

end OptionTypes
