import OptionTypes.Proofs.Json.OneLine
import OptionTypes.Proofs.Spelling

/-!
# Compact JSON

Compact JSON has no blanks between its parts and no control characters at all: within a string these
are written as escapes. A script reads the same from such a string as JSON does.

* `Json.Zone` tells where in JSON a code point stands, and `Json.unquoted` what stands outside of
  strings.
* `Json.Tight` says that a part of JSON leaves no room; it is kept by all that is put together.
* `Json.tight_write`: compact JSON is tight.
* `Json.decode_quote`: a string is decoded to its text.
-/

namespace OptionTypes.Json

open Text

/-! ## Outside of strings -/

/-- Where a code point stands: outside of strings, inside of one, or after a backslash in one. -/
inductive Zone where
  | outside
  | inside
  | escaped
  deriving DecidableEq

/-- Where the code point after `c` stands. -/
def Zone.next : Zone → CodePoint → Zone
  | outside, c => if c = .char '"' then inside else outside
  | inside, c => if c = .char '"' then outside else if c = .char '\\' then escaped else inside
  | escaped, _ => inside

/-- Where the code point after a text stands. -/
def Zone.after (z : Zone) (t : Text) : Zone := t.foldl next z

/-- The code points of JSON outside of strings, without the quotation marks. -/
def unquoted (z : Zone) : Text → Text
  | [] => []
  | c :: t =>
    if z = .outside ∧ c ≠ .char '"' then c :: unquoted (z.next c) t else unquoted (z.next c) t

/-- Zones along two parts. -/
theorem Zone.after_append (z : Zone) (s t : Text) : z.after (s ++ t) = (z.after s).after t :=
  List.foldl_append

/-- What stands outside of strings in two parts: the second starts where the first has led to.
Induction on the first part. -/
theorem unquoted_append (z : Zone) (s t : Text) :
    unquoted z (s ++ t) = unquoted z s ++ unquoted (z.after s) t := by
  induction s generalizing z with
  | nil => rfl
  | cons c s ih =>
    rw [List.cons_append, unquoted, unquoted, ih (z.next c)]
    split
    · rfl
    · rfl

/-- Whether a text has no control character, ends outside of strings if it starts there, and has no
blank there. -/
structure Tight (t : Text) : Prop where
  control : ∀ c ∈ t, 0x20 ≤ c.value
  closed : Zone.outside.after t = .outside
  unquoted : ∀ c ∈ unquoted .outside t, Blank.isBlank c = false

theorem tight_nil : Tight [] := ⟨nofun, rfl, nofun⟩

/-- Two tight parts leave no room between them either: the first one ends outside of strings. -/
theorem Tight.append {s t : Text} (hs : Tight s) (ht : Tight t) : Tight (s ++ t) where
  control := List.forall_mem_append.mpr ⟨hs.control, ht.control⟩
  closed := by rw [Zone.after_append, hs.closed, ht.closed]
  unquoted := by
    rw [unquoted_append, hs.closed]
    exact List.forall_mem_append.mpr ⟨hs.unquoted, ht.unquoted⟩

/-- Whether a code point may stand outside of strings and is no quotation mark. -/
def isBare (c : CodePoint) : Bool :=
  decide (0x20 ≤ c.value) && decide (c ≠ .char '"') && !Blank.isBlank c

/-- What needs no quotation is tight. Induction on the text. -/
theorem tight_bare {t : Text} (h : ∀ c ∈ t, isBare c = true) : Tight t := by
  induction t with
  | nil => exact tight_nil
  | cons c t ih =>
    obtain ⟨hc, ht⟩ := List.forall_mem_cons.mp h
    simp only [isBare, Bool.and_eq_true, decide_eq_true_eq, Bool.not_eq_true'] at hc
    obtain ⟨⟨hcontrol, hquote⟩, hblank⟩ := hc
    have hsingle : Tight [c] := by
      refine ⟨by simpa using hcontrol, ?_, ?_⟩
      · rw [Zone.after, List.foldl_cons, List.foldl_nil, Zone.next, if_neg hquote]
      · rw [Json.unquoted, if_pos ⟨rfl, hquote⟩]
        exact List.forall_mem_cons.mpr ⟨hblank, nofun⟩
    exact hsingle.append (ih ht)

/-- Tight parts with something tight between them. -/
theorem tight_join {sep : Text} (hsep : Tight sep) :
    ∀ {parts : List Text}, (∀ t ∈ parts, Tight t) → Tight (join sep parts)
  | [], _ => tight_nil
  | [t], h => h t (List.mem_singleton_self t)
  | t :: u :: rest, h => by
    obtain ⟨ht, hrest⟩ := List.forall_mem_cons.mp h
    exact (ht.append hsep).append (tight_join hsep hrest)

/-! ## Inside of strings -/

/-- Whether a text has no control character and stays inside of a string. -/
structure Enclosed (t : Text) : Prop where
  control : ∀ c ∈ t, 0x20 ≤ c.value
  inside : Zone.inside.after t = .inside
  unquoted : unquoted .inside t = []

/-- Two parts inside of a string are one part inside of it. -/
theorem Enclosed.append {s t : Text} (hs : Enclosed s) (ht : Enclosed t) : Enclosed (s ++ t) where
  control := List.forall_mem_append.mpr ⟨hs.control, ht.control⟩
  inside := by rw [Zone.after_append, hs.inside, ht.inside]
  unquoted := by rw [unquoted_append, hs.unquoted, hs.inside, ht.unquoted, List.nil_append]

/-- The spelling of a code point stays inside of its string: a quotation mark in it has a backslash
before it, and so has a backslash. -/
theorem enclosed_spell (c : CodePoint) : Enclosed (spell false c) := by
  have hescape : ∀ n < 0x20, (∀ c ∈ unicodeEscape n, 0x20 ≤ c.value)
      ∧ Zone.inside.after (unicodeEscape n) = .inside
      ∧ unquoted .inside (unicodeEscape n) = [] := by
    decide
  unfold spell
  split
  -- the escapes of two characters, one for each of the seven
  iterate 7 exact ⟨by decide, by decide, by decide⟩
  next hquote hslash _ _ _ _ _ =>
    simp only [Bool.false_and, Bool.false_eq_true, if_false]
    split
    next hlow =>
      obtain ⟨hcontrol, hinside, hunquoted⟩ := hescape _ hlow
      exact ⟨hcontrol, hinside, hunquoted⟩
    next hhigh =>
      refine ⟨by simpa using hhigh, ?_, ?_⟩
      · rw [Zone.after, List.foldl_cons, List.foldl_nil, Zone.next, if_neg hquote, if_neg hslash]
      · rw [unquoted, if_neg fun h => nomatch h.1]
        rfl

/-- The spellings of a text stay inside of its string. Induction on the text. -/
theorem enclosed_flatMap_spell (t : Text) : Enclosed (t.flatMap (spell false)) := by
  induction t with
  | nil => exact ⟨nofun, rfl, rfl⟩
  | cons c t ih => exact (enclosed_spell c).append ih

/-- A quoted text is tight: from outside into the string, along it, and out again. -/
theorem tight_quote (t : Text) : Tight (quote false t) := by
  obtain ⟨hcontrol, hinside, hunquoted⟩ := enclosed_flatMap_spell t
  refine ⟨?_, ?_, ?_⟩
  · rw [quote, List.forall_mem_append]
    exact ⟨List.forall_mem_cons.mpr ⟨by decide, hcontrol⟩, by decide⟩
  · rw [quote, Zone.after_append, ← List.singleton_append, Zone.after_append]
    show (Zone.inside.after _).after _ = _
    rw [hinside]
    rfl
  · rw [quote, ← List.singleton_append, unquoted_append, unquoted_append, Zone.after_append]
    show ∀ c ∈ [] ++ unquoted .inside _ ++ unquoted (Zone.inside.after _) _, _
    rw [hinside, hunquoted]
    exact nofun

/-! ## Whole values -/

/-- What numbers are made of is bare. -/
theorem isBare_of_isNumeral {c : CodePoint} (h : c.is isNumeral = true) : isBare c = true :=
  of_isNumeral (by decide) (by decide) h

/-- Tight parts between two brackets are tight. -/
theorem tight_enclose (depth : Nat) {opening closing : Char}
    (hopening : isBare (.char opening) = true) (hclosing : isBare (.char closing) = true)
    {parts : List Text} (h : ∀ t ∈ parts, Tight t) :
    Tight (Layout.compact.enclose depth opening closing parts) := by
  have hopen : Tight [.char opening] := tight_bare (List.forall_mem_singleton.mpr hopening)
  have hclose : Tight [.char closing] := tight_bare (List.forall_mem_singleton.mpr hclosing)
  unfold Layout.enclose
  split
  · exact hopen.append hclose
  · have hbreak : ∀ n, Layout.compact.breakAt n = [] := fun _ => rfl
    simp only [hbreak, List.append_nil]
    exact (hopen.append (tight_join (tight_bare (by decide)) h)).append hclose

theorem keeps_tight : Layout.compact.Keeps Tight where
  null := tight_bare (by decide)
  bool b := tight_bare (by revert b; decide)
  number h := tight_bare fun c hc => isBare_of_isNumeral (numeral_writeNumber h c hc)
  quote := tight_quote
  list depth _ h := tight_enclose depth (by decide) (by decide) h
  object depth _ h := tight_enclose depth (by decide) (by decide) h
  member name _ h := ((tight_quote name).append (tight_bare (by decide))).append h

/-- **Compact JSON is tight**, whatever the value. -/
theorem tight_write {v : Value} {t : Text} (h : write .compact v = .ok t) : Tight t :=
  keeps_tight.write h

/-! ## Strings in a script -/

/-- The digits of a control character. -/
def controlDigits (n : Nat) : List Escape.HexDigit :=
  [⟨0, false⟩, ⟨0, false⟩, ⟨Fin.ofNat 16 (n / 16), false⟩, ⟨Fin.ofNat 16 n, false⟩]

/-- What JSON writes for a character spells it in a script. -/
theorem spelling_spell (c : Char) : Escape.Spelling c (spell false (.char c)) := by
  have hdigits : ∀ n < 0x20, unicodeEscape n = Escape.word (controlDigits n)
      ∧ Escape.HexDigit.number (controlDigits n) = n := by decide
  unfold spell
  -- seven characters have escapes of their own, other controls are written as numbers
  split
  next heq => exact CodePoint.char.inj heq ▸ .plain (by decide)
  next heq => exact CodePoint.char.inj heq ▸ .plain (by decide)
  next heq => exact CodePoint.char.inj heq ▸ .letter 'n' (by decide)
  next heq => exact CodePoint.char.inj heq ▸ .letter 'r' (by decide)
  next heq => exact CodePoint.char.inj heq ▸ .letter 't' (by decide)
  next heq => exact CodePoint.char.inj heq ▸ .letter 'b' (by decide)
  next heq => exact CodePoint.char.inj heq ▸ .letter 'f' (by decide)
  next _ hslash _ _ _ _ _ =>
    simp only [Bool.false_and]
    split
    next hlow =>
      obtain ⟨hword, hnumber⟩ := hdigits c.toNat hlow
      rw [CodePoint.value, hword]
      exact .word _ rfl hnumber
    next => exact .raw fun heq => hslash (congrArg CodePoint.char heq)

theorem spelled_flatMap_spell (s : List Char) :
    Escape.Spelled s ((ofChars s).flatMap (spell false)) := by
  induction s with
  | nil => exact .nil
  | cons c s ih => exact .cons (spelling_spell c) ih

/-- **A string of JSON is decoded to its text**, without its quotation marks. -/
theorem decode_quote (s : List Char) :
    ∃ body, quote false (ofChars s) = .char '"' :: body ++ [.char '"']
      ∧ Escape.decode body = .ok (ofChars s) :=
  ⟨_, rfl, Escape.decode_spelled (spelled_flatMap_spell s)⟩

end OptionTypes.Json
