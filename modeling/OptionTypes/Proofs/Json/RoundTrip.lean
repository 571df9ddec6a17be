import OptionTypes.Json.Writer
import OptionTypes.Proofs.Json.Scalars

/-!
# Reading back what was written

JSON is read as the value that it was written from, as long as that is made of null, booleans,
integers, texts, lists and objects. A string is read code point by code point, each from its own
spelling; lists and objects are read part by part, and the fuel of a text's length lasts, since
every part is paid for with its own code points.

* `Json.Spells` and `Json.Reads` say that a text is read as a code point, and as a value, whatever
  may follow it.
* `itemsAt_join` and `membersAt_join` are the inductions over the parts.
* `Json.exists_write_read`: reading undoes writing, and `Json.areShort_of_writeAt`: the only values
  that are not written have an integer that is too long.
-/

namespace OptionTypes.Json

variable {t : Text} {p : Place}

/-! ## Strings -/

/-- What belongs to the escape read last is passed over. The reader counts how many code points it
has yet to pass over; here the count runs out with the text `taken`. Induction on that text. -/
theorem stringFrom_append (start position : Nat) (taken rest : Text) :
    stringFrom start taken.length position (taken ++ rest)
      = stringFrom start 0 (position + taken.length) rest := by
  induction taken generalizing position with
  | nil => rfl
  | cons c taken ih =>
    rw [List.length_cons, List.cons_append, stringFrom, ih]
    congr 1
    omega

/-- Whether a part of a string is read as a code point, whatever follows. -/
def Spells (s : Text) (c : CodePoint) : Prop :=
  ∀ start position rest t p, rest ≠ [] →
    stringFrom start 0 (position + s.length) rest = .ok (t, p) →
    stringFrom start 0 position (s ++ rest) = .ok (c :: t, p)

/-- A letter after a backslash is read as the character that it stands for. -/
theorem spells_simple {e d : Char} (he : e ≠ 'u') (h : simpleEscape? e = some d) :
    Spells [.char '\\', .char e] (.char d) := by
  intro start position rest t p _ hrest
  have hplain : CodePoint.char e ≠ .char 'u' := fun heq => he (CodePoint.char.inj heq)
  have hread : (CodePoint.char e).char?.bind simpleEscape? = some d := h
  have hskip : stringFrom start 1 (position + 1) (.char e :: rest) = .ok (t, p) := hrest
  rw [List.cons_append, List.cons_append, List.nil_append, stringFrom.eq_6 _ _ _ _ hplain]
  simp only [hread, hskip]
  rfl

/-- Four hex digits are read as the number that they spell. Below thirty-two a table of all numbers
answers, and these are the only ones that are spelled so. -/
theorem fourDigits?_hex {n : Nat} (h : n < 0x20) {rest : Text} (hne : rest ≠ []) :
    fourDigits? (Text.ofChars (Quoted.hex 4 n) ++ rest) = some n := by
  have htable : ∀ n < 0x20, (Text.ofChars (Quoted.hex 4 n)).length = 4
      ∧ (Text.ofChars (Quoted.hex 4 n)).all (·.is Digit.isHex) = true
      ∧ Digit.ofHex ((Text.ofChars (Quoted.hex 4 n)).filterMap CodePoint.char?) = n := by
    decide
  obtain ⟨hlength, hhex, hvalue⟩ := htable n h
  have htake : (Text.ofChars (Quoted.hex 4 n) ++ rest).take 4 = Text.ofChars (Quoted.hex 4 n) :=
    List.take_left' hlength
  -- the reader asks for a fifth code point, and the rest has one
  have hlong : 4 < (Text.ofChars (Quoted.hex 4 n) ++ rest).length := by
    have hpos := List.length_pos_iff.mpr hne
    rw [List.length_append, hlength]
    omega
  rw [fourDigits?, htake, if_pos ⟨hlength, hlong, hhex⟩, hvalue]

/-- A control character is no part of a pair. -/
theorem joined?_control {n : Nat} (h : n < 0x20) (rest : Text) (position : Nat) :
    joined? n rest position = .ok none := by
  unfold joined?
  split
  · rw [if_neg]
    omega
  · rfl

/-- A control character is read from its four digits. -/
theorem spells_unicodeEscape {c : CodePoint} (h : c.value < 0x20) :
    Spells (unicodeEscape c.value) c := by
  intro start position rest t p hne hrest
  have hlength : (Text.ofChars (Quoted.hex 4 c.value)).length = 4 := rfl
  have hdigits := fourDigits?_hex h hne
  have hskip := stringFrom_append start (position + 1)
    (.char 'u' :: Text.ofChars (Quoted.hex 4 c.value)) rest
  rw [List.length_cons, hlength, List.cons_append, Nat.add_assoc] at hskip
  have hsplit : unicodeEscape c.value ++ rest
      = .char '\\' :: .char 'u' :: (Text.ofChars (Quoted.hex 4 c.value) ++ rest) := rfl
  have hread : stringFrom start 0 (position + (1 + 5)) rest = .ok (t, p) := hrest
  -- five code points after the backslash belong to the escape and are passed over
  rw [hsplit, stringFrom.eq_5]
  simp only [hdigits, joined?_control h, hskip, hread, CodePoint.ofNat?_value]
  rfl

/-- A code point that needs no escape is read as it is. -/
theorem spells_self {c : CodePoint} (hquote : c ≠ .char '"') (hslash : c ≠ .char '\\')
    (hvalue : ¬c.value < 0x20) : Spells [c] c := by
  intro start position rest t p _ hrest
  have hread : stringFrom start 0 (position + 1) rest = .ok (t, p) := hrest
  rw [List.singleton_append, stringFrom.eq_7 _ _ _ _ hquote hslash, if_neg hvalue, hread]
  rfl

/-- Every code point is read from its own spelling: one of the seven short escapes, four digits, or
itself. -/
theorem spells_spell (c : CodePoint) : Spells (spell false c) c := by
  unfold spell
  split
  · exact spells_simple (by decide) rfl
  · exact spells_simple (by decide) rfl
  · exact spells_simple (by decide) rfl
  · exact spells_simple (by decide) rfl
  · exact spells_simple (by decide) rfl
  · exact spells_simple (by decide) rfl
  · exact spells_simple (by decide) rfl
  -- the code points without a short escape: control characters, and all others
  next c hquote hslash _ _ _ _ _ =>
    simp only [Bool.false_and]
    split
    next hlow => exact spells_unicodeEscape hlow
    next hhigh => exact spells_self hquote hslash hhigh

/-- A text is read from the spellings of its code points, up to the closing mark. Induction on the
text; behind each spelling there is something left, at least the mark. -/
theorem stringFrom_flatMap (start position : Nat) (t rest : Text) :
    stringFrom start 0 position (t.flatMap (spell false) ++ .char '"' :: rest)
      = .ok (t, ⟨rest, position + (t.flatMap (spell false)).length + 1⟩) := by
  induction t generalizing position with
  | nil => rfl
  | cons c t ih =>
    rw [List.flatMap_cons, List.append_assoc]
    refine spells_spell c start position _ _ _ (by simp) ?_
    rw [ih, List.length_append]
    congr 4
    omega

/-- The text between two quotation marks is read, and the reader goes on after them. -/
theorem stringFrom_quote (start position : Nat) (t rest : Text) :
    stringFrom start 0 (position + 1) ((quote false t ++ rest).drop 1)
      = .ok (t, ⟨rest, position + (quote false t).length⟩) := by
  have hsplit : (quote false t ++ rest).drop 1
      = t.flatMap (spell false) ++ .char '"' :: rest := by
    simp [quote]
  have hlength : (quote false t).length = (t.flatMap (spell false)).length + 2 := by
    simp [quote]
  rw [hsplit, stringFrom_flatMap, hlength]
  congr 3
  omega

/-! ## The rules of the reader -/

section Rules

variable {fuel n : Nat} {q r last : Place} {s name : Text} {v : Value} {items : List Value}
  {members before : Members}

theorem Place.skip_one (c : CodePoint) (s : Text) (n : Nat) : skip 1 ⟨c :: s, n⟩ = ⟨s, n + 1⟩ := rfl

/-- The rule for a list that is not empty: its items, from the first place that is not blank. -/
theorem valueAt_list (hstart : Place.skipBlanks ⟨s, n + 1⟩ = q) (hopen : q.peek ≠ some ']')
    (hitems : itemsAt fuel q = .ok (items, r)) :
    valueAt (fuel + 1) ⟨.char '[' :: s, n⟩ = .ok (.list items, r) := by
  rw [valueAt.eq_2]
  show (if (Place.skip 1 ⟨.char '[' :: s, n⟩).skipBlanks.peek = some ']' then _
    else itemsAt fuel (Place.skip 1 ⟨.char '[' :: s, n⟩).skipBlanks >>= _) = _
  rw [Place.skip_one, hstart, if_neg hopen, hitems]
  rfl

/-- The rule for an object that is not empty. -/
theorem valueAt_object (hstart : Place.skipBlanks ⟨s, n + 1⟩ = q) (hopen : q.peek ≠ some '\x7d')
    (hmembers : membersAt fuel [] q = .ok (members, r)) :
    valueAt (fuel + 1) ⟨.char '\x7b' :: s, n⟩ = .ok (.object members, r) := by
  rw [valueAt.eq_2]
  show (if (Place.skip 1 ⟨.char '\x7b' :: s, n⟩).skipBlanks.peek = some '\x7d' then _
    else membersAt fuel [] (Place.skip 1 ⟨.char '\x7b' :: s, n⟩).skipBlanks >>= _) = _
  rw [Place.skip_one, hstart, if_neg hopen, hmembers]
  rfl

/-- The rule for a value that starts neither a string nor a collection. -/
theorem valueAt_scalar {c : Char} (hpeek : p.peek = some c) (hc : c ∉ ['"', '[', '\x7b']) :
    valueAt (fuel + 1) p = scalar p := by
  have hmark : ∀ mark ∈ ['"', '[', '\x7b'], some c ≠ some mark := by
    rintro mark hmem ⟨⟩
    exact hc hmem
  rw [valueAt.eq_2, hpeek]
  split
  next heq => exact absurd heq (hmark _ (by decide))
  next heq => exact absurd heq (hmark _ (by decide))
  next heq => exact absurd heq (hmark _ (by decide))
  next => rfl

/-- The rule for the last item, behind which the bracket closes. -/
theorem itemsAt_last (hvalue : valueAt fuel p = .ok (v, q))
    (hclose : q.skipBlanks = ⟨.char ']' :: s, n⟩) :
    itemsAt (fuel + 1) p = .ok ([v], ⟨s, n + 1⟩) := by
  rw [itemsAt.eq_2, hvalue, Outcome.ok_bind]
  simp only [hclose]
  rfl

/-- The rule for an item with a comma behind it. -/
theorem itemsAt_next (hvalue : valueAt fuel p = .ok (v, q))
    (hcomma : q.skipBlanks = ⟨.char ',' :: s, n⟩) (hnext : Place.skipBlanks ⟨s, n + 1⟩ = r)
    (hitems : itemsAt fuel r = .ok (items, last)) :
    itemsAt (fuel + 1) p = .ok (v :: items, last) := by
  rw [itemsAt.eq_2, hvalue, Outcome.ok_bind]
  simp only [hcomma]
  show (itemsAt fuel (Place.skip 1 ⟨.char ',' :: s, n⟩).skipBlanks >>= _) = _
  rw [Place.skip_one, hnext, hitems]
  rfl

/-- What the reader of an object does behind a member. -/
def afterMember (fuel : Nat) (members : Members) (p : Place) : Except ReadError (Members × Place) :=
  let q := p.skipBlanks
  match q.peek with
  | some '\x7d' => return (members, q.skip 1)
  | some ',' => membersAt fuel members (q.skip 1).skipBlanks
  | _ => q.fail .comma

/-- The rule for a member: a name, a colon and a value. What comes behind it is left to
`afterMember`. -/
theorem membersAt_eq_afterMember (hpeek : p.peek = some '"')
    (hname : stringFrom p.position 0 (p.position + 1) (p.rest.drop 1) = .ok (name, q))
    (hcolon : q.skipBlanks = ⟨.char ':' :: s, n⟩) (hstart : Place.skipBlanks ⟨s, n + 1⟩ = r)
    (hvalue : valueAt fuel r = .ok (v, last)) :
    membersAt (fuel + 1) before p = afterMember fuel (before.insert (.text name) v) last := by
  rw [membersAt.eq_2, hpeek, if_neg (by decide), hname, Outcome.ok_bind]
  simp only [hcolon]
  show (if some ':' ≠ some ':' then _
    else valueAt fuel (Place.skip 1 ⟨.char ':' :: s, n⟩).skipBlanks >>= _) = _
  rw [if_neg (by decide), Place.skip_one, hstart, hvalue]
  rfl

/-- The rule behind the last member. -/
theorem afterMember_last (hclose : p.skipBlanks = ⟨.char '\x7d' :: s, n⟩) :
    afterMember fuel members p = .ok (members, ⟨s, n + 1⟩) := by
  rw [afterMember, hclose]
  rfl

/-- The rule behind a member with a comma after it. -/
theorem afterMember_next (hcomma : p.skipBlanks = ⟨.char ',' :: s, n⟩)
    (hnext : Place.skipBlanks ⟨s, n + 1⟩ = q) :
    afterMember fuel members p = membersAt fuel members q := by
  subst hnext
  rw [afterMember, hcomma]
  rfl

end Rules

/-! ## Places -/

/-- All blanks are passed over, and nothing else. -/
theorem Place.skipBlanks_append {blanks s : Text} (hblanks : ∀ c ∈ blanks, isBlank c = true)
    (hs : ∀ c ∈ s.head?, isBlank c = false) (position : Nat) :
    skipBlanks ⟨blanks ++ s, position⟩ = ⟨s, position + blanks.length⟩ := by
  have hrun : (blanks ++ s).takeWhile isBlank = blanks := by
    rw [List.takeWhile_append_of_pos hblanks]
    cases s with
    | nil => simp
    | cons c rest => simp [hs c rfl]
  rw [skipBlanks, skip]
  simp only [hrun, List.drop_left]

/-- Where there is no blank nothing is passed over. -/
theorem Place.skipBlanks_self {s : Text} (hs : ∀ c ∈ s.head?, isBlank c = false) (position : Nat) :
    skipBlanks ⟨s, position⟩ = ⟨s, position⟩ := by
  have hnone : ∀ c ∈ ([] : Text), isBlank c = true := by simp
  exact skipBlanks_append hnone hs position

/-- A mark is no blank, whatever stands behind it. -/
theorem not_blank_mark {mark : Char} (h : Place.isBlank (.char mark) = false) (rest : Text) :
    ∀ c ∈ (CodePoint.char mark :: rest).head?, Place.isBlank c = false := by
  intro c hc
  cases hc
  exact h

/-- Blanks before a mark are passed over, and none behind it. -/
theorem Place.skipBlanks_mark {blanks : Text} (hblanks : ∀ c ∈ blanks, isBlank c = true)
    {mark : Char} (hmark : isBlank (.char mark) = false) (rest : Text) (position : Nat) :
    skipBlanks ⟨blanks ++ .char mark :: rest, position⟩
      = ⟨.char mark :: rest, position + blanks.length⟩ :=
  skipBlanks_append hblanks (not_blank_mark hmark rest) position

/-- At a mark there is nothing to pass over. -/
theorem Place.skipBlanks_at_mark {mark : Char} (hmark : isBlank (.char mark) = false) (rest : Text)
    (position : Nat) :
    skipBlanks ⟨.char mark :: rest, position⟩ = ⟨.char mark :: rest, position⟩ :=
  skipBlanks_self (not_blank_mark hmark rest) position

/-- Joined parts start with the first of them. -/
theorem exists_join_cons (sep t : Text) (ts : List Text) :
    ∃ more, Text.join sep (t :: ts) = t ++ more := by
  cases ts with
  | nil => exact ⟨[], (List.append_nil t).symm⟩
  | cons u ts => exact ⟨sep ++ Text.join sep (u :: ts), List.append_assoc _ _ _⟩

/-! ## Values that are read back -/

/-- The characters that the scalars start with. -/
def scalarOpenings : List Char :=
  ['n', 't', 'f', '-', '0', '1', '2', '3', '4', '5', '6', '7', '8', '9']

/-- The characters that values start with. -/
def openings : List Char := '"' :: '[' :: '\x7b' :: scalarOpenings

/-- Whether a text starts a value. -/
def Opens (s : Text) : Prop := ∃ c ∈ openings, ∃ rest, s = .char c :: rest

/-- Whether a text is read as a value, whatever may follow, with a fuel of its own length. -/
structure Reads (s : Text) (v : Value) : Prop where
  opens : Opens s
  valueAt : ∀ fuel, s.length ≤ fuel → ∀ position rest, Delimits rest →
    valueAt fuel ⟨s ++ rest, position⟩ = .ok (v, ⟨rest, position + s.length⟩)

/-- What starts a value is not empty. So each value pays for the fuel that reading it takes. -/
theorem Opens.length_pos {s : Text} (h : Opens s) : 0 < s.length := by
  obtain ⟨c, -, rest, rfl⟩ := h
  exact Nat.zero_lt_succ _

/-- No blank stands where a value starts. -/
theorem Opens.not_blank {s : Text} (h : Opens s) (rest : Text) :
    ∀ c ∈ (s ++ rest).head?, Place.isBlank c = false := by
  have hopening : ∀ c ∈ openings, (!Place.isBlank (.char c)) = true :=
    List.all_eq_true.mp (by decide)
  obtain ⟨c, hc, more, rfl⟩ := h
  intro c' hc'
  cases hc'
  exact (Bool.not_eq_true' _).mp (hopening c hc)

/-- No bracket is closed where a value starts. -/
theorem Opens.peek_ne {s : Text} (h : Opens s) (rest : Text) (position : Nat) {closing : Char}
    (hclosing : closing ∉ openings) : Place.peek ⟨s ++ rest, position⟩ ≠ some closing := by
  obtain ⟨c, hc, more, rfl⟩ := h
  intro hpeek
  cases hpeek
  exact hclosing hc

/-- What starts a value still does so with more parts behind it. -/
theorem Opens.join {s : Text} (h : Opens s) (sep : Text) (parts : List Text) :
    Opens (Text.join sep (s :: parts)) := by
  obtain ⟨c, hc, rest, rfl⟩ := h
  obtain ⟨more, hmore⟩ := exists_join_cons sep (.char c :: rest) parts
  exact ⟨c, hc, rest ++ more, hmore⟩

/-- A quotation mark starts a value. -/
theorem opens_quote (t : Text) : Opens (quote false t) := ⟨'"', by decide, _, rfl⟩

/-- A quoted text is read as the text. -/
theorem reads_quote (t : Text) : Reads (quote false t) (.text t) where
  opens := opens_quote t
  valueAt := by
    intro fuel hfuel position rest _
    cases fuel with
    | zero => exact absurd hfuel (Nat.not_le.mpr (opens_quote t).length_pos)
    | succ fuel =>
      have hpeek : Place.peek ⟨quote false t ++ rest, position⟩ = some '"' := rfl
      rw [valueAt.eq_2, hpeek]
      simp only [stringFrom_quote]
      rfl

/-! ## Scalars -/

/-- A scalar is read by its own reader, since its first character belongs to no other form. -/
theorem reads_scalar {c : Char} (hc : c ∈ scalarOpenings) {more : Text} {v : Value}
    (h : ∀ rest, Delimits rest → ∀ position, scalar ⟨.char c :: more ++ rest, position⟩
      = .ok (v, ⟨rest, position + (CodePoint.char c :: more).length⟩)) :
    Reads (.char c :: more) v where
  opens :=
    ⟨c, List.mem_cons_of_mem _ (List.mem_cons_of_mem _ (List.mem_cons_of_mem _ hc)), more, rfl⟩
  valueAt := by
    intro fuel hfuel position rest hrest
    have hmarks : ∀ c ∈ scalarOpenings, decide (c ∉ ['"', '[', '\x7b']) = true :=
      List.all_eq_true.mp (by decide)
    cases fuel with
    | zero => cases hfuel
    | succ fuel => rw [valueAt_scalar rfl (of_decide_eq_true (hmarks c hc)), h rest hrest position]

/-- The word for null is read. -/
theorem reads_null : Reads (Text.ofString "null") .null := by
  have hnull : ("null", Value.null) ∈ keywords := by simp [keywords]
  exact reads_scalar (by decide) fun rest _ => scalar_keyword hnull rest

/-- The words for the two booleans are read. -/
theorem reads_bool (b : Bool) : Reads (if b then "true" else "false") (.bool b) := by
  have htrue : ("true", Value.bool true) ∈ keywords := by simp [keywords]
  have hfalse : ("false", Value.bool false) ∈ keywords := by simp [keywords]
  cases b with
  | false => exact reads_scalar (by decide) fun rest _ => scalar_keyword hfalse rest
  | true => exact reads_scalar (by decide) fun rest _ => scalar_keyword htrue rest

/-- An integer is read from its decimal digits, with or without a sign before them. -/
theorem reads_decimal {n : Int} (h : Reading.IsShort n) :
    Reads (Text.ofChars (Reading.decimal n)) (.number (.int n)) := by
  have hdigits := Reading.forall_mem_toDigits (p := fun c => c ∈ scalarOpenings) (by decide)
    n.natAbs
  -- the first character is the sign, or the first digit
  have hopening : ∃ c ∈ scalarOpenings, ∃ cs, Reading.decimal n = c :: cs := by
    rw [Reading.decimal]
    split
    · exact ⟨'-', by decide, _, rfl⟩
    · obtain ⟨c, cs, hcs⟩ := List.exists_cons_of_ne_nil
        (Nat.toDigits_ne_nil (b := 10) (n := n.natAbs))
      exact ⟨c, hdigits c (hcs ▸ List.mem_cons_self), cs, hcs⟩
  obtain ⟨c, hc, cs, hcs⟩ := hopening
  have hread := fun rest (hrest : Delimits rest) => scalar_decimal h hrest
  rw [hcs] at hread ⊢
  exact reads_scalar hc hread

/-! ## Lists -/

variable {sep closing : Text}

theorem comma_not_blank : Place.isBlank (.char ',') = false := rfl

/-- The first part, a comma, and the other parts. -/
theorem join_append (sep part next : Text) (parts : List Text) (tail : Text) :
    Text.join (.char ',' :: sep) (part :: next :: parts) ++ tail
      = part ++ .char ',' :: (sep ++ (Text.join (.char ',' :: sep) (next :: parts) ++ tail)) := by
  simp [Text.join]

/-- The length of the first part, a comma, and the other parts. -/
theorem length_join (sep part next : Text) (parts : List Text) :
    (Text.join (.char ',' :: sep) (part :: next :: parts)).length
      = part.length + 1 + sep.length + (Text.join (.char ',' :: sep) (next :: parts)).length := by
  simp only [Text.join, List.length_append, List.length_cons]
  omega

/-- Behind a comma the reader goes on to the next part. -/
theorem Place.skipBlanks_separator (hsep : ∀ c ∈ sep, Place.isBlank c = true) {next : Text}
    (hnext : Opens next) (parts : List Text) (tail : Text) (position : Nat) :
    skipBlanks ⟨sep ++ (Text.join (.char ',' :: sep) (next :: parts) ++ tail), position⟩
      = ⟨Text.join (.char ',' :: sep) (next :: parts) ++ tail, position + sep.length⟩ :=
  skipBlanks_append hsep ((hnext.join (.char ',' :: sep) parts).not_blank tail) position

/-- One item of a list and the separator after it. -/
theorem itemsAt_part (hsep : ∀ c ∈ sep, Place.isBlank c = true) {part next tail : Text} {v : Value}
    (hpart : Reads part v) (hnext : Opens next) (parts : List Text) {fuel position : Nat}
    {items : List Value} {last : Place} (hfuel : part.length ≤ fuel)
    (hitems : itemsAt fuel ⟨Text.join (.char ',' :: sep) (next :: parts) ++ tail,
      position + part.length + 1 + sep.length⟩ = .ok (items, last)) :
    itemsAt (fuel + 1) ⟨Text.join (.char ',' :: sep) (part :: next :: parts) ++ tail, position⟩
      = .ok (v :: items, last) := by
  have hread := hpart.valueAt fuel hfuel position
    (.char ',' :: (sep ++ (Text.join (.char ',' :: sep) (next :: parts) ++ tail)))
    (delimits_cons (by decide) _)
  have hcomma := Place.skipBlanks_at_mark comma_not_blank
    (sep ++ (Text.join (.char ',' :: sep) (next :: parts) ++ tail)) (position + part.length)
  rw [join_append]
  exact itemsAt_next hread hcomma (Place.skipBlanks_separator hsep hnext parts tail _) hitems

/-- The items of a list are read up to its closing bracket. Induction on the items: a separator
brings the fuel that the reader spends on the item before it. -/
theorem itemsAt_join (hsep : ∀ c ∈ sep, Place.isBlank c = true)
    (hclosing : ∀ c ∈ closing, Place.isBlank c = true) {parts : List Text} {items : List Value}
    (h : List.Forall₂ Reads parts items) (hne : parts ≠ []) (rest : Text) :
    ∀ fuel position, (Text.join (.char ',' :: sep) parts).length + 1 ≤ fuel →
      itemsAt fuel ⟨Text.join (.char ',' :: sep) parts ++ (closing ++ .char ']' :: rest), position⟩
        = .ok (items, ⟨rest, position + (Text.join (.char ',' :: sep) parts).length
          + closing.length + 1⟩) := by
  induction h with
  | nil => exact absurd rfl hne
  | @cons part item parts items hpart hparts ih =>
    intro fuel position hfuel
    obtain ⟨fuel, rfl⟩ := Nat.exists_eq_add_one.mpr (Nat.zero_lt_of_lt hfuel)
    cases hparts with
    | nil =>
      -- the last item: its own length is the fuel left, and the bracket follows
      have hread := hpart.valueAt fuel (Nat.le_of_succ_le_succ hfuel) position
        (closing ++ .char ']' :: rest)
        (delimits_blanks hclosing (delimits_cons (by decide) rest))
      have hclose := Place.skipBlanks_mark hclosing
        (by decide : Place.isBlank (.char ']') = false) rest (position + part.length)
      exact itemsAt_last hread hclose
    | @cons next value parts values hnext hmore =>
      -- the item has a code point, and so the fuel for the others is less by one
      have hpos := hpart.opens.length_pos
      rw [length_join] at hfuel ⊢
      have hitems := ih (by simp) fuel (position + part.length + 1 + sep.length) (by omega)
      rw [itemsAt_part hsep hpart hnext.opens parts (by omega) hitems]
      congr 3
      omega

/-! ## Objects -/

/-- The text of a member, with blanks after its colon. -/
def memberText (gap name value : Text) : Text := quote false name ++ .char ':' :: (gap ++ value)

/-- Whether a text is read as a member. -/
inductive ReadsMember (gap : Text) : Text → Key × Value → Prop
  | mk (name : Text) {s : Text} {v : Value} (h : Reads s v) :
    ReadsMember gap (memberText gap name s) (.text name, v)

variable {gap : Text}

/-- A member starts with the quotation mark of its name. -/
theorem ReadsMember.opens {part : Text} {member : Key × Value} (h : ReadsMember gap part member) :
    Opens part := by
  cases h
  exact ⟨'"', by decide, _, rfl⟩

/-- One member is read and inserted into those before it. The parts of its text are met in order:
name, colon, blanks, value; each is read where the one before ends. -/
theorem membersAt_memberText (hgap : ∀ c ∈ gap, Place.isBlank c = true) {s : Text} {v : Value}
    (hs : Reads s v) {fuel : Nat} (hfuel : s.length ≤ fuel) (before : Members) (name : Text)
    (position : Nat) {rest : Text} (hrest : Delimits rest) :
    membersAt (fuel + 1) before ⟨memberText gap name s ++ rest, position⟩
      = afterMember fuel (before.insert (.text name) v)
          ⟨rest, position + (memberText gap name s).length⟩ := by
  have hsplit : memberText gap name s ++ rest
      = quote false name ++ .char ':' :: (gap ++ (s ++ rest)) := by
    simp [memberText]
  have hend : position + (quote false name).length + 1 + gap.length + s.length
      = position + (memberText gap name s).length := by
    simp only [memberText, List.length_append, List.length_cons]
    omega
  -- each of the four parts is read where the one before it has ended
  have hname := stringFrom_quote position position name (.char ':' :: (gap ++ (s ++ rest)))
  have hcolon := Place.skipBlanks_at_mark (by decide : Place.isBlank (.char ':') = false)
    (gap ++ (s ++ rest)) (position + (quote false name).length)
  have hstart := Place.skipBlanks_append hgap (hs.opens.not_blank rest)
    (position + (quote false name).length + 1)
  have hvalue := hs.valueAt fuel hfuel (position + (quote false name).length + 1 + gap.length) rest
    hrest
  rw [hend] at hvalue
  rw [hsplit]
  exact membersAt_eq_afterMember rfl hname hcolon hstart hvalue

/-- One member of an object and the separator after it. The members read so far are in the
accumulator. -/
theorem membersAt_part (hgap : ∀ c ∈ gap, Place.isBlank c = true)
    (hsep : ∀ c ∈ sep, Place.isBlank c = true) {s : Text} {v : Value} (hs : Reads s v)
    {next : Text} (hnext : Opens next) (parts : List Text) {fuel : Nat} (hfuel : s.length ≤ fuel)
    (before : Members) (name tail : Text) (position : Nat) :
    membersAt (fuel + 1) before
        ⟨Text.join (.char ',' :: sep) (memberText gap name s :: next :: parts) ++ tail, position⟩
      = membersAt fuel (before.insert (.text name) v)
        ⟨Text.join (.char ',' :: sep) (next :: parts) ++ tail,
          position + (memberText gap name s).length + 1 + sep.length⟩ := by
  have hcomma := Place.skipBlanks_at_mark comma_not_blank
    (sep ++ (Text.join (.char ',' :: sep) (next :: parts) ++ tail))
    (position + (memberText gap name s).length)
  have hstart := Place.skipBlanks_separator hsep hnext parts tail
    (position + (memberText gap name s).length + 1)
  rw [join_append, membersAt_memberText hgap hs hfuel _ _ _ (delimits_cons (by decide) _),
    afterMember_next hcomma hstart]

/-- The members of an object are read up to its closing brace. Induction on the members, with those
that were read so far in the accumulator: what is read in the end is the insertion of all of
them. -/
theorem membersAt_join (hgap : ∀ c ∈ gap, Place.isBlank c = true)
    (hsep : ∀ c ∈ sep, Place.isBlank c = true) (hclosing : ∀ c ∈ closing, Place.isBlank c = true)
    {parts : List Text} {members : Members} (h : List.Forall₂ (ReadsMember gap) parts members)
    (hne : parts ≠ []) (rest : Text) :
    ∀ fuel before position, (Text.join (.char ',' :: sep) parts).length + 1 ≤ fuel →
      membersAt fuel before
          ⟨Text.join (.char ',' :: sep) parts ++ (closing ++ .char '\x7d' :: rest), position⟩
        = .ok (before.insertAll members,
          ⟨rest, position + (Text.join (.char ',' :: sep) parts).length + closing.length + 1⟩) := by
  induction h with
  | nil => exact absurd rfl hne
  | @cons part member parts members hpart hparts ih =>
    intro fuel before position hfuel
    obtain ⟨fuel, rfl⟩ := Nat.exists_eq_add_one.mpr (Nat.zero_lt_of_lt hfuel)
    obtain @⟨name, s, v, hs⟩ := hpart
    have hlength : s.length < (memberText gap name s).length := by
      simp only [memberText, List.length_append, List.length_cons]
      omega
    -- after the last member the object closes, after any other one a comma follows
    cases hparts with
    | nil =>
      rw [Text.join] at hfuel ⊢
      have hclose := Place.skipBlanks_mark hclosing
        (by decide : Place.isBlank (.char '\x7d') = false) rest
        (position + (memberText gap name s).length)
      rw [membersAt_memberText hgap hs (by omega) _ _ _
        (delimits_blanks hclosing (delimits_cons (by decide) rest)), afterMember_last hclose]
      rfl
    | @cons next member parts members hnext hmore =>
      rw [length_join] at hfuel ⊢
      rw [membersAt_part hgap hsep hs hnext.opens parts (by omega),
        ih (by simp) _ _ _ (by omega)]
      have hinsert : before.insertAll ((.text name, v) :: member :: members)
          = (before.insert (.text name) v).insertAll (member :: members) := rfl
      rw [hinsert]
      congr 3
      omega

/-! ## Between brackets -/

/-- Whether text in a layout is as it is, between commas and colons with nothing but blanks. -/
structure Layout.Readable (l : Layout) (gap : Text) : Prop where
  item : Text.ofString l.itemSeparator = [.char ',']
  key : Text.ofString l.keySeparator = .char ':' :: gap
  isBlank : ∀ c ∈ gap, Place.isBlank c = true
  raw : l.asciiOnly = false

/-- The layout with indentation is readable. -/
theorem readable_indented : Layout.indented.Readable [.char ' '] :=
  ⟨rfl, rfl, by decide, rfl⟩

/-- The layout without blanks is readable. -/
theorem readable_compact : Layout.compact.Readable [] := ⟨rfl, rfl, by decide, rfl⟩

variable {l : Layout}

/-- The text between two brackets, with the breaks of the layout written out. -/
theorem enclose_append (hl : l.Readable gap) {parts : List Text} (hne : parts ≠ []) (depth : Nat)
    (opening closing : Char) (rest : Text) :
    l.enclose depth opening closing parts ++ rest
      = .char opening :: (l.breakAt (depth + 1)
          ++ (Text.join (.char ',' :: l.breakAt (depth + 1)) parts
            ++ (l.breakAt depth ++ .char closing :: rest))) := by
  have hfilled : parts.isEmpty = false := by simpa using hne
  simp [Layout.enclose, hfilled, hl.item]

/-- The length of the text between two brackets. -/
theorem length_enclose (hl : l.Readable gap) {parts : List Text} (hne : parts ≠ []) (depth : Nat)
    (opening closing : Char) :
    (l.enclose depth opening closing parts).length
      = (l.breakAt (depth + 1)).length
        + (Text.join (.char ',' :: l.breakAt (depth + 1)) parts).length
        + (l.breakAt depth).length + 2 := by
  have hlength := congrArg List.length (enclose_append hl hne depth opening closing [])
  simp only [List.append_nil, List.length_cons, List.length_append, List.length_nil] at hlength
  omega

/-- An opening bracket starts a value, whether there are parts or not. -/
theorem opens_enclose {opening : Char} (hopening : opening ∈ openings) (depth : Nat)
    (closing : Char) (parts : List Text) :
    Opens (l.enclose depth opening closing parts) := by
  unfold Layout.enclose
  split
  · exact ⟨opening, hopening, _, rfl⟩
  · exact ⟨opening, hopening, _, rfl⟩

/-- A break is made of blanks: a line end and the indentation. -/
theorem isBlank_breakAt (l : Layout) (depth : Nat) :
    ∀ c ∈ l.breakAt depth, Place.isBlank c = true := by
  intro c h
  unfold Layout.breakAt at h
  split at h
  · cases h
  · rcases List.mem_cons.mp h with rfl | h
    · rfl
    · rw [List.eq_of_mem_replicate h]
      rfl

/-- A list is read from its items. Reading the brackets takes one unit of fuel, which they have paid
for by their own two code points. -/
theorem reads_list (hl : l.Readable gap) {parts : List Text} {items : List Value}
    (h : List.Forall₂ Reads parts items) (depth : Nat) :
    Reads (l.enclose depth '[' ']' parts) (.list items) where
  opens := opens_enclose (by decide) depth ']' parts
  valueAt := by
    intro fuel hfuel position rest _
    cases h with
    | nil =>
      -- an empty list has no line of its own for an item
      cases fuel with
      | zero => cases hfuel
      | succ fuel => rfl
    | @cons part item parts items hpart hparts =>
      have hne : part :: parts ≠ [] := by simp
      have hlength := length_enclose hl hne depth '[' ']'
      cases fuel with
      | zero => omega
      | succ fuel =>
        have hjoin := hpart.opens.join (.char ',' :: l.breakAt (depth + 1)) parts
        have hstart := Place.skipBlanks_append (isBlank_breakAt l (depth + 1))
          (hjoin.not_blank (l.breakAt depth ++ .char ']' :: rest)) (position + 1)
        have hitems := itemsAt_join (isBlank_breakAt l (depth + 1))
          (isBlank_breakAt l depth) (.cons hpart hparts) hne rest fuel
          (position + 1 + (l.breakAt (depth + 1)).length) (by omega)
        rw [enclose_append hl hne, valueAt_list hstart (hjoin.peek_ne _ _ (by decide)) hitems]
        congr 3
        omega

/-- An object is read from its members. What comes out are the members inserted one after the other,
which is the object itself as long as it names no member twice. -/
theorem reads_object (hl : l.Readable gap) {parts : List Text} {members : Members}
    (h : List.Forall₂ (ReadsMember gap) parts members) (depth : Nat) :
    Reads (l.enclose depth '\x7b' '\x7d' parts)
      (.object (Members.insertAll [] members)) where
  opens := opens_enclose (by decide) depth '\x7d' parts
  valueAt := by
    intro fuel hfuel position rest _
    cases h with
    | nil =>
      cases fuel with
      | zero => cases hfuel
      | succ fuel => rfl
    | @cons part member parts members hpart hparts =>
      have hne : part :: parts ≠ [] := by simp
      have hlength := length_enclose hl hne depth '\x7b' '\x7d'
      cases fuel with
      | zero => omega
      | succ fuel =>
        -- the members begin with a quotation mark, so they are neither blank nor the end of the
        -- object
        have hjoin := hpart.opens.join (.char ',' :: l.breakAt (depth + 1)) parts
        have hstart := Place.skipBlanks_append (isBlank_breakAt l (depth + 1))
          (hjoin.not_blank (l.breakAt depth ++ .char '\x7d' :: rest)) (position + 1)
        have hmembers := membersAt_join hl.isBlank (isBlank_breakAt l (depth + 1))
          (isBlank_breakAt l depth) (.cons hpart hparts) hne rest fuel []
          (position + 1 + (l.breakAt (depth + 1)).length) (by omega)
        rw [enclose_append hl hne, valueAt_object hstart (hjoin.peek_ne _ _ (by decide)) hmembers]
        congr 3
        omega

/-- **A document with a value that is read back** is read as the value. It has no mark of an
encoding at its start, since no value opens with one, and nothing but blanks is left behind the
value. -/
theorem read_eq_ok {s : Text} {v : Value} (h : Reads s v) {blanks : Text}
    (hblanks : ∀ c ∈ blanks, Place.isBlank c = true) : read (s ++ blanks) = .ok v := by
  obtain ⟨c, hc, rest, hs⟩ := h.opens
  -- no value opens with a byte order mark
  have hmark : (s ++ blanks).head?.map CodePoint.value ≠ some 0xFEFF := by
    have hopening : ∀ c ∈ openings, (CodePoint.value (.char c) != 0xFEFF) = true :=
      List.all_eq_true.mp (by decide)
    rw [hs]
    intro heq
    exact bne_iff_ne.mp (hopening c hc) (Option.some.inj heq)
  have hstart := Place.skipBlanks_self (h.opens.not_blank blanks) 0
  have hdelimits := delimits_blanks hblanks delimits_nil
  rw [List.append_nil] at hdelimits
  have hvalue := h.valueAt (2 * (s ++ blanks).length + 2)
    (by rw [List.length_append]; omega) 0 blanks hdelimits
  -- nothing but blanks is left behind the value
  have hend := Place.skipBlanks_append (s := []) hblanks (by simp) (0 + s.length)
  rw [List.append_nil] at hend
  rw [read, if_neg hmark, hstart, hvalue, Outcome.ok_bind]
  simp only [hend]
  rfl

/-! ## Whole values -/

mutual

/-- Whether a value is made of null, booleans, integers, texts, lists, and objects that name each of
their members once. -/
def IsPlain : Value → Prop
  | .null => True
  | .bool _ => True
  | .number (.int _) => True
  | .text _ => True
  | .list items => ArePlain items
  | .object members => ArePlainMembers members ∧ Members.insertAll [] members = members
  | _ => False

/-- Whether all items of a list are plain. -/
def ArePlain : List Value → Prop
  | [] => True
  | item :: items => IsPlain item ∧ ArePlain items

/-- Whether all members of an object are plain and named by texts. -/
def ArePlainMembers : List (Key × Value) → Prop
  | [] => True
  | (k, v) :: members => (∃ name, k = .text name) ∧ IsPlain v ∧ ArePlainMembers members

end

mutual

/-- The integers in a value, at any depth. -/
def integers : Value → List Int
  | .number (.int n) => [n]
  | .list items => integersOfItems items
  | .object members => integersOfMembers members
  | _ => []

/-- The integers in the items of a list. -/
def integersOfItems : List Value → List Int
  | [] => []
  | item :: items => integers item ++ integersOfItems items

/-- The integers in the members of an object. -/
def integersOfMembers : List (Key × Value) → List Int
  | [] => []
  | (_, v) :: members => integers v ++ integersOfMembers members

end

/-- Whether all integers of a list are short enough to be written. -/
def AreShort (ns : List Int) : Prop := ∀ n ∈ ns, Reading.IsShort n

/-- The integers of two parts are short when those of each part are. -/
theorem areShort_append {ms ns : List Int} : AreShort (ms ++ ns) ↔ AreShort ms ∧ AreShort ns :=
  List.forall_mem_append

/-- An integer is written in decimal digits, unless it is too long. -/
theorem writeNumber_int {n : Int} {t : Text} :
    writeNumber (.int n) = .ok t ↔ Reading.IsShort n ∧ t = Text.ofChars (Reading.decimal n) :=
  Outcome.mapError_eq_ok_iff.trans Reading.writeInteger_eq_ok_iff

mutual

/-- A plain value with short integers is written, and what is written is read as the value.
Induction on the value, mutual with items and members. -/
theorem exists_reads_writeAt (hl : l.Readable gap) (depth : Nat) :
    ∀ v, IsPlain v → AreShort (integers v) → ∃ s, writeAt l depth v = .ok s ∧ Reads s v
  | .null, _, _ => ⟨_, rfl, reads_null⟩
  | .bool b, _, _ => ⟨_, rfl, reads_bool b⟩
  | .number (.int n), _, hshort => by
    have hn := hshort n List.mem_cons_self
    exact ⟨_, writeNumber_int.mpr ⟨hn, rfl⟩, reads_decimal hn⟩
  | .text t, _, _ => by
    refine ⟨_, rfl, ?_⟩
    rw [hl.raw]
    exact reads_quote t
  | .list items, h, hshort => by
    obtain ⟨parts, hparts, hreads⟩ := exists_reads_writeItems hl (depth + 1) items h hshort
    refine ⟨_, ?_, reads_list hl hreads depth⟩
    rw [writeAt, hparts]
    rfl
  -- members are written in order and read back by writes, which distinct keys make no difference to
  | .object members, h, hshort => by
    obtain ⟨hmembers, hinsert⟩ := h
    obtain ⟨parts, hparts, hreads⟩ :=
      exists_reads_writeMembers hl (depth + 1) members hmembers hshort
    have hobject := reads_object hl hreads depth
    rw [hinsert] at hobject
    refine ⟨_, ?_, hobject⟩
    rw [writeAt, hparts]
    rfl
  | .number (.float _), h, _ => h.elim
  | .complex _ _, h, _ => h.elim
  | .function _, h, _ => h.elim
  | .foreign _ _, h, _ => h.elim

/-- The items of a list are written, and each part is read as its item. -/
theorem exists_reads_writeItems (hl : l.Readable gap) (depth : Nat) :
    ∀ items, ArePlain items → AreShort (integersOfItems items) →
      ∃ parts, writeItems l depth items = .ok parts ∧ List.Forall₂ Reads parts items
  | [], _, _ => ⟨[], rfl, .nil⟩
  | item :: items, h, hshort => by
    obtain ⟨hitem, hitems⟩ := areShort_append.mp hshort
    obtain ⟨part, hpart, hread⟩ := exists_reads_writeAt hl depth item h.1 hitem
    obtain ⟨parts, hparts, hreads⟩ := exists_reads_writeItems hl depth items h.2 hitems
    refine ⟨part :: parts, ?_, .cons hread hreads⟩
    rw [writeItems, hpart, hparts]
    rfl

/-- The members of an object are written, and each part is read as its member. -/
theorem exists_reads_writeMembers (hl : l.Readable gap) (depth : Nat) :
    ∀ members, ArePlainMembers members → AreShort (integersOfMembers members) →
      ∃ parts, writeMembers l depth members = .ok parts
        ∧ List.Forall₂ (ReadsMember gap) parts members
  | [], _, _ => ⟨[], rfl, .nil⟩
  | (k, v) :: members, h, hshort => by
    obtain ⟨⟨name, rfl⟩, hv, hmembers⟩ := h
    obtain ⟨hvalue, hothers⟩ := areShort_append.mp hshort
    obtain ⟨s, hs, hread⟩ := exists_reads_writeAt hl depth v hv hvalue
    obtain ⟨parts, hparts, hreads⟩ := exists_reads_writeMembers hl depth members hmembers hothers
    refine ⟨memberText gap name s :: parts, ?_, .cons (.mk name hread) hreads⟩
    have htext : quote l.asciiOnly name ++ Text.ofString l.keySeparator ++ s
        = memberText gap name s := by
      rw [memberText, hl.raw, hl.key, List.append_assoc]
      rfl
    rw [writeMembers, hs, hparts, ← htext]
    rfl

end

mutual

/-- Nothing is written of a value with an integer that is too long. The converse of the above, for
whatever values: only numbers are ever refused, and a collection is refused for one of its parts. -/
theorem areShort_of_writeAt (depth : Nat) :
    ∀ (v : Value) {s : Text}, writeAt l depth v = .ok s → AreShort (integers v)
  | .number (.int n), _, h => List.forall_mem_singleton.mpr (writeNumber_int.mp h).1
  | .list items, _, h => by
    obtain ⟨parts, hparts, -⟩ := Outcome.bind_eq_ok_iff.mp h
    exact areShort_of_writeItems (depth + 1) items hparts
  | .object members, _, h => by
    obtain ⟨parts, hparts, -⟩ := Outcome.bind_eq_ok_iff.mp h
    exact areShort_of_writeMembers (depth + 1) members hparts
  | .null, _, _ => List.forall_mem_nil _
  | .bool _, _, _ => List.forall_mem_nil _
  | .number (.float _), _, _ => List.forall_mem_nil _
  | .text _, _, _ => List.forall_mem_nil _
  | .complex _ _, _, _ => List.forall_mem_nil _
  | .function _, _, _ => List.forall_mem_nil _
  | .foreign _ _, _, _ => List.forall_mem_nil _

/-- The integers in items that are written are short. -/
theorem areShort_of_writeItems (depth : Nat) :
    ∀ (items : List Value) {parts : List Text}, writeItems l depth items = .ok parts →
      AreShort (integersOfItems items)
  | [], _, _ => List.forall_mem_nil _
  | item :: items, _, h => by
    obtain ⟨first, hfirst, h⟩ := Outcome.bind_eq_ok_iff.mp h
    obtain ⟨rest, hrest, -⟩ := Outcome.bind_eq_ok_iff.mp h
    exact areShort_append.mpr
      ⟨areShort_of_writeAt depth item hfirst, areShort_of_writeItems depth items hrest⟩

/-- The integers in members that are written are short. -/
theorem areShort_of_writeMembers (depth : Nat) :
    ∀ (members : List (Key × Value)) {parts : List Text},
      writeMembers l depth members = .ok parts → AreShort (integersOfMembers members)
  | [], _, _ => List.forall_mem_nil _
  | (k, v) :: members, _, h => by
    obtain ⟨name, -, h⟩ := Outcome.bind_eq_ok_iff.mp h
    obtain ⟨first, hfirst, h⟩ := Outcome.bind_eq_ok_iff.mp h
    obtain ⟨rest, hrest, -⟩ := Outcome.bind_eq_ok_iff.mp h
    exact areShort_append.mpr
      ⟨areShort_of_writeAt depth v hfirst, areShort_of_writeMembers depth members hrest⟩

end

/-- **Reading undoes writing.** A plain value without an integer that is too long is written, and
what is written, with blanks after it or not, is read as the value. -/
theorem exists_write_read (hl : l.Readable gap) {v : Value} (h : IsPlain v)
    (hshort : AreShort (integers v)) {blanks : Text}
    (hblanks : ∀ c ∈ blanks, Place.isBlank c = true) :
    ∃ s, write l v = .ok s ∧ read (s ++ blanks) = .ok v := by
  obtain ⟨s, hs, hreads⟩ := exists_reads_writeAt hl 0 v h hshort
  exact ⟨s, hs, read_eq_ok hreads hblanks⟩

end OptionTypes.Json
