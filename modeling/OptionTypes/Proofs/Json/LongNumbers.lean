import Mathlib.Data.List.TakeWhile
import OptionTypes.Json.Reader
import OptionTypes.Proofs.Consumption
import OptionTypes.Proofs.Integer
import OptionTypes.Proofs.Outcome

/-!
# Numbers that are too long

The numbers of a JSON document are made of digits and marks that can always be read as a number,
with one exception: an integer may have more digits than the limit. A document that fails because of
a number therefore holds these digits, one after the other.

* `Reading.HoldsLongRun`: a text holds more digits in one run than an integer may have.
* `Json.number?_eq_error`: how a number fails.
* `Json.Place.source`: the code points of a document as a list to consume, to which every reader is
  confined.
* `Json.readFault_of_read`: how a document fails.
-/

namespace OptionTypes

open Text

namespace Reading

/-- Whether a text holds a run of digits of a length that is beyond the limit. -/
def HoldsLongRun (t : Text) (length : Nat) : Prop :=
  ∃ run : List Char, ofChars run <:+: t ∧ (∀ c ∈ run, isDigit c = true) ∧ run.length = length
    ∧ digitLimit < length

/-- A long run of digits in a part of a text is one in the text. -/
theorem HoldsLongRun.mono {s t : Text} {length : Nat} (h : HoldsLongRun s length) (hst : s <:+: t) :
    HoldsLongRun t length := by
  obtain ⟨run, hrun, hdigits⟩ := h
  exact ⟨run, hrun.trans hst, hdigits⟩

/-- What is decided for the ten digits holds of every digit. -/
theorem forall_digit {p : Char → Prop} (hp : ∀ d < 10, p (Nat.digitChar d)) {c : Char}
    (h : isDigit c = true) : p c := by
  have hdigit : c.isDigit = true := h
  obtain ⟨d, hd, rfl⟩ := digit_cases hdigit
  exact hp d hd

variable {sgn cs whole : List Char} {e : Error}

/-- What precedes the digits of a number. -/
def IsSign (sgn : List Char) : Prop := sgn = [] ∨ sgn = ['-']

/-- Digits are among the marks that numbers are made of. -/
theorem isMark_of_digits (hcs : ∀ c ∈ cs, isDigit c = true) : ∀ c ∈ cs, IsMark c :=
  fun c hc => forall_digit (p := IsMark) (by decide) (hcs c hc)

/-- So is a sign. -/
theorem IsSign.isMark (h : IsSign sgn) : ∀ c ∈ sgn, IsMark c := by
  rcases h with rfl | rfl
  · exact nofun
  · exact List.forall_mem_singleton.mpr (by decide)

/-- A sign is taken off, and nothing is where there is none. -/
theorem sign_append (hsgn : IsSign sgn) (hcs : ∀ c ∈ cs.head?, isDigit c = true) :
    sign (sgn ++ cs) = (decide (sgn ≠ []), cs) := by
  rcases hsgn with rfl | rfl
  · exact sign_of_unsigned fun c hc =>
      forall_digit (p := fun c => c ≠ '-' ∧ c ≠ '+') (by decide) (hcs c hc)
  · rfl

/-- **An integer of digits fails only if it is too long.** Such a text has the form of an integer,
so the limit on digits is the one thing left to fail on, and the failure tells how many there
are. -/
theorem integer_eq_error (hsgn : IsSign sgn) (hne : cs ≠ [])
    (hdigits : ∀ c ∈ cs, isDigit c = true) (h : integer 10 (ofChars (sgn ++ cs)) = .error e) :
    digitLimit < cs.length ∧ e = .tooManyDigits cs.length := by
  have hmarks : ∀ c ∈ sgn ++ cs, IsMark c :=
    List.forall_mem_append.mpr ⟨hsgn.isMark, isMark_of_digits hdigits⟩
  have hsign : sign (body (ofChars (sgn ++ cs))) = (decide (sgn ≠ []), cs) := by
    rw [body_ofChars hmarks]
    exact sign_append hsgn fun c hc => hdigits c (List.mem_of_mem_head? hc)
  have hvalues : ∀ c ∈ cs, c ≠ '_' ∧ digitValue c < 10 := fun c hc =>
    forall_digit (p := fun c => c ≠ '_' ∧ digitValue c < 10) (by decide) (hdigits c hc)
  rw [integer_of_digits hsign (afterPrefix_ten cs) hne hvalues] at h
  split at h
  -- the only refusal that is left is that of too many digits
  next hlong =>
    cases h
    simp only [Bool.and_eq_true, decide_eq_true_eq] at hlong
    exact ⟨hlong.2, rfl⟩
  next =>
    split at h
    next hzero => simp at hzero
    next => cases h

/-- The fraction of a number. -/
def IsFraction (cs : List Char) : Prop :=
  cs = [] ∨ ∃ ds, cs = '.' :: ds ∧ ∀ c ∈ ds, isDigit c = true

/-- The exponent of a number. -/
def IsExponent (cs : List Char) : Prop :=
  cs = [] ∨ ∃ e s ds, cs = e :: s ++ ds ∧ (e = 'e' ∨ e = 'E') ∧ (s = [] ∨ s = ['+'] ∨ s = ['-'])
    ∧ ds ≠ [] ∧ ∀ c ∈ ds, isDigit c = true

/-- A fraction is made of marks of numbers. -/
theorem IsFraction.isMark (h : IsFraction cs) : ∀ c ∈ cs, IsMark c := by
  rcases h with rfl | ⟨ds, rfl, hds⟩
  · exact nofun
  · exact List.forall_mem_cons.mpr ⟨by decide, isMark_of_digits hds⟩

/-- An exponent is made of marks of numbers. -/
theorem IsExponent.isMark (h : IsExponent cs) : ∀ c ∈ cs, IsMark c := by
  rcases h with rfl | ⟨e, s, ds, rfl, he, hs, -, hds⟩
  · exact nofun
  · refine List.forall_mem_cons.mpr ⟨?_, List.forall_mem_append.mpr ⟨?_, isMark_of_digits hds⟩⟩
    · rcases he with rfl | rfl
      · decide
      · decide
    · rcases hs with rfl | rfl | rfl
      · exact nofun
      · exact List.forall_mem_singleton.mpr (by decide)
      · exact List.forall_mem_singleton.mpr (by decide)

/-- What has the form of an exponent is read as one, with or without a sign. -/
theorem exists_exponent {exp : List Char} (h : IsExponent exp) : ∃ n, exponent? exp = some n := by
  rcases h with rfl | ⟨e, s, ds, rfl, he, hs, hne, hdigits⟩
  · exact ⟨0, rfl⟩
  · have hsign : ∃ b, sign (s ++ ds) = (b, ds) := by
      rcases hs with rfl | rfl | rfl
      · exact ⟨_, sign_append (.inl rfl) fun c hc => hdigits c (List.mem_of_mem_head? hc)⟩
      · exact ⟨_, rfl⟩
      · exact ⟨_, rfl⟩
    obtain ⟨b, hsign⟩ := hsign
    have hempty : ds.isEmpty = false := by simpa using hne
    have hall : ds.all isDigit = true := List.all_eq_true.mpr hdigits
    simp only [List.cons_append, exponent?, if_pos he, hsign, hempty, hall, Bool.not_true,
      Bool.or_self, Bool.false_eq_true, if_false]
    exact ⟨_, rfl⟩

/-- The digits at the start of a text, where something else follows them. -/
theorem takeWhile_isDigit {cs rest : List Char} (hcs : ∀ c ∈ cs, isDigit c = true)
    (hrest : ∀ c ∈ rest.head?, isDigit c = false) :
    (cs ++ rest).takeWhile isDigit = cs ∧ (cs ++ rest).dropWhile isDigit = rest := by
  rw [List.takeWhile_append_of_pos hcs, List.dropWhile_append_of_pos hcs]
  cases rest with
  | nil => exact ⟨List.append_nil cs, rfl⟩
  | cons c rest =>
    have hc : ¬isDigit c = true := by
      rw [hrest c rfl]
      exact Bool.false_ne_true
    rw [List.takeWhile_cons_of_neg hc, List.dropWhile_cons_of_neg hc, List.append_nil]
    exact ⟨rfl, rfl⟩

/-- An exponent starts with a letter, so the digits before it end there. -/
theorem IsExponent.head {exp : List Char} (h : IsExponent exp) :
    ∀ c ∈ exp.head?, c ≠ '.' ∧ isDigit c = false := by
  rcases h with rfl | ⟨e, s, ds, rfl, he, -⟩
  · exact nofun
  · rintro c ⟨rfl⟩
    rcases he with rfl | rfl
    · decide
    · decide

/-- A whole number with a fraction and an exponent is a number. The reader takes the three apart
where they were put together, as each of them starts with something that the one before cannot
hold. -/
theorem exists_decimal (negative : Bool) {frac exp : List Char} (hne : whole ≠ [])
    (hwhole : ∀ c ∈ whole, isDigit c = true) (hfrac : IsFraction frac) (hexp : IsExponent exp) :
    ∃ x, decimal? negative (whole ++ (frac ++ exp)) = some x := by
  have hempty : whole.isEmpty = false := by simpa using hne
  obtain ⟨n, hn⟩ := exists_exponent hexp
  -- the whole digits end where a point, an exponent or nothing comes
  have hrest : ∀ c ∈ (frac ++ exp).head?, isDigit c = false := by
    rcases hfrac with rfl | ⟨ds, rfl, -⟩
    · exact fun c hc => (hexp.head c hc).2
    · rintro c ⟨rfl⟩
      decide
  obtain ⟨htake, hdrop⟩ := takeWhile_isDigit hwhole hrest
  unfold decimal?
  simp only [htake, hdrop, hempty, Bool.false_and, Bool.false_eq_true, if_false]
  rcases hfrac with rfl | ⟨ds, rfl, hds⟩
  · rw [List.nil_append]
    split
    next more => exact absurd rfl (hexp.head '.' rfl).1
    next =>
      rw [hn]
      exact ⟨_, rfl⟩
  · obtain ⟨-, hdrop'⟩ := takeWhile_isDigit hds fun c hc => (hexp.head c hc).2
    simp only [List.cons_append, hdrop', hn]
    exact ⟨_, rfl⟩

/-- What is put together like a number can be read. -/
theorem exists_float {frac exp : List Char} (hsgn : IsSign sgn) (hne : whole ≠ [])
    (hwhole : ∀ c ∈ whole, isDigit c = true) (hfrac : IsFraction frac) (hexp : IsExponent exp) :
    ∃ x, float (ofChars (sgn ++ (whole ++ (frac ++ exp)))) = .ok x := by
  have hmarks : ∀ c ∈ sgn ++ (whole ++ (frac ++ exp)), IsMark c := by
    simp only [List.forall_mem_append]
    exact ⟨hsgn.isMark, isMark_of_digits hwhole, hfrac.isMark, hexp.isMark⟩
  have hsign : sign (sgn ++ (whole ++ (frac ++ exp)))
      = (decide (sgn ≠ []), whole ++ (frac ++ exp)) := by
    refine sign_append hsgn fun c hc => ?_
    cases whole with
    | nil => exact absurd rfl hne
    | cons c' whole =>
      obtain rfl : c' = c := Option.some.inj hc
      exact hwhole _ List.mem_cons_self
  obtain ⟨x, hx⟩ := exists_decimal (decide (sgn ≠ [])) hne hwhole hfrac hexp
  refine ⟨x, ?_⟩
  unfold float float?
  simp only [body_ofChars hmarks, hsign, hx]
  rfl

end Reading

namespace Json

open Consumption Reading

/-! ## A single number -/

/-- Of the first code point of a text at most one is picked. -/
theorem filter_take_one (p : Char → Bool) (cs : List Char) :
    (cs.take 1).filter p = [] ∨ ∃ c, p c = true ∧ (cs.take 1).filter p = [c] := by
  cases cs with
  | nil => exact .inl rfl
  | cons c cs =>
    cases hc : p c with
    | false => exact .inl (by simp [hc])
    | true => exact .inr ⟨c, hc, by simp [hc]⟩

/-- What is taken as a fraction has the form of one. -/
theorem isFraction_fraction (cs : List Char) : IsFraction (fraction cs) := by
  unfold fraction
  split
  next rest =>
    extract_lets ds
    split
    · exact .inl rfl
    · exact .inr ⟨ds, rfl, fun c hc => List.mem_takeWhile_imp hc⟩
  next => exact .inl rfl

/-- What is taken as an exponent has the form of one. -/
theorem isExponent_exponent (cs : List Char) : IsExponent (exponent cs) := by
  unfold exponent
  split
  next e rest =>
    split
    next he =>
      extract_lets s ds
      split
      · exact .inl rfl
      next hne =>
        have hdigits : ∀ c ∈ ds, isDigit c = true := fun c hc => List.mem_takeWhile_imp hc
        refine .inr ⟨e, s, ds, rfl, he, ?_, by simpa using hne, hdigits⟩
        -- a sign may stand before the digits
        rcases filter_take_one (fun c => c == '+' || c == '-') rest with hnil | ⟨c, hc, hone⟩
        · exact .inl hnil
        · rw [Bool.or_eq_true, beq_iff_eq, beq_iff_eq] at hc
          rcases hc with rfl | rfl
          · exact .inr (.inl hone)
          · exact .inr (.inr hone)
    next => exact .inl rfl
  next => exact .inl rfl

/-- The digits before the fraction of a number are there, and nothing but digits. -/
theorem whole_of_number? (cs : List Char) :
    (match cs with
      | '0' :: _ => ['0']
      | cs => digits cs) <+: cs
      ∧ ∀ c ∈ (match cs with
        | '0' :: _ => ['0']
        | cs => digits cs), isDigit c = true := by
  split
  · exact ⟨⟨_, rfl⟩, List.forall_mem_singleton.mpr (by decide)⟩
  · exact ⟨List.takeWhile_prefix _, fun c hc => List.mem_takeWhile_imp hc⟩

/-- **A number fails only if it is an integer that is too long.** The parts that make up a number
have the form that the readers of numbers ask for, so a number with a fraction or an exponent is
always read, and an integer fails by its length alone. -/
theorem number?_eq_error {cs : List Char} {e : Error} {n : Nat}
    (h : number? cs = some (.error e, n)) :
    ∃ length, HoldsLongRun (ofChars cs) length ∧ e = .tooManyDigits length := by
  have hsgn : IsSign ((cs.take 1).filter (· == '-')) := by
    rcases filter_take_one (· == '-') cs with hnil | ⟨c, hc, hone⟩
    · exact .inl hnil
    · rw [beq_iff_eq.mp hc] at hone
      exact .inr hone
  unfold number? at h
  extract_lets sgn unsigned whole rest frac exp all number at h
  obtain ⟨hstart, hdigits⟩ := whole_of_number? unsigned
  have hinfix : ofChars whole <:+: ofChars cs := by
    refine List.IsInfix.map _ (hstart.isInfix.trans ?_)
    exact (List.drop_suffix _ cs).isInfix
  split at h
  · cases h
  next hne =>
    have hne : whole ≠ [] := by simpa using hne
    obtain ⟨hnumber, -⟩ := Prod.mk.inj (Option.some.inj h)
    unfold number at hnumber
    split at hnumber
    -- Without a fraction and an exponent it is an integer, and these alone have a limit.
    next hplain =>
      obtain ⟨hfrac, hexp⟩ : frac = [] ∧ exp = [] := by simpa using hplain
      have hall : all = sgn ++ whole := by
        simp only [all, hfrac, hexp, List.append_nil]
      obtain ⟨hlong, rfl⟩ := integer_eq_error hsgn hne hdigits
        (hall ▸ Outcome.map_eq_error_iff.mp hnumber)
      exact ⟨whole.length, ⟨whole, hinfix, hdigits, rfl, hlong⟩, rfl⟩
    next =>
      have hall : all = sgn ++ (whole ++ (frac ++ exp)) := by
        simp only [all, List.append_assoc]
      obtain ⟨x, hx⟩ := exists_float hsgn hne hdigits (isFraction_fraction rest)
        (isExponent_exponent (rest.drop frac.length))
      have hfloat := Outcome.map_eq_error_iff.mp hnumber
      rw [hall, hx] at hfloat
      cases hfloat

/-! ## Places -/

/-- The failures that a text accounts for: a rule that it breaks, or a number that is too long. -/
inductive ReadFault (t : Text) : ReadError → Prop where
  | violation (rule : Violation) (position : Nat) : ReadFault t (.violation rule position)
  | number {length : Nat} (h : HoldsLongRun t length) :
      ReadFault t (.number (.tooManyDigits length))

/-- The code points of a document, of which a place has some left. -/
def Place.source : Source Place CodePoint ReadError where
  left := Place.rest
  Accounts := ReadFault
  mono := by
    intro s t e hst h
    cases h with
    | violation rule position => exact .violation rule position
    | number h => exact .number (h.mono hst.isInfix)

/-- A broken rule is a failure that any text accounts for. -/
theorem confined_violation {α : Type} (t : Text) (rule : Violation) (position : Nat) :
    Confined (α := α) Place.source t (.error (.violation rule position)) :=
  .error (.violation rule position)

theorem Place.skip_suffix (n : Nat) (p : Place) : (p.skip n).rest <:+ p.rest :=
  List.drop_suffix n p.rest

theorem Place.skipBlanks_suffix (p : Place) : p.skipBlanks.rest <:+ p.rest := p.skip_suffix _

/-! ## Whole documents -/

/-- A number has no part in what fails here. -/
theorem readFault_of_joined? {high position : Nat} {rest t : Text} {e : ReadError}
    (h : joined? high rest position = .error e) : ReadFault t e := by
  unfold joined? at h
  split at h
  · split at h
    · split at h
      · cases h
        exact .violation _ _
      · split at h
        · cases h
        · cases h
    · cases h
  · cases h

/-- The reader of strings consumes what it reads and fails by a rule. Induction on the text; the
cases are those of the reader: the closing mark, an escape, a code point that stands for itself. -/
theorem confined_stringFrom (start skip position : Nat) (t : Text) :
    Confined Place.source t (stringFrom start skip position t) := by
  induction t generalizing skip position with
  | nil =>
    unfold stringFrom
    exact confined_violation _ _ _
  | cons c rest ih =>
    have hrest : rest <:+ c :: rest := List.suffix_cons c rest
    have htail : ∀ skip position,
        Confined Place.source (c :: rest) (stringFrom start skip position rest) :=
      fun skip position => (ih skip position).mono hrest
    have hgo : ∀ (skip position : Nat) (f : Text → Text),
        Confined Place.source (c :: rest)
          (stringFrom start skip position rest >>= fun x => .ok (f x.1, x.2)) :=
      fun skip position f => (htail skip position).bind fun _ _ hp => .ok _ hp
    unfold stringFrom
    split
    next heq => cases heq
    next heq =>
      obtain ⟨rfl, rfl⟩ := List.cons.inj heq
      exact htail _ _
    next heq =>
      obtain ⟨rfl, rfl⟩ := List.cons.inj heq
      split
      · exact .ok _ hrest
      · -- an escape
        split
        · exact confined_violation _ _ _
        next more =>
          split
          · exact confined_violation _ _ _
          next n _ =>
            refine .after (fun _ => readFault_of_joined?) fun found => ?_
            cases found with
            | some joined => exact hgo 11 _ (joined :: ·)
            | none => exact hgo 5 _ ((CodePoint.ofNat? n).toList ++ ·)
        next =>
          split
          · exact confined_violation _ _ _
          next d _ => exact hgo 1 _ (.char d :: ·)
      · split
        · exact confined_violation _ _ _
        · exact hgo 0 _ (_ :: ·)

/-- The characters that may belong to a number stand at the start of the text. -/
theorem startsWith_numberChars (t : Text) : ofChars (numberChars t) <+: t := by
  have hrun : numberChars t = ((t.map fun c => c.char?.getD ' ').takeWhile fun c =>
      isDigit c || "+-.eE".toList.contains c) := rfl
  rw [hrun]
  clear hrun
  induction t with
  | nil => exact List.nil_prefix
  | cons c t ih =>
    rw [List.map_cons, List.takeWhile_cons]
    split
    next hc =>
      cases c with
      | char c => exact List.prefix_cons_inj _ |>.mpr ih
      -- a lone surrogate was read as a blank, which no numeral has
      | surrogate n =>
        have hblank : (isDigit ' ' || "+-.eE".toList.contains ' ') = true := hc
        exact absurd hblank (by decide)
    next => exact List.nil_prefix

/-- The reader of scalars consumes what it reads, and fails by a rule or by a number that is too
long. -/
theorem confined_scalar (p : Place) : Confined Place.source p.rest (scalar p) := by
  unfold scalar
  split
  · exact .ok _ (p.skip_suffix _)
  · split
    · exact confined_violation _ _ _
    next e n herror =>
      obtain ⟨length, hrun, rfl⟩ := number?_eq_error herror
      exact .error (.number (hrun.mono (startsWith_numberChars p.rest).isInfix))
    · exact .ok _ (p.skip_suffix _)

/-- The readers with some fuel are confined to what they read. -/
structure ReadersConfined (fuel : Nat) : Prop where
  value : ∀ p, Confined Place.source p.rest (valueAt fuel p)
  items : ∀ p, Confined Place.source p.rest (itemsAt fuel p)
  members : ∀ before p, Confined Place.source p.rest (membersAt fuel before p)

variable {fuel : Nat}

/-- One level of a value is confined, if its parts are. -/
theorem ReadersConfined.value_succ (h : ReadersConfined fuel) (p : Place) :
    Confined Place.source p.rest (valueAt (fuel + 1) p) := by
  have hinside : (p.skip 1).skipBlanks.rest <:+ p.rest :=
    (Place.skipBlanks_suffix _).trans (p.skip_suffix 1)
  unfold valueAt
  split
  · refine ((confined_stringFrom _ _ _ _).mono (List.drop_suffix 1 p.rest)).bind ?_
    exact fun _ _ hq => .ok _ hq
  · extract_lets q
    split
    · exact .ok _ ((q.skip_suffix 1).trans hinside)
    · exact ((h.items q).mono hinside).bind fun _ _ hr => .ok _ hr
  · extract_lets q
    split
    · exact .ok _ ((q.skip_suffix 1).trans hinside)
    · exact ((h.members [] q).mono hinside).bind fun _ _ hr => .ok _ hr
  · exact confined_scalar p

/-- One item and those after it are confined, if each is. -/
theorem ReadersConfined.items_succ (h : ReadersConfined fuel) (p : Place) :
    Confined Place.source p.rest (itemsAt (fuel + 1) p) := by
  unfold itemsAt
  refine (h.value p).bind fun item q hq => ?_
  have hq' : q.skipBlanks.rest <:+ p.rest := q.skipBlanks_suffix.trans hq
  simp only
  split
  · exact .ok _ ((Place.skip_suffix 1 _).trans hq')
  · have hnext : ((q.skipBlanks.skip 1).skipBlanks).rest <:+ p.rest :=
      (Place.skipBlanks_suffix _).trans ((Place.skip_suffix 1 _).trans hq')
    exact ((h.items _).mono hnext).bind fun _ _ hr => .ok _ hr
  · exact confined_violation _ _ _

/-- One member and those after it are confined, if each is. -/
theorem ReadersConfined.members_succ (h : ReadersConfined fuel) (before : Members) (p : Place) :
    Confined Place.source p.rest (membersAt (fuel + 1) before p) := by
  -- the colon between a name and its value, with the blanks around it
  have hstep : ∀ {q : Place}, q.rest <:+ p.rest →
      ((q.skipBlanks.skip 1).skipBlanks).rest <:+ p.rest :=
    fun hq => (Place.skipBlanks_suffix _).trans
      ((Place.skip_suffix 1 _).trans ((Place.skipBlanks_suffix _).trans hq))
  unfold membersAt
  split
  · exact confined_violation _ _ _
  · refine ((confined_stringFrom _ _ _ _).mono (List.drop_suffix 1 p.rest)).bind fun name q hq => ?_
    simp only
    split
    · exact confined_violation _ _ _
    · refine ((h.value _).mono (hstep hq)).bind fun v r hr => ?_
      simp only
      split
      · exact .ok _ ((Place.skip_suffix 1 _).trans (r.skipBlanks_suffix.trans hr))
      · exact (h.members _ _).mono (hstep hr)
      · exact confined_violation _ _ _

/-- The readers are confined to what they read. Induction on the fuel, which every part of a value
takes from. Without fuel a reader breaks off by a rule. -/
theorem readersConfined : ∀ fuel, ReadersConfined fuel
  | 0 => ⟨fun _ => confined_violation _ _ _, fun _ => confined_violation _ _ _,
      fun _ _ => confined_violation _ _ _⟩
  | fuel + 1 =>
    have h := readersConfined fuel
    ⟨h.value_succ, h.items_succ, h.members_succ⟩

/-- **How a document fails.** It breaks a rule, or it holds a number that is too long. Every reader
is confined to the code points of the document, so whatever makes it fail is in there. -/
theorem readFault_of_read {document : Text} {e : ReadError} (h : read document = .error e) :
    ReadFault document e := by
  unfold read at h
  split at h
  · cases h
    exact .violation _ _
  · have hvalue := (readersConfined (2 * document.length + 2)).value
      (Place.skipBlanks ⟨document, 0⟩)
    rcases Outcome.bind_eq_error_iff.mp h with hfail | ⟨⟨v, p⟩, -, hrest⟩
    · exact (hvalue.mono (Place.skipBlanks_suffix ⟨document, 0⟩)).fault hfail
    · simp only at hrest
      split at hrest
      · cases hrest
      · cases hrest
        exact .violation _ _

end Json

end OptionTypes
