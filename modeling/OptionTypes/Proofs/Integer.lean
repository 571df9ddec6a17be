import OptionTypes.Number.Reading
import OptionTypes.Proofs.Escape

/-!
# Integers are read back

The decimal text of an integer is a sign and digits, the first of which is a zero only where it is
the only one. Reading it gives the integer. An integer has such a text unless it is too long.

* `Reading.writeInteger_eq_ok_iff`: which integers are written, and how.
* `Reading.integer_writeInteger`: reading undoes writing.
-/

namespace OptionTypes.Reading

open Text

/-- The decimal digits of an integer, after a sign if it is negative. -/
def decimal (n : Int) : List Char :=
  if n < 0 then '-' :: Nat.toDigits 10 n.natAbs else Nat.toDigits 10 n.natAbs

/-- Whether an integer is short enough to be written. -/
def IsShort (n : Int) : Prop := n.natAbs < 10 ^ digitLimit

instance (n : Int) : Decidable (IsShort n) :=
  inferInstanceAs (Decidable (n.natAbs < 10 ^ digitLimit))

/-- The first number that is too long is a power of ten. -/
theorem not_isShort_pow : ¬IsShort (10 ^ digitLimit) := by
  have hpow : ∀ k : Nat, ¬((10 : Int) ^ k).natAbs < 10 ^ k := by
    intro k
    rw [Int.natAbs_pow]
    exact Nat.lt_irrefl _
  exact hpow digitLimit

/-- The number of digits is within the limit if the number is. -/
theorem length_toDigits_le_iff (n : Nat) :
    (Nat.toDigits 10 n).length ≤ digitLimit ↔ n < 10 ^ digitLimit :=
  Nat.length_toDigits_le_iff (by decide) (by decide)

/-- An integer is written just if it is short enough, with its sign and its digits. -/
theorem writeInteger_eq_ok_iff {n : Int} {t : Text} :
    writeInteger n = .ok t ↔ IsShort n ∧ t = ofChars (decimal n) := by
  rw [writeInteger, IsShort, ← length_toDigits_le_iff]
  split
  next hlong =>
    constructor
    · exact nofun
    · intro h
      exact absurd hlong (Nat.not_lt.mpr h.1)
  next hshort =>
    constructor
    · intro h
      exact ⟨Nat.not_lt.mp hshort, (Except.ok.inj h).symm⟩
    · rintro ⟨-, rfl⟩
      rfl

theorem writeInteger_of_not_isShort {n : Int} (h : ¬IsShort n) :
    writeInteger n = .error .tooLongToWrite := by
  cases hwrite : writeInteger n with
  | ok t => exact absurd (writeInteger_eq_ok_iff.mp hwrite).1 h
  | error e =>
    unfold writeInteger at hwrite
    extract_lets digits at hwrite
    split at hwrite
    · cases hwrite
      rfl
    · cases hwrite

/-! ## Digits -/

/-- A digit is one of ten characters. -/
theorem digit_cases {c : Char} (h : c.isDigit = true) : ∃ d < 10, c = Nat.digitChar d := by
  have hall : ∀ n < 58, 48 ≤ n → ∃ d < 10, Char.ofNat n = Nat.digitChar d := by decide
  have hbounds : 48 ≤ c.toNat ∧ c.toNat < 58 := by
    simp only [Char.isDigit, Bool.and_eq_true, decide_eq_true_eq] at h
    exact ⟨UInt32.le_iff_toNat_le.mp h.1, Nat.lt_succ_of_le (UInt32.le_iff_toNat_le.mp h.2)⟩
  rw [← Char.ofNat_toNat c]
  exact hall c.toNat hbounds.2 hbounds.1

theorem digit_of_mem_toDigits {n : Nat} {c : Char} (h : c ∈ Nat.toDigits 10 n) :
    ∃ d < 10, c = Nat.digitChar d :=
  digit_cases (Nat.isDigit_of_mem_toDigits (by decide) (by decide) h)

/-- What is decided for the ten digits holds of each of a number's. -/
theorem forall_mem_toDigits {p : Char → Prop} (hp : ∀ d < 10, p (Nat.digitChar d)) (n : Nat) :
    ∀ c ∈ Nat.toDigits 10 n, p c := by
  intro c hc
  obtain ⟨d, hd, rfl⟩ := digit_of_mem_toDigits hc
  exact hp d hd

/-- A zero comes first only in the digits of zero. -/
theorem head?_toDigits_ne {n : Nat} (hn : n ≠ 0) : (Nat.toDigits 10 n).head? ≠ some '0' := by
  induction n using Nat.strongRecOn with
  | ind n ih =>
    have hsingle : ∀ d < 10, d ≠ 0 → [Nat.digitChar d].head? ≠ some '0' := by decide
    rw [Nat.toDigits_eq_if (by decide)]
    split
    next hlt => exact hsingle n hlt hn
    next hge =>
      rw [List.head?_append_of_ne_nil _ Nat.toDigits_ne_nil]
      exact ih (n / 10) (by omega) (by omega)

/-- Digits write the number that they are of. -/
theorem number_toDigits (n : Nat) : Digit.number 10 ((Nat.toDigits 10 n).map digitValue) = n := by
  have hvalue := forall_mem_toDigits
    (p := fun c => digitValue c = c.toNat - '0'.toNat) (by decide) n
  calc Digit.number 10 ((Nat.toDigits 10 n).map digitValue)
      = (Nat.toDigits 10 n).foldl (fun m c => m * 10 + digitValue c) 0 := by
        rw [Digit.number, List.foldl_map]
    _ = (Nat.toDigits 10 n).foldl (fun m c => 10 * m + (c.toNat - '0'.toNat)) 0 := by
        refine List.foldl_ext _ _ _ fun m c hc => ?_
        rw [hvalue c hc, Nat.mul_comm]
    _ = n := Nat.ofDigitChars_ten_toDigits

/-- Digits of a base are taken for a run, up to the end. -/
theorem digitRun_eq {base : Nat} {cs : List Char} (h : ∀ c ∈ cs, c ≠ '_' ∧ digitValue c < base) :
    digitRun base cs = (cs.map digitValue, []) := by
  induction cs with
  | nil => rfl
  | cons c cs ih =>
    obtain ⟨⟨hplain, hdigit⟩, hcs⟩ := List.forall_mem_cons.mp h
    rw [digitRun.eq_3 base c cs (fun _ _ heq _ => hplain heq), if_pos hdigit, ih hcs]
    rfl

/-- **What digits of a base are read as**, after a sign and the mark of the base. -/
theorem integer_of_digits {base actual : Nat} {t : Text} {negative : Bool} {unsigned cs : List Char}
    (hsign : sign (body t) = (negative, unsigned)) (hmark : afterPrefix base unsigned = (actual, cs))
    (hne : cs ≠ []) (hdigits : ∀ c ∈ cs, c ≠ '_' ∧ digitValue c < actual) :
    integer base t
      = if !isBinaryBase actual && digitLimit < cs.length then .error (.tooManyDigits cs.length)
        else if (base == 0 && actual == 10 && unsigned.head? == some '0')
            && Digit.number actual (cs.map digitValue) != 0 then .error (.notInteger base t)
        else .ok (if negative then -(Digit.number actual (cs.map digitValue) : Int)
          else Digit.number actual (cs.map digitValue)) := by
  obtain ⟨c, rest, rfl⟩ := List.exists_cons_of_ne_nil hne
  have hrun := digitRun_eq hdigits
  have hspacer := (hdigits c List.mem_cons_self).1
  unfold integer
  simp only [hsign, hmark]
  split
  next heq => exact absurd (List.cons.inj heq).1 hspacer
  next => simp only [hrun, List.map_cons, List.length_cons, List.length_map, List.isEmpty_cons,
    List.isEmpty_nil, List.head?_nil, Bool.false_or, Bool.not_true, reduceCtorEq, beq_iff_eq,
    if_false]

/-! ## Texts of integers -/

theorem dropWhile_eq_self {p : Char → Bool} {cs : List Char} (h : ∀ c ∈ cs, p c = false) :
    cs.dropWhile p = cs := by
  cases cs with
  | nil => rfl
  | cons c cs =>
    refine List.dropWhile_cons_of_neg ?_
    rw [h c List.mem_cons_self]
    exact Bool.false_ne_true

/-- Whether a number sees a character as it is, and as no blank. -/
def IsMark (c : Char) : Prop := plain (.char c) = c ∧ Blank.isAsciiBlank c = false

instance (c : Char) : Decidable (IsMark c) :=
  inferInstanceAs (Decidable (plain (.char c) = c ∧ Blank.isAsciiBlank c = false))

/-- A text of marks without blanks is read as it is. -/
theorem body_ofChars {cs : List Char} (hmark : ∀ c ∈ cs, IsMark c) : body (ofChars cs) = cs := by
  have hmap : (ofChars cs).map plain = cs := by
    rw [ofChars, List.map_map]
    exact (List.map_congr_left fun c hc => (hmark c hc).1).trans (List.map_id _)
  have hstart := dropWhile_eq_self fun c hc => (hmark c hc).2
  have hend : cs.reverse.dropWhile Blank.isAsciiBlank = cs.reverse :=
    dropWhile_eq_self fun c hc => (hmark c (List.mem_reverse.mp hc)).2
  simp only [body, hmap, hstart, hend, List.reverse_reverse]

/-- A decimal text consists of characters, none of them a blank. -/
theorem body_decimal (n : Int) : body (ofChars (decimal n)) = decimal n := by
  refine body_ofChars ?_
  have hdigits := forall_mem_toDigits (p := IsMark) (by decide) n.natAbs
  rw [decimal]
  split
  · exact List.forall_mem_cons.mpr ⟨by decide, hdigits⟩
  · exact hdigits

theorem sign_of_unsigned {cs : List Char} (h : ∀ c ∈ cs.head?, c ≠ '-' ∧ c ≠ '+') :
    sign cs = (false, cs) := by
  cases cs with
  | nil => rfl
  | cons c cs =>
    obtain ⟨hminus, hplus⟩ := h c rfl
    exact sign.eq_3 _ (fun _ heq => hminus (List.cons.inj heq).1)
      fun _ heq => hplus (List.cons.inj heq).1

/-- The sign of an integer is told from its digits. -/
theorem sign_decimal (n : Int) :
    sign (decimal n) = (decide (n < 0), Nat.toDigits 10 n.natAbs) := by
  by_cases hn : n < 0
  · simp [decimal, hn, sign]
  · have hdigits := forall_mem_toDigits (p := fun c => c ≠ '-' ∧ c ≠ '+') (by decide) n.natAbs
    rw [decimal, if_neg hn, decide_eq_false hn]
    exact sign_of_unsigned fun c hc => hdigits c (List.mem_of_mem_head? hc)

/-- In base ten there is no prefix to pass. -/
theorem afterPrefix_ten (cs : List Char) : afterPrefix 10 cs = (10, cs) := by
  unfold afterPrefix
  split
  · simp
  · rfl

/-- **Reading undoes writing.** -/
theorem integer_writeInteger {n : Int} {t : Text} (h : writeInteger n = .ok t) :
    integer 10 t = .ok n := by
  obtain ⟨hshort, rfl⟩ := writeInteger_eq_ok_iff.mp h
  have hsign : sign (body (ofChars (decimal n))) = (decide (n < 0), Nat.toDigits 10 n.natAbs) := by
    rw [body_decimal, sign_decimal]
  have hdigits := forall_mem_toDigits (p := fun c => c ≠ '_' ∧ digitValue c < 10) (by decide)
    n.natAbs
  have hfits : ¬digitLimit < (Nat.toDigits 10 n.natAbs).length :=
    Nat.not_lt.mpr ((length_toDigits_le_iff n.natAbs).mpr hshort)
  have hvalue : (if n < 0 then -(n.natAbs : Int) else n.natAbs) = n := by
    split <;> omega
  rw [integer_of_digits hsign (afterPrefix_ten _) Nat.toDigits_ne_nil hdigits, number_toDigits]
  simp only [hfits, decide_eq_true_eq, decide_false, Bool.and_false]
  exact congrArg Except.ok hvalue

end OptionTypes.Reading
