import Mathlib.Data.Nat.Digits.Defs
import OptionTypes.Proofs.Outcome
import OptionTypes.Text.Escape

/-!
# Escapes that denote nothing

An escape with a fixed number of digits is always a code point: four hexadecimal digits or three
octal ones write a small number. Only between braces may there be any number of digits, and so a
number beyond the last code point.

* `takesFrom_step`: what one escape takes along, and what it denotes.
* `Beyond` is a text with such an escape.
* `beyond_of_decode`: no other text fails to be decoded.
-/

namespace OptionTypes

/-! ## Numbers of digits -/

/-- The number that digits write, as the library writes it with the lowest digit first. -/
theorem Digit.number_eq (base : Nat) (ds : List Nat) :
    Digit.number base ds = Nat.ofDigits base ds.reverse := by
  rw [Digit.number, Nat.ofDigits_eq_foldr, List.foldr_reverse]
  simp only [Nat.cast_id, Nat.mul_comm, Nat.add_comm]

/-- Digits below their base write less than the power of the base. -/
theorem Digit.number_lt {base : Nat} (hbase : 1 < base) {ds : List Nat}
    (h : ∀ d ∈ ds, d < base) : Digit.number base ds < base ^ ds.length := by
  rw [Digit.number_eq, ← List.length_reverse]
  exact Nat.ofDigits_lt_base_pow_length hbase fun d hd => h d (List.mem_reverse.mp hd)

/-- The numbers that are no code point's are those beyond the last one. Surrogates fill the gap that
characters leave. -/
theorem CodePoint.ofNat?_eq_none_iff {n : Nat} : CodePoint.ofNat? n = none ↔ 0x110000 ≤ n := by
  unfold CodePoint.ofNat?
  by_cases hvalid : n.isValidChar
  · rw [dif_pos hvalid]
    simp only [Nat.isValidChar] at hvalid
    exact ⟨nofun, fun hle => by omega⟩
  · rw [dif_neg hvalid]
    simp only [Nat.isValidChar] at hvalid
    by_cases hsurrogate : 0xD800 ≤ n ∧ n < 0xE000
    · rw [dif_pos hsurrogate]
      exact ⟨nofun, fun hle => by omega⟩
    · rw [dif_neg hsurrogate]
      exact ⟨fun _ => by omega, fun _ => rfl⟩

/-- The number of a character gives the character back. -/
theorem CodePoint.ofNat?_toNat (c : Char) : CodePoint.ofNat? c.toNat = some (.char c) := by
  have hvalid : c.toNat.isValidChar := c.valid
  rw [CodePoint.ofNat?, dif_pos hvalid]
  rfl

/-- The number of a surrogate gives the surrogate back. -/
theorem CodePoint.ofNat?_surrogate (n : Fin 2048) :
    CodePoint.ofNat? (0xD800 + n.val) = some (.surrogate n) := by
  have hvalid : ¬(0xD800 + n.val).isValidChar := by
    have hlt := n.isLt
    simp only [Nat.isValidChar]
    omega
  have hrange : 0xD800 ≤ 0xD800 + n.val ∧ 0xD800 + n.val < 0xE000 := by
    have hlt := n.isLt
    omega
  rw [CodePoint.ofNat?, dif_neg hvalid, dif_pos hrange]
  simp

/-- A code point is that of its number. -/
theorem CodePoint.ofNat?_value (c : CodePoint) : CodePoint.ofNat? c.value = some c := by
  cases c with
  | char c => exact ofNat?_toNat c
  | surrogate n => exact ofNat?_surrogate n

namespace Escape

/-- A hex digit stands for less than sixteen. What is no digit stands for nothing. -/
theorem digitValue_lt (c : CodePoint) : digitValue c < 16 := by
  cases c with
  | surrogate n => exact Nat.succ_pos 15
  | char c =>
    show (Digit.hexValue? c).getD 0 < 16
    -- ten digits, six small letters, six capitals, and anything else counts as zero
    unfold Digit.hexValue?
    split
    next h =>
      have hle : c.toNat ≤ 57 := h.2
      show c.toNat - 48 < 16
      omega
    next =>
      split
      next h =>
        have hle : c.toNat ≤ 102 := h.2
        show c.toNat - 97 + 10 < 16
        omega
      next =>
        split
        next h =>
          have hle : c.toNat ≤ 70 := h.2
          show c.toNat - 65 + 10 < 16
          omega
        next => decide

/-- An octal digit stands for less than eight. -/
theorem digitValue_lt_of_isOctal {c : CodePoint} (h : isOctal c = true) : digitValue c < 8 := by
  cases c with
  | surrogate n => cases h
  | char c =>
    have hrange : ('0' ≤ c) ∧ c ≤ '7' := by
      simpa only [isOctal, CodePoint.is, Digit.isOctal, Bool.and_eq_true, decide_eq_true_eq] using h
    have hle : c.toNat ≤ 55 := hrange.2
    have hnine : c ≤ '9' := Char.le_trans hrange.2 (by decide)
    show (Digit.hexValue? c).getD 0 < 8
    rw [Digit.hexValue?, if_pos ⟨hrange.1, hnine⟩]
    show c.toNat - 48 < 8
    omega

/-- A number denotes nothing when it is beyond the last code point. Which of two failures that is
depends on whether it fits into a word. -/
theorem codePoint_eq_error_iff {n : Nat} {e : Error} :
    codePoint n = .error e
      ↔ 0x110000 ≤ n ∧ e = if n < 0x80000000 then .beyondUnicode else .beyondWord := by
  rw [codePoint, ← CodePoint.ofNat?_eq_none_iff]
  cases CodePoint.ofNat? n with
  | some c => simp
  | none => simp [eq_comm]

/-- An escape with its digits between braces, without the backslash. -/
def bracedText (digits : Text) : Text := .char 'u' :: .char '{' :: (digits ++ [.char '}'])

/-- A text with a braced escape for a number that is no code point's. -/
def Beyond (body : Text) (e : Error) : Prop :=
  ∃ digits, (.char '\\' :: bracedText digits) <:+: body ∧ digits.all isHex = true
    ∧ 0x110000 ≤ number 16 digits ∧ codePoint (number 16 digits) = .error e

/-- Few digits write a small number. -/
theorem number_lt {base n : Nat} {digits : Text} (hbase : 1 < base)
    (hdigits : ∀ c ∈ digits, digitValue c < base) (hlength : digits.length ≤ n) :
    number base digits < base ^ n := by
  have hsmall : number base digits < base ^ (digits.map digitValue).length :=
    Digit.number_lt hbase (List.forall_mem_map.mpr hdigits)
  rw [List.length_map] at hsmall
  exact hsmall.trans_le (Nat.pow_le_pow_right (by omega) hlength)

/-- Where the digits between braces are. -/
theorem eq_of_braced? {rest digits : Text} (h : braced? rest = some digits) :
    digits.all isHex = true ∧ ∃ after, rest = .char '{' :: (digits ++ .char '}' :: after) := by
  unfold braced? at h
  split at h
  next rest =>
    extract_lets run at h
    obtain ⟨more, hmore⟩ : run <+: rest := List.takeWhile_prefix _
    split at h
    next after hafter =>
      split at h
      · cases h
      · obtain rfl : run = digits := Option.some.inj h
        rw [← hmore, List.drop_left] at hafter
        exact ⟨List.all_takeWhile, after, by rw [← hmore, hafter]⟩
    next => cases h
  next => cases h

/-- Where a fixed number of digits is. -/
theorem eq_of_fixed? {n : Nat} {t digits : Text} (h : fixed? n t = some digits) :
    digits.length = n ∧ digits.all isHex = true ∧ ∃ after, t = digits ++ after := by
  unfold fixed? at h
  extract_lets run at h
  split at h
  next hrun =>
    obtain rfl : run = digits := Option.some.inj h
    rw [Bool.and_eq_true] at hrun
    exact ⟨of_decide_eq_true hrun.1, hrun.2, t.drop n, (List.take_append_drop n t).symm⟩
  next => cases h

/-- An octal escape has one to three digits. -/
theorem step_of_isOctal {c : CodePoint} (h : isOctal c = true) (rest : Text) :
    step c rest = (codePoint (number 8 (c :: (rest.take 2).takeWhile isOctal))).map
      fun p => ([p], ((rest.take 2).takeWhile isOctal).length + 1) := by
  have hne : ∀ a, isOctal (.char a) = false → c ≠ .char a := by
    rintro a ha rfl
    rw [ha] at h
    cases h
  unfold step
  split
  next => exact absurd rfl (hne 'u' rfl)
  next => exact absurd rfl (hne 'x' rfl)
  next => exact absurd rfl (hne '\r' rfl)
  next =>
    rw [if_pos h]
    exact Outcome.bind_ok _ _

/-- Where all code points have a property that a backslash lacks, there is none. -/
theorem backslash_not_mem {p : CodePoint → Bool} {t : Text} (hp : p (.char '\\') = false)
    (h : t.all p = true) : .char '\\' ∉ t := by
  intro hmem
  rw [List.all_eq_true.mp h _ hmem] at hp
  cases hp

/-- What an escape denotes that takes some code points along: a text at once, or the code point of a
number, which is small unless braces are around its digits. -/
inductive Takes (c : CodePoint) (more : Text) : Except Error (Text × Nat) → Prop where
  | text (t : Text) : Takes c more (.ok (t, more.length + 1))
  | small {n : Nat} (h : n < 0x110000) :
      Takes c more ((codePoint n).map fun p => ([p], more.length + 1))
  | braced {digits : Text} (hdigits : c :: more = bracedText digits)
      (hhex : digits.all isHex = true) :
      Takes c more ((codePoint (number 16 digits)).map fun p => ([p], more.length + 1))

/-- What an escape takes along is what it says that it takes. -/
theorem Takes.eq_of_ok {c : CodePoint} {more t : Text} {n : Nat} {r : Except Error (Text × Nat)}
    (h : Takes c more r) (hr : r = .ok (t, n)) : n = more.length + 1 := by
  cases h with
  | text t =>
    cases hr
    rfl
  | small _ =>
    obtain ⟨p, -, hp⟩ := Outcome.map_eq_ok_iff.mp hr
    cases hp
    rfl
  | braced _ _ =>
    obtain ⟨p, -, hp⟩ := Outcome.map_eq_ok_iff.mp hr
    cases hp
    rfl

/-- Only a braced escape denotes nothing. -/
theorem Takes.braced_of_error {c : CodePoint} {more : Text} {e : Error}
    {r : Except Error (Text × Nat)} (h : Takes c more r) (hr : r = .error e) :
    ∃ digits, c :: more = bracedText digits ∧ digits.all isHex = true
      ∧ codePoint (number 16 digits) = .error e := by
  cases h with
  | text t => cases hr
  | small hsmall =>
    have hlarge := (codePoint_eq_error_iff.mp (Outcome.map_eq_error_iff.mp hr)).1
    omega
  | @braced digits hdigits hhex => exact ⟨digits, hdigits, hhex, Outcome.map_eq_error_iff.mp hr⟩

/-- A result of an escape before a text, of which it takes a part along without a backslash. -/
def TakesFrom (c : CodePoint) (rest : Text) (r : Except Error (Text × Nat)) : Prop :=
  ∃ more after, rest = more ++ after ∧ .char '\\' ∉ more ∧ Takes c more r

/-- An escape of one letter takes nothing along. -/
theorem takesFrom_alone (c : CodePoint) (rest t : Text) : TakesFrom c rest (.ok (t, 1)) :=
  ⟨[], rest, rfl, nofun, .text t⟩

/-- One to three octal digits. -/
theorem takesFrom_octal {c : CodePoint} (h : isOctal c = true) (rest : Text) :
    TakesFrom c rest (step c rest) := by
  have hdigits : ∀ d ∈ (rest.take 2).takeWhile isOctal, isOctal d = true :=
    fun d hd => List.all_eq_true.mp List.all_takeWhile d hd
  have hsmall : number 8 (c :: (rest.take 2).takeWhile isOctal) < 8 ^ 3 := by
    refine number_lt (by decide) ?_ ?_
    · exact List.forall_mem_cons.mpr ⟨digitValue_lt_of_isOctal h,
        fun d hd => digitValue_lt_of_isOctal (hdigits d hd)⟩
    · have hle := (List.takeWhile_prefix isOctal : _ <+: rest.take 2).length_le
      simp only [List.length_take] at hle
      simp only [List.length_cons]
      omega
  obtain ⟨after, hafter⟩ : (rest.take 2).takeWhile isOctal <+: rest :=
    (List.takeWhile_prefix isOctal).trans (List.take_prefix 2 rest)
  rw [step_of_isOctal h]
  exact ⟨_, after, hafter.symm, backslash_not_mem rfl List.all_takeWhile,
    .small (hsmall.trans (by decide))⟩

/-- As many digits as an escape always has. -/
theorem takesFrom_fixed (c : CodePoint) {k : Nat} {rest digits : Text}
    (h : fixed? k rest = some digits) (hk : k ≤ 4) :
    TakesFrom c rest ((codePoint (number 16 digits)).map fun p => ([p], k + 1)) := by
  obtain ⟨rfl, hhex, after, hafter⟩ := eq_of_fixed? h
  have hsmall : number 16 digits < 16 ^ 4 :=
    number_lt (by decide) (fun c _ => digitValue_lt c) hk
  exact ⟨digits, after, hafter, backslash_not_mem rfl hhex, .small (hsmall.trans (by decide))⟩

/-- Digits between braces. -/
theorem takesFrom_braced {rest digits : Text} (h : braced? rest = some digits) :
    TakesFrom (.char 'u') rest
      ((codePoint (number 16 digits)).map fun p => ([p], digits.length + 3)) := by
  obtain ⟨hhex, after, rfl⟩ := eq_of_braced? h
  have hlength : (CodePoint.char '{' :: (digits ++ [.char '}'])).length + 1
      = digits.length + 3 := by simp
  have hmem := backslash_not_mem rfl hhex
  refine ⟨.char '{' :: (digits ++ [.char '}']), after, by simp, by simpa using hmem, ?_⟩
  rw [← hlength]
  exact .braced rfl hhex

/-- **One escape.** It takes code points along, none of them a backslash. The cases are those of
`step`: octal digits, four or two hex digits, digits between braces, a line end, a letter. -/
theorem takesFrom_step (c : CodePoint) (rest : Text) : TakesFrom c rest (step c rest) := by
  cases hoctal : isOctal c with
  | true => exact takesFrom_octal hoctal rest
  | false =>
    unfold step
    split
    · -- after `u`, with braces or without
      split
      next digits hbraced => exact takesFrom_braced hbraced
      next =>
        split
        next digits hdigits => exact takesFrom_fixed _ hdigits (by decide)
        next => exact takesFrom_alone _ _ _
    · -- after `x`
      split
      next digits hdigits => exact takesFrom_fixed _ hdigits (by decide)
      next => exact takesFrom_alone _ _ _
    · -- a line end
      split
      next after => exact ⟨[.char '\n'], after, rfl, by decide, .text _⟩
      next => exact takesFrom_alone _ _ _
    · rw [if_neg (by rw [hoctal]; exact Bool.false_ne_true)]
      exact takesFrom_alone _ _ _

/-- **An escape that denotes nothing is a braced one.** -/
theorem braced_of_step {c : CodePoint} {rest : Text} {e : Error} (h : step c rest = .error e) :
    ∃ digits, bracedText digits <+: c :: rest ∧ digits.all isHex = true
      ∧ codePoint (number 16 digits) = .error e := by
  obtain ⟨more, after, rfl, -, htakes⟩ := takesFrom_step c rest
  obtain ⟨digits, hdigits, hhex, hcode⟩ := htakes.braced_of_error h
  exact ⟨digits, ⟨after, by rw [← hdigits]; rfl⟩, hhex, hcode⟩

/-- The rest of a text with such an escape. -/
theorem Beyond.cons {body : Text} {e : Error} (h : Beyond body e) (c : CodePoint) :
    Beyond (c :: body) e := by
  obtain ⟨digits, hinfix, hrest⟩ := h
  exact ⟨digits, hinfix.trans (List.suffix_cons c body).isInfix, hrest⟩

/-- What fails to be decoded holds a braced escape beyond the last code point. Induction on the
reading of the body, code point by code point: the failing escape is at the backslash that is read,
or further on. -/
theorem beyond_of_decodeFrom {skip : Nat} {body : Text} {e : Error}
    (h : decodeFrom skip body = .error e) : Beyond body e := by
  fun_induction decodeFrom skip body with
  | case1 => cases h
  | case2 skip c rest ih => exact (ih h).cons c
  | case3 c rest ih =>
    -- the escape denotes nothing, or something after it does not
    rcases Outcome.bind_eq_error_iff.mp h with h | ⟨⟨denoted, taken⟩, -, h⟩
    · obtain ⟨digits, hbraced, hhex, he⟩ := braced_of_step h
      have hstart := (List.prefix_cons_inj (.char '\\')).mpr hbraced
      exact ⟨digits, hstart.isInfix, hhex, (codePoint_eq_error_iff.mp he).1, he⟩
    · rcases Outcome.bind_eq_error_iff.mp h with h | ⟨_, -, h⟩
      · exact (ih taken h).cons _
      · cases h
  | case4 c rest hne ih =>
    rcases Outcome.bind_eq_error_iff.mp h with h | ⟨_, -, h⟩
    · exact (ih h).cons c
    · cases h

/-- **Only a text with a braced escape beyond the last code point is not decoded.** -/
theorem beyond_of_decode {body : Text} {e : Error} (h : decode body = .error e) :
    Beyond body e :=
  beyond_of_decodeFrom (Outcome.map_eq_error_iff.mp h)

end Escape

end OptionTypes
