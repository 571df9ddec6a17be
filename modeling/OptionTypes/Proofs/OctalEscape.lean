import Mathlib.Tactic.Ring
import OptionTypes.Proofs.Escape

/-!
# Escapes of octal digits

An octal escape of a script writes a byte: its first digit takes two more with it if it is at most
three, and one more if it is larger. `Escape.step` takes three digits wherever there are three. The
two readings part at a wide escape, one of three digits of which the first is larger than three, and
nowhere else.

* `boundedStep` reads an escape as a script does, and `decodeBounded` a body.
* `hasWide` finds a wide escape in a body. Every backslash takes the code point after it along, so
  no escape is read in order to find it.
* `compared_readFrom`: what the two readings give, side by side.
* `decode_reads_octals`: they agree exactly on bodies without wide escapes.
-/

namespace OptionTypes

/-- The code point of a number has that number. -/
theorem CodePoint.value_of_ofNat? {n : Nat} {c : CodePoint} (h : ofNat? n = some c) :
    c.value = n := by
  by_cases hvalid : n.isValidChar
  · rw [ofNat?, dif_pos hvalid] at h
    obtain rfl := Option.some.inj h
    rfl
  · rw [ofNat?, dif_neg hvalid] at h
    by_cases hsurrogate : 0xD800 ≤ n ∧ n < 0xE000
    · rw [dif_pos hsurrogate] at h
      obtain rfl := Option.some.inj h
      show 0xD800 + (n - 0xD800) = n
      omega
    · rw [dif_neg hsurrogate] at h
      cases h

namespace Escape

/-! ## Escapes within a byte -/

/-- The digits of an octal escape that begins with a given one. -/
def boundedDigits (c : CodePoint) (rest : Text) : Text :=
  c :: (rest.take (if digitValue c ≤ 3 then 2 else 1)).takeWhile isOctal

/-- The escape whose backslash stands before a non-empty text, an octal one within a byte. -/
def boundedStep (c : CodePoint) (rest : Text) : Except Error (Text × Nat) :=
  if isOctal c then do
    let digits := boundedDigits c rest
    return ([← codePoint (number 8 digits)], digits.length)
  else step c rest

/-- A body with its escapes replaced as `read` reads each of them. `skip` code points still belong
to the escape read last. -/
def readFrom (read : CodePoint → Text → Except Error (Text × Nat)) : Nat → Text → Except Error Text
  | _, [] => .ok []
  | skip + 1, _ :: rest => readFrom read skip rest
  | 0, .char '\\' :: c :: rest => do
    let (denoted, taken) ← read c rest
    return denoted ++ (← readFrom read taken (c :: rest))
  | 0, c :: rest => do return c :: (← readFrom read 0 rest)

/-- The text that a body denotes, octal escapes being within a byte. -/
def decodeBounded (body : Text) : Except Error Text :=
  (readFrom boundedStep 0 body).map pairSurrogates

/-- Whether a text begins with three octal digits of which the first is larger than three. -/
def isWide : Text → Bool
  | a :: b :: c :: _ => isOctal a && isOctal b && isOctal c && decide (3 < digitValue a)
  | _ => false

/-- Whether a backslash that no other takes along stands before such digits. -/
def hasWide : Text → Bool
  | .char '\\' :: c :: rest => isWide (c :: rest) || hasWide rest
  | _ :: rest => hasWide rest
  | [] => false

variable {read : CodePoint → Text → Except Error (Text × Nat)} {c : CodePoint} {rest : Text}

/-! ## One escape -/

/-- Below the surrogates every number denotes a character. -/
theorem exists_codePoint {n : Nat} (h : n < 0xD800) : ∃ p, codePoint n = .ok p ∧ p.value = n := by
  cases hp : CodePoint.ofNat? n with
  | none =>
    have hlarge := CodePoint.ofNat?_eq_none_iff.mp hp
    omega
  | some p => exact ⟨p, by rw [codePoint, hp], CodePoint.value_of_ofNat? hp⟩

/-- An octal escape within a byte, as its digits and how many there are. -/
theorem boundedStep_of_isOctal (h : isOctal c = true) (rest : Text) :
    boundedStep c rest = (codePoint (number 8 (boundedDigits c rest))).map
      fun p => ([p], (boundedDigits c rest).length) := by
  rw [boundedStep, if_pos h]
  exact Outcome.bind_ok _ _

/-- **Where the escape is not wide the readings agree.** An escape that begins with a small digit
has three digits for both, and one that begins with a large digit has no third one. -/
theorem step_eq_boundedStep (h : isWide (c :: rest) = false) :
    step c rest = boundedStep c rest := by
  cases hoctal : isOctal c with
  | false => rw [boundedStep, hoctal]; rfl
  | true =>
    have hdigits : boundedDigits c rest = c :: (rest.take 2).takeWhile isOctal := by
      rw [boundedDigits]
      split
      · rfl
      next hlarge =>
        -- no third digit follows
        match rest, h with
        | [], _ => rfl
        | [d], _ => rfl
        | d :: e :: after, h =>
          have hthree : 3 < digitValue c := Nat.lt_of_not_le hlarge
          cases hd : isOctal d with
          | false => simp [hd]
          | true =>
            have he : isOctal e = false := by simpa [isWide, hoctal, hd, hthree] using h
            simp [hd, he]
    rw [step_of_isOctal hoctal, boundedStep_of_isOctal hoctal, hdigits]
    rfl

/-- A wide escape: as one code point beyond a byte, or as one within it and a digit. The first of
its three digits alone is worth 256 at least. -/
theorem steps_of_isWide (h : isWide (c :: rest) = true) :
    ∃ d e after p q, rest = d :: e :: after ∧ isOctal e = true
      ∧ step c rest = .ok ([p], 3) ∧ 0xFF < p.value ∧ p.value < 0x10000
      ∧ boundedStep c rest = .ok ([q], 2) ∧ q.value ≤ 0xFF := by
  match rest, h with
  | d :: e :: after, h =>
    simp only [isWide, Bool.and_eq_true, decide_eq_true_eq] at h
    obtain ⟨⟨⟨hc, hd⟩, he⟩, hlarge⟩ := h
    have hc' := digitValue_lt_of_isOctal hc
    have hd' := digitValue_lt_of_isOctal hd
    have he' := digitValue_lt_of_isOctal he
    -- three digits with a first one above three exceed a byte, two digits never do
    have hthree : number 8 [c, d, e] = digitValue c * 64 + digitValue d * 8 + digitValue e := by
      simp only [number, Digit.number, List.map_cons, List.map_nil, List.foldl_cons,
        List.foldl_nil]
      omega
    have htwo : number 8 [c, d] = digitValue c * 8 + digitValue d := by
      simp only [number, Digit.number, List.map_cons, List.map_nil, List.foldl_cons,
        List.foldl_nil]
      omega
    obtain ⟨p, hp, hpvalue⟩ := exists_codePoint (n := number 8 [c, d, e]) (by omega)
    obtain ⟨q, hq, hqvalue⟩ := exists_codePoint (n := number 8 [c, d]) (by omega)
    have hdigits : boundedDigits c (d :: e :: after) = [c, d] := by
      simp [boundedDigits, Nat.not_le_of_lt hlarge, hd]
    refine ⟨d, e, after, p, q, rfl, he, ?_, by omega, by omega, ?_, by omega⟩
    · have hrun : ((d :: e :: after).take 2).takeWhile isOctal = [d, e] := by simp [hd, he]
      rw [step_of_isOctal hc, hrun, hp]
      rfl
    · rw [boundedStep_of_isOctal hc, hdigits, hq]
      rfl

/-- The number of octal digits behind a first one. -/
theorem number_cons_lt {ds : Text} (h : ∀ d ∈ ds, isOctal d = true) :
    number 8 (c :: ds) < (digitValue c + 1) * 8 ^ ds.length := by
  have hrest : number 8 ds < 8 ^ ds.length :=
    number_lt (by decide) (fun d hd => digitValue_lt_of_isOctal (h d hd)) le_rfl
  have hsplit : number 8 (c :: ds) = number 8 ds + 8 ^ ds.length * digitValue c := by
    simp only [number, Digit.number_eq, List.map_cons, List.reverse_cons, Nat.ofDigits_append,
      Nat.ofDigits_singleton, List.length_reverse, List.length_map]
  calc number 8 (c :: ds) = number 8 ds + 8 ^ ds.length * digitValue c := hsplit
    _ < 8 ^ ds.length + 8 ^ ds.length * digitValue c := Nat.add_lt_add_right hrest _
    _ = (digitValue c + 1) * 8 ^ ds.length := by ring

/-- **A bounded escape stays within a byte.** -/
theorem exists_boundedStep (h : isOctal c = true) (rest : Text) :
    ∃ p n, boundedStep c rest = .ok ([p], n) ∧ p.value ≤ 0xFF := by
  obtain ⟨most, hmost⟩ : ∃ most, most = if digitValue c ≤ 3 then 2 else 1 := ⟨_, rfl⟩
  have hlt : number 8 (boundedDigits c rest) < 0x100 := by
    rw [boundedDigits, ← hmost]
    have hlength : ((rest.take most).takeWhile isOctal).length ≤ most :=
      (List.takeWhile_prefix isOctal).length_le.trans (List.length_take_le most rest)
    have hpow := Nat.pow_le_pow_right (n := 8) (by decide) hlength
    have hmore : ∀ d ∈ (rest.take most).takeWhile isOctal, isOctal d = true :=
      fun d hd => List.all_eq_true.mp List.all_takeWhile d hd
    -- with a first digit of at most three there may be two more, and otherwise one more
    have hbound := (number_cons_lt hmore).trans_le (Nat.mul_le_mul_left (digitValue c + 1) hpow)
    have hdigit := digitValue_lt_of_isOctal h
    split at hmost
    · subst hmost
      omega
    · subst hmost
      omega
  obtain ⟨p, hp, hvalue⟩ := exists_codePoint (n := number 8 (boundedDigits c rest)) (by omega)
  refine ⟨p, (boundedDigits c rest).length, ?_, by omega⟩
  rw [boundedStep_of_isOctal h, hp]
  rfl

/-- Three digits are read wherever there are three, so an escape leaves the byte when it is wide. -/
theorem exists_step_of_isOctal (h : isOctal c = true) (rest : Text) :
    ∃ p n, step c rest = .ok ([p], n) ∧ (0xFF < p.value ↔ isWide (c :: rest) = true) := by
  cases hwide : isWide (c :: rest) with
  | true =>
    obtain ⟨-, -, -, p, -, -, -, hstep, hlarge, -⟩ := steps_of_isWide hwide
    exact ⟨p, 3, hstep, iff_of_true hlarge rfl⟩
  | false =>
    obtain ⟨p, n, hstep, hsmall⟩ := exists_boundedStep h rest
    rw [← step_eq_boundedStep hwide] at hstep
    exact ⟨p, n, hstep, iff_of_false (Nat.not_lt_of_le hsmall) nofun⟩

/-- The code points that an escape takes along; none of them is a backslash. -/
theorem exists_taken_of_step {denoted : Text} {n : Nat} (h : step c rest = .ok (denoted, n)) :
    ∃ more after, rest = more ++ after ∧ n = more.length + 1 ∧ .char '\\' ∉ more := by
  obtain ⟨more, after, hrest, hmem, htakes⟩ := takesFrom_step c rest
  exact ⟨more, after, hrest, htakes.eq_of_ok h, hmem⟩

/-! ## A body -/

/-- The decoder is the reading that takes escapes by `step`. Induction on the decoder. -/
theorem decodeFrom_eq_readFrom (skip : Nat) (body : Text) :
    decodeFrom skip body = readFrom step skip body := by
  fun_induction decodeFrom skip body with
  | case1 => rfl
  | case2 skip c rest ih => exact ih
  | case3 c rest ih =>
    show _ = step c rest >>= fun x => readFrom step x.2 (c :: rest) >>= fun t => .ok (x.1 ++ t)
    congr 1
    funext x
    show decodeFrom x.2 (c :: rest) >>= (fun t => .ok (x.1 ++ t)) = _
    rw [ih x.2]
  | case4 c rest hne ih =>
    rw [ih, readFrom]
    exact hne

/-- The code points of an escape are passed over. -/
theorem readFrom_append (taken rest : Text) :
    readFrom read taken.length (taken ++ rest) = readFrom read 0 rest := by
  induction taken with
  | nil => rfl
  | cons c taken ih => exact ih

/-- A code point that is no backslash stands for itself. -/
theorem readFrom_raw (h : c ≠ .char '\\') (rest : Text) :
    readFrom read 0 (c :: rest) = (readFrom read 0 rest).map (c :: ·) := by
  rw [readFrom]
  · exact Outcome.bind_ok _ _
  · rintro d after rfl
    exact absurd rfl h

/-- An escape stands for what it denotes, and the code points that it takes along for nothing. -/
theorem readFrom_escape (more : Text) {after denoted : Text}
    (h : read c (more ++ after) = .ok (denoted, more.length + 1)) :
    readFrom read 0 (.char '\\' :: c :: (more ++ after))
      = (readFrom read 0 after).map (denoted ++ ·) := by
  rw [readFrom, h, ← readFrom_append more after]
  exact Outcome.bind_ok _ _

/-- An escape that denotes nothing ends the reading. -/
theorem readFrom_of_error {e : Error} (h : read c rest = .error e) :
    readFrom read 0 (.char '\\' :: c :: rest) = .error e := by
  rw [readFrom, h]
  rfl

/-- A code point that is no backslash begins no escape. -/
theorem hasWide_raw (h : c ≠ .char '\\') (rest : Text) : hasWide (c :: rest) = hasWide rest := by
  rw [hasWide]
  rintro d after rfl
  exact absurd rfl h

/-- Without a backslash there is no escape. Induction on the text. -/
theorem hasWide_append {more : Text} (h : .char '\\' ∉ more) (rest : Text) :
    hasWide (more ++ rest) = hasWide rest := by
  induction more with
  | nil => rfl
  | cons c more ih =>
    obtain ⟨hc, hmore⟩ := List.ne_and_not_mem_of_not_mem_cons h
    rw [List.cons_append, hasWide_raw (Ne.symm hc), ih hmore]

/-! ## Sixteen-bit units -/

/-- The number of units of sixteen bits of a code point. -/
def unitsOf (c : CodePoint) : Nat := if c.value < 0x10000 then 1 else 2

/-- The number of units of sixteen bits of a text. -/
def units (t : Text) : Nat := (t.map unitsOf).sum

/-- The units of a text are those of its first code point and those of the others. -/
@[simp] theorem units_cons (c : CodePoint) (t : Text) : units (c :: t) = unitsOf c + units t := by
  rw [units, List.map_cons, List.sum_cons, units]

/-- The units of two texts, one after the other. -/
@[simp] theorem units_append (t u : Text) : units (t ++ u) = units t + units u := by
  rw [units, List.map_append, List.sum_append, units, units]

/-- A surrogate is one unit. -/
theorem unitsOf_surrogate (n : Fin 2048) : unitsOf (.surrogate n) = 1 := by
  have hlt := n.isLt
  have hvalue : (CodePoint.surrogate n).value < 0x10000 := by
    show 0xD800 + n.val < 0x10000
    omega
  exact if_pos hvalue

/-- The character that two surrogates form has two units. -/
theorem unitsOf_pair {a b : Fin 2048} {c : CodePoint} (h : pairOf? a b = some c) :
    unitsOf c = 2 := by
  unfold pairOf? at h
  split at h
  · have hvalue := CodePoint.value_of_ofNat? h
    exact if_neg (by omega)
  · cases h

/-- Two surrogates have as many units as the character that they form. -/
theorem units_pairSurrogates (t : Text) : units (pairSurrogates t) = units t := by
  fun_induction pairSurrogates t with
  | case1 a b rest c hpair ih =>
    simp only [units_cons, unitsOf_pair hpair, unitsOf_surrogate, ih]
    omega
  | case2 a b rest hpair ih => simp only [units_cons, ih]
  | case3 c rest hne ih => rw [units_cons, ih, units_cons]
  | case4 => rfl

/-! ## The two readings of a body -/

/-- What two readings of a body give: the same, or fewer units by the first of them if there is a
wide escape. -/
inductive Compared : Bool → Except Error Text → Except Error Text → Prop where
  | failed (wide : Bool) (e : Error) : Compared wide (.error e) (.error e)
  | same (t : Text) : Compared false (.ok t) (.ok t)
  | longer {t u : Text} (h : units t < units u) : Compared true (.ok t) (.ok u)

namespace Compared

variable {wide : Bool} {x y : Except Error Text}

/-- What is put before both readings keeps them as they compare. -/
theorem prepend (h : Compared wide x y) (t : Text) :
    Compared wide (x.map (t ++ ·)) (y.map (t ++ ·)) := by
  cases h with
  | failed wide e => exact .failed wide e
  | same u => exact .same (t ++ u)
  | longer h => exact .longer (by simpa using h)

/-- One escape read to fewer units is never made up for: what follows has at most as many units by
the same reading. -/
theorem widen (h : Compared wide x y) {t u : Text} (htu : units t < units u) :
    Compared true (x.map (t ++ ·)) (y.map (u ++ ·)) := by
  cases h with
  | failed wide e => exact .failed true e
  | same v => exact .longer (by simpa using htu)
  | longer h => exact .longer (by simp only [units_append]; omega)

/-- Pairing surrogates keeps the numbers of units, and so keeps the readings as they compare. -/
theorem paired (h : Compared wide x y) :
    Compared wide (x.map pairSurrogates) (y.map pairSurrogates) := by
  cases h with
  | failed wide e => exact .failed wide e
  | same t => exact .same (pairSurrogates t)
  | longer h => exact .longer (by simpa only [units_pairSurrogates] using h)

/-- The readings fail alike. -/
theorem error_iff (h : Compared wide x y) (e : Error) : x = .error e ↔ y = .error e := by
  cases h with
  | failed wide e' => rfl
  | same t => rfl
  | longer h => exact iff_of_false nofun nofun

/-- The readings of a body are the same text exactly when no escape is wide. Fewer units make
another text. -/
theorem ok_iff (h : Compared wide x y) {t : Text} (hx : x = .ok t) :
    y = .ok t ↔ wide = false := by
  cases h with
  | failed wide e => cases hx
  | same u => exact iff_of_true hx rfl
  | longer h =>
    cases hx
    refine iff_of_false (fun hy => ?_) nofun
    rw [Except.ok.inj hy] at h
    exact Nat.lt_irrefl _ h

end Compared

/-- **Reading on after one escape.** A wide one leaves its last digit to the bounded reading, which
so gives two units where the other one gives one. Any other escape is the same for both, and takes
the same code points along. -/
theorem compared_escape (c : CodePoint) (rest : Text)
    (hrest : ∀ after, after <:+ rest →
      Compared (hasWide after) (readFrom step 0 after) (readFrom boundedStep 0 after)) :
    Compared (hasWide (.char '\\' :: c :: rest)) (readFrom step 0 (.char '\\' :: c :: rest))
      (readFrom boundedStep 0 (.char '\\' :: c :: rest)) := by
  rw [hasWide]
  cases hwide : isWide (c :: rest) with
  | true =>
    obtain ⟨d, e, after, p, q, rfl, he, hstep, -, hp, hbounded, hq⟩ := steps_of_isWide hwide
    have hraw : e ≠ .char '\\' := by
      rintro rfl
      cases he
    -- the last digit is ordinary text
    have hthree : readFrom step 0 (.char '\\' :: c :: d :: e :: after)
        = (readFrom step 0 after).map ([p] ++ ·) := readFrom_escape [d, e] hstep
    have htwo : readFrom boundedStep 0 (.char '\\' :: c :: d :: e :: after)
        = (readFrom boundedStep 0 after).map ([q, e] ++ ·) := by
      refine (readFrom_escape [d] hbounded).trans ?_
      rw [readFrom_raw hraw]
      exact Outcome.map_map _ _ _
    have hunits : units [p] < units [q, e] := by
      have hp1 : unitsOf p = 1 := if_pos hp
      have hq1 : unitsOf q = 1 := if_pos (by omega)
      have he1 : 0 < unitsOf e := by
        unfold unitsOf
        split
        · decide
        · decide
      simp only [units_cons, hp1, hq1]
      omega
    rw [hthree, htwo]
    exact (hrest after ⟨[d, e], rfl⟩).widen hunits
  | false =>
    have hsame := step_eq_boundedStep hwide
    cases hstep : step c rest with
    | error e =>
      rw [readFrom_of_error hstep, readFrom_of_error (hsame ▸ hstep)]
      exact .failed _ e
    | ok x =>
      obtain ⟨denoted, n⟩ := x
      obtain ⟨more, after, rfl, rfl, hmem⟩ := exists_taken_of_step hstep
      rw [readFrom_escape more hstep, readFrom_escape more (hsame ▸ hstep), Bool.false_or,
        hasWide_append hmem]
      exact (hrest after ⟨more, rfl⟩).prepend denoted

/-- The two readings of a body, compared. Recursion on the body: a code point, or an escape with
what it takes along. -/
theorem compared_readFrom (body : Text) :
    Compared (hasWide body) (readFrom step 0 body) (readFrom boundedStep 0 body) := by
  match body with
  | [] => exact .same []
  | c :: rest =>
    by_cases hc : c = .char '\\'
    · subst hc
      match rest with
      | [] => exact .same [.char '\\']
      | c :: rest => exact compared_escape c rest fun after hafter => compared_readFrom after
    · rw [readFrom_raw hc, readFrom_raw hc, hasWide_raw hc]
      exact (compared_readFrom rest).prepend [c]
termination_by body.length
decreasing_by
  · have hle := hafter.length_le
    simp only [List.length_cons]
    omega
  · simp only [List.length_cons]
    omega

/-- The two readings of a body, with surrogates paired, compared. -/
theorem compared_decode (body : Text) :
    Compared (hasWide body) (decode body) (decodeBounded body) := by
  rw [decode, decodeFrom_eq_readFrom]
  exact (compared_readFrom body).paired

/-- **Octal escapes are read within a byte except for wide ones.** A body is decoded as a script
reads it exactly if no escape in it is wide, and an octal escape is a code point beyond `U+00FF`
exactly if it is wide.

Both readings go through the body side by side (`compared_decode`). They differ for three digits
that exceed a byte only (`steps_of_isWide`), and then in the code point that these give. -/
theorem decode_reads_octals (body : Text) :
    (∀ e, decode body = .error e ↔ decodeBounded body = .error e)
      ∧ (∀ t, decode body = .ok t → (decodeBounded body = .ok t ↔ hasWide body = false))
      ∧ ∀ c rest, isOctal c = true →
        (∃ p n, step c rest = .ok ([p], n) ∧ (0xFF < p.value ↔ isWide (c :: rest) = true))
          ∧ ∃ p n, boundedStep c rest = .ok ([p], n) ∧ p.value ≤ 0xFF :=
  ⟨(compared_decode body).error_iff, fun _ ht => (compared_decode body).ok_iff ht,
    fun _ rest hc => ⟨exists_step_of_isOctal hc rest, exists_boundedStep hc rest⟩⟩

/-- Three digits, two digits and a letter, two digits and a digit that is not octal. -/
theorem decode_reads_octals_mixture :
    decodeBounded (Text.ofString "\\377\\47z\\478")
        = .ok (.char (Char.ofNat 0xFF) :: Text.ofString "'z'8")
      ∧ ∃ p n, step (.char '4') (Text.ofString "78") = .ok ([p], n)
        ∧ (0xFF < p.value ↔ isWide (Text.ofString "478") = true) :=
  ⟨((decode_reads_octals _).2.1 _ (by decide)).mpr (by decide),
    ((decode_reads_octals (Text.ofString "\\377\\47z\\478")).2.2 (.char '4') _ rfl).1⟩

/-- Three digits of which the first is larger than three: one code point, but a space and a digit
to a script. -/
theorem not_forall_decode_eq_decodeBounded : ¬∀ body, decode body = decodeBounded body := by
  intro h
  have hwide := h (Text.ofString "\\400")
  exact absurd hwide (by decide)

end Escape

end OptionTypes
