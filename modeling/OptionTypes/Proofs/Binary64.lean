import Mathlib.Algebra.Ring.Nat
import OptionTypes.Value.Conversion

/-!
# Floats and the integers they denote

The parts of a finite `Float` are read off its bits, and so is what comparisons go by. Both readings
agree on what zero is, so a number counts as true or not whether it is held as an integer or as a
`Float`.

* `Binary64.unpack_of_parts?`: what comparisons see of a finite `Float`.
* `Binary64.isSome_toInt?_of_ofInt?`: the `Float` nearest to an integer is integral, since rounding
  to 53 bits leaves an integer.
* `Value.numberTruth_of_normal`: the truth of an integral number.
-/

namespace OptionTypes

namespace Binary64

open Float.Model Float.Model.UnpackedFloat

/-- The bits of a `Float`. -/
def bitsOf (x : Float) : BitVec Format.binary64.numBits := x.toModel.toBits.toBitVec

/-- The exponent of a bit pattern, as a number. -/
theorem unpackExponent_toNat (b : BitVec Format.binary64.numBits) :
    (unpackExponent b).toNat = b.toNat / 2 ^ 52 % 2 ^ 11 := by
  simp [unpackExponent, Nat.shiftRight_eq_div_pow]

/-- The mantissa of a bit pattern, as a number. -/
theorem unpackMantissa_toNat (b : BitVec Format.binary64.numBits) :
    (unpackMantissa b).toNat = b.toNat % 2 ^ 52 := by
  simp [unpackMantissa]

theorem toNat_unpackExponent (x : Float) :
    (unpackExponent (bitsOf x)).toNat = x.toBits.toNat / Nat.pow 2 52 % Nat.pow 2 11 :=
  unpackExponent_toNat (bitsOf x)

theorem toNat_unpackMantissa (x : Float) :
    (unpackMantissa (bitsOf x)).toNat = x.toBits.toNat % Nat.pow 2 52 :=
  unpackMantissa_toNat (bitsOf x)

/-- The two ways to take a number apart agree: on its bits as they are read here, and on the model
that the operations of `Float` are defined by. A number is zero where its mantissa is. -/
theorem unpack_of_parts? {x : Float} {p : Parts} (h : parts? x = some p) :
    (p.mantissa = 0 ∧ ∃ s, x.toModel.unpack = .zero s)
      ∨ (p.mantissa ≠ 0 ∧ ∃ s m e hm, x.toModel.unpack = .finite s m e hm) := by
  -- the cases of the exponent: below normal numbers, among them, and beyond
  have hunpack : x.toModel.unpack
      = if unpackExponent (bitsOf x) = (-1#_) then _
        else if unpackExponent (bitsOf x) = (0#_) then
          if _ : unpackMantissa (bitsOf x) = (0#_) then _ else _
        else _ := rfl
  have hinfinite : unpackExponent (bitsOf x) = (-1#_)
      ↔ (unpackExponent (bitsOf x)).toNat = 2047 := BitVec.toNat_inj.symm
  have hsmall : unpackExponent (bitsOf x) = (0#_) ↔ (unpackExponent (bitsOf x)).toNat = 0 :=
    BitVec.toNat_inj.symm
  have hzero : unpackMantissa (bitsOf x) = (0#_) ↔ (unpackMantissa (bitsOf x)).toNat = 0 :=
    BitVec.toNat_inj.symm
  simp only [parts?, ← toNat_unpackExponent, ← toNat_unpackMantissa] at h
  rw [hunpack]
  split at h
  next => cases h
  next hfinite =>
    rw [if_neg ((not_congr hinfinite).mpr hfinite)]
    split at h
    next hexponent =>
      -- with the least exponent the mantissa is all there is, and may be zero
      obtain rfl := Option.some.inj h
      rw [if_pos (hsmall.mpr hexponent)]
      by_cases hm : (unpackMantissa (bitsOf x)).toNat = 0
      · rw [dif_pos (hzero.mpr hm)]
        exact .inl ⟨hm, _, rfl⟩
      · rw [dif_neg ((not_congr hzero).mpr hm)]
        exact .inr ⟨hm, _, _, _, Nat.pos_of_ne_zero hm, rfl⟩
    next hexponent =>
      -- any other exponent puts a bit in front of it
      obtain rfl := Option.some.inj h
      have hpos : 0 < (1#1 ++ unpackMantissa (bitsOf x)).toNat := by
        rw [BitVec.toNat_append]
        exact Nat.lt_of_lt_of_le (by decide : 0 < 1 <<< 52) Nat.left_le_or
      rw [if_neg ((not_congr hsmall).mpr hexponent)]
      exact .inr ⟨by simp, _, _, _, hpos, rfl⟩

/-- An integral value is zero exactly when its mantissa is. -/
theorem exists_of_toInt? {x : Float} {n : Int} (h : toInt? x = some n) :
    ∃ p, parts? x = some p ∧ (n = 0 ↔ p.mantissa = 0) := by
  obtain ⟨p, hp, h⟩ := Option.bind_eq_some_iff.mp h
  refine ⟨p, hp, ?_⟩
  -- neither the sign nor the power of two is zero, so the mantissa alone decides
  have hsign : (if p.negative then -1 else 1 : Int) ≠ 0 := by
    split
    · decide
    · decide
  have hpow : ∀ e, Nat.pow 2 e ≠ 0 := fun e => Nat.ne_of_gt (Nat.two_pow_pos e)
  simp only at h
  split at h
  next =>
    obtain rfl := Option.some.inj h
    rw [Int.mul_eq_zero, or_iff_right hsign, Int.natCast_eq_zero, Nat.mul_eq_zero,
      or_iff_left (hpow _)]
  next =>
    split at h
    next hmod =>
      obtain rfl := Option.some.inj h
      rw [Int.mul_eq_zero, or_iff_right hsign, Int.natCast_eq_zero]
      constructor
      · intro hdiv
        rw [← Nat.div_add_mod p.mantissa (Nat.pow 2 (-p.exponent).toNat), hdiv, hmod, Nat.mul_zero]
      · intro hzero
        rw [hzero, Nat.zero_div]
    next => cases h

/-- An integral value compares with zero as its integer does. -/
theorem isNaN_and_beq_of_toInt? {x : Float} {n : Int} (h : toInt? x = some n) :
    x.isNaN = false ∧ (x == 0) = (n == 0) := by
  obtain ⟨p, hp, hzero⟩ := exists_of_toInt? h
  have hnan : x.isNaN = x.toModel.unpack.isNaN := rfl
  have hbeq : (x == 0) = (x.toModel.unpack.compare (.zero .positive) == some .eq) := rfl
  rw [hnan, hbeq]
  rcases unpack_of_parts? hp with ⟨hm, s, hs⟩ | ⟨hm, s, m, e, hpos, hs⟩
  · rw [hs, hzero.mpr hm]
    exact ⟨rfl, rfl⟩
  · have hn : (n == 0) = false := beq_eq_false_iff_ne.mpr fun hn => hm (hzero.mp hn)
    rw [hs, hn]
    cases s with
    | positive => exact ⟨rfl, rfl⟩
    | negative => exact ⟨rfl, rfl⟩

/-! ## Zero and negative numbers -/

/-- What has no mantissa is infinite or no number. -/
theorem unpack_of_parts?_eq_none {x : Float} (h : parts? x = none) :
    x.toModel.unpack = .notANumber ∨ ∃ s, x.toModel.unpack = .infinity s := by
  have hunpack : x.toModel.unpack
      = if unpackExponent (bitsOf x) = (-1#_) then
          if unpackMantissa (bitsOf x) = (0#_) then .infinity _ else .notANumber
        else _ := rfl
  -- all bits of the exponent are set, as a number and as bits
  have hinfinite : unpackExponent (bitsOf x) = (-1#_)
      ↔ (unpackExponent (bitsOf x)).toNat = 2047 := BitVec.toNat_inj.symm
  simp only [parts?, ← toNat_unpackExponent, ← toNat_unpackMantissa] at h
  rw [hunpack]
  split at h
  next hbiased =>
    rw [if_pos (hinfinite.mpr hbiased)]
    split
    · exact .inr ⟨_, rfl⟩
    · exact .inl rfl
  next =>
    split at h
    · cases h
    · cases h

/-- Whatever compares as zero is integral. -/
theorem isSome_toInt?_of_beq_zero {x : Float} (h : (x == 0) = true) :
    (toInt? x).isSome = true := by
  have hcompare : (x.toModel.unpack.compare (.zero .positive) == some .eq) = true := h
  cases hp : parts? x with
  | none =>
    rcases unpack_of_parts?_eq_none hp with hnan | ⟨s, hinf⟩
    · rw [hnan] at hcompare
      cases hcompare
    · rw [hinf] at hcompare
      cases s <;> cases hcompare
  | some p =>
    have hzero : p.mantissa = 0 := by
      rcases unpack_of_parts? hp with ⟨hm, -⟩ | ⟨-, s, m, e, hpos, hs⟩
      · exact hm
      · rw [hs] at hcompare
        cases s <;> cases hcompare
    simp only [toInt?, hp, hzero, Option.bind_eq_bind, Option.bind_some, Nat.zero_mod, if_true]
    split <;> rfl

/-- A negative number is a number, and not zero. -/
theorem not_isNaN_of_neg {x : Float} (h : x < 0) : x.isNaN = false ∧ (x == 0) = false := by
  have hless : x.toModel.unpack.compare (.zero .positive) = some .lt := by
    have hmodel : decide (x.toModel < (0 : Float).toModel) = true := h
    exact eq_of_beq (of_decide_eq_true hmodel)
  have hnan : x.isNaN = x.toModel.unpack.isNaN := rfl
  have hbeq : (x == 0) = (x.toModel.unpack.compare (.zero .positive) == some .eq) := rfl
  rw [hnan, hbeq, hless]
  refine ⟨?_, rfl⟩
  cases hx : x.toModel.unpack with
  | notANumber =>
    rw [hx] at hless
    cases hless
  | infinity s => rfl
  | zero s => rfl
  | finite s m e hm => rfl

/-! ## Bit patterns of normal numbers -/

/-- A normal number is packed with its own exponent. -/
theorem pack_unpack (b : BitVec Format.binary64.numBits)
    (hlow : (unpackExponent b).toNat ≠ 0) (hhigh : (unpackExponent b).toNat ≠ 2047) :
    UnpackedFloat.pack Format.binary64 (UnpackedFloat.unpack Format.binary64 b)
      = packComponents Format.binary64 (.ofBitVec (unpackSign b)) (unpackExponent b)
        (BitVec.ofNat 52 (2 ^ 52 + (unpackMantissa b).toNat)) := by
  have hmantissa : (unpackMantissa b).toNat < 2 ^ 52 := (unpackMantissa b).isLt
  have hexponent : (unpackExponent b).toNat < 2 ^ 11 := (unpackExponent b).isLt
  have hinfinite : ¬unpackExponent b = (-1#_) := fun h => hhigh (congrArg BitVec.toNat h)
  have hzero : ¬unpackExponent b = (0#_) := fun h => hlow (congrArg BitVec.toNat h)
  have happend : (1#1 ++ unpackMantissa b).toNat = 2 ^ 52 + (unpackMantissa b).toNat := by
    show ((1#1 : BitVec 1) ++ (unpackMantissa b : BitVec 52)).toNat = _
    rw [BitVec.toNat_append, ← Nat.shiftLeft_add_eq_or_of_lt hmantissa]
    rfl
  have hlog : (2 ^ 52 + (unpackMantissa b).toNat).log2 = 52 := by
    rw [Nat.log2_eq_iff (by omega)]
    omega
  -- unpacking takes off the bias that packing puts on again
  have hnumbers : ((unpackExponent b).toNat
      - ((1023 : Nat) + (52 : Nat) : Int) + (1023 : Nat) + (52 : Nat)).toNat
      = (unpackExponent b).toNat := by
    omega
  have hbiased : ((unpackExponent b).toNat
      - (Format.binary64.exponentBias + Format.binary64.mantissaBitsWithoutImplicit : Int)
      + Format.binary64.exponentBias + Format.binary64.mantissaBitsWithoutImplicit).toNat
      = (unpackExponent b).toNat := hnumbers
  have hsame : BitVec.ofNat 11 (unpackExponent b).toNat = unpackExponent b :=
    BitVec.eq_of_toNat_eq (Nat.mod_eq_of_lt hexponent)
  unfold UnpackedFloat.unpack
  rw [if_neg hinfinite, if_neg hzero]
  unfold UnpackedFloat.pack
  simp only [happend, hlog]
  rw [hbiased, if_neg, if_pos]
  · rw [hsame]
  · rfl
  · show ¬2 ^ 11 ≤ _
    omega

/-- Packing a normal number that was unpacked keeps its fields. -/
theorem fields_pack_unpack (b : BitVec Format.binary64.numBits)
    (hlow : (unpackExponent b).toNat ≠ 0) (hhigh : (unpackExponent b).toNat ≠ 2047) :
    unpackExponent (UnpackedFloat.pack Format.binary64 (UnpackedFloat.unpack Format.binary64 b))
        = unpackExponent b
      ∧ unpackMantissa (UnpackedFloat.pack Format.binary64 (UnpackedFloat.unpack Format.binary64 b))
        = unpackMantissa b := by
  have hmantissa : (unpackMantissa b).toNat < 2 ^ 52 := (unpackMantissa b).isLt
  rw [pack_unpack b hlow hhigh, unpackExponent_packComponents, unpackMantissa_packComponents]
  refine ⟨rfl, BitVec.eq_of_toNat_eq ?_⟩
  show (2 ^ 52 + (unpackMantissa b).toNat) % 2 ^ 52 = _
  omega

/-- A magnitude with a sign is a word of 64 bits, the sign above all others. -/
theorem exists_word_ofMagnitude (negative : Bool) {bits : Nat} (h : bits < infinityBits) :
    ∃ w : Nat, w < 2 ^ 64 ∧ ofMagnitude negative bits = Float.ofBits w.toUInt64
      ∧ w % 2 ^ 63 = bits := by
  have hinfinity : infinityBits = 2047 * 2 ^ 52 := rfl
  refine ⟨if negative then Nat.pow 2 63 + bits else bits, ?_, ?_, ?_⟩
  · split
    · show 2 ^ 63 + bits < 2 ^ 64
      omega
    · omega
  · rw [ofMagnitude, Nat.min_eq_left (Nat.le_of_lt h)]
  · split
    · show (2 ^ 63 + bits) % 2 ^ 63 = bits
      omega
    · omega

/-- The pattern of a normal number is taken apart into its mantissa, with the leading bit that is
not written, and its exponent. -/
theorem parts?_ofMagnitude (negative : Bool) {bits : Nat} (hlow : 2 ^ 52 ≤ bits)
    (hhigh : bits < infinityBits) :
    ∃ p, parts? (ofMagnitude negative bits) = some p ∧ p.mantissa = 2 ^ 52 + bits % 2 ^ 52
      ∧ p.exponent = (bits / 2 ^ 52 : Nat) - (1075 : Int) := by
  have hinfinity : infinityBits = 2047 * 2 ^ 52 := rfl
  obtain ⟨w, hw, hx, hbits⟩ := exists_word_ofMagnitude negative hhigh
  have hword : (w.toUInt64.toBitVec : BitVec Format.binary64.numBits).toNat = w := by
    show w % 2 ^ 64 = w
    omega
  -- the fields of the word, before it is unpacked and packed again
  have hexponent : (@unpackExponent Format.binary64 w.toUInt64.toBitVec).toNat
      = bits / 2 ^ 52 := by
    rw [unpackExponent_toNat, hword]
    omega
  have hmantissa : (@unpackMantissa Format.binary64 w.toUInt64.toBitVec).toNat
      = bits % 2 ^ 52 := by
    rw [unpackMantissa_toNat, hword]
    omega
  -- neither exponent is that of a number below the normal ones or of an infinite one
  obtain ⟨hsame, hsame'⟩ := fields_pack_unpack w.toUInt64.toBitVec
    (by rw [hexponent]; omega) (by rw [hexponent]; omega)
  have hE := congrArg BitVec.toNat hsame
  have hM := congrArg BitVec.toNat hsame'
  rw [hexponent] at hE
  rw [hmantissa] at hM
  rw [hx]
  have hbiased : (Float.ofBits w.toUInt64).toBits.toNat / Nat.pow 2 52 % Nat.pow 2 11
      = bits / 2 ^ 52 := (toNat_unpackExponent _).symm.trans hE
  have hfraction : (Float.ofBits w.toUInt64).toBits.toNat % Nat.pow 2 52 = bits % 2 ^ 52 :=
    (toNat_unpackMantissa _).symm.trans hM
  simp only [parts?, hbiased, hfraction]
  rw [if_neg (by omega), if_neg (by omega)]
  exact ⟨_, rfl, rfl, rfl⟩

/-! ## Integers as `Float`s -/

/-- For an integer the exponent is that of its highest bit. -/
theorem exponentOf_one {n : Nat} (hn : n ≠ 0) : exponentOf n 1 = n.log2 := by
  have hle : 2 ^ n.log2 ≤ n := Nat.log2_self_le hn
  have hpow : Nat.pow 2 n.log2 = 2 ^ n.log2 := rfl
  -- the highest bit of the number is where the search for the exponent begins, and it fits at once
  have hscale : ¬(scale n 1 (-(n.log2 : Int))).1 < (scale n 1 (-(n.log2 : Int))).2 := by
    unfold scale
    split
    next h =>
      have hzero : n.log2 = 0 := by omega
      rw [hzero]
      show ¬n * 1 < 1
      omega
    next =>
      rw [Int.neg_neg, Int.toNat_natCast, hpow]
      omega
  have hone : ((n.log2 : Int) - (Nat.log2 1 : Nat)) = n.log2 := by
    have : Nat.log2 1 = 0 := by decide
    omega
  unfold exponentOf
  simp only [hone]
  exact if_neg hscale

/-- A quotient is rounded up or down, so it does not fall below its integral part. -/
theorem div_le_roundDiv (a b : Nat) : a / b ≤ roundDiv a b := by
  unfold roundDiv
  extract_lets q r
  split
  · omega
  split
  · omega
  · omega

theorem roundDiv_one (a : Nat) : roundDiv a 1 = a := by
  unfold roundDiv
  rw [Nat.mod_one, Nat.div_one]
  rfl

/-- A number is integral if it has no bits behind the point. -/
theorem isSome_toInt?_of_exponent {x : Float} {p : Parts} (hp : parts? x = some p)
    (h : 0 ≤ p.exponent ∨ p.mantissa % 2 ^ (-p.exponent).toNat = 0) : (toInt? x).isSome = true := by
  unfold toInt?
  rw [hp]
  simp only [Option.bind_eq_bind, Option.bind_some]
  split
  · rfl
  next hneg =>
    rw [if_pos (show p.mantissa % Nat.pow 2 _ = 0 from h.resolve_left hneg)]
    rfl

/-- The pattern of an integer: below 53 bits all of it is kept. -/
theorem magnitudeOfRatio_one {n : Nat} (hn : n ≠ 0) : magnitudeOfRatio n 1
    = if 1023 < n.log2 then infinityBits
      else (n.log2 + 1022) * 2 ^ 52
        + if n.log2 ≤ 52 then n * 2 ^ (52 - n.log2) else roundDiv n (2 ^ (n.log2 - 52)) := by
  -- the lower bound on exponents is that of the numbers below the normal ones, far below any
  -- integer
  have hmax : max ((n.log2 : Int) - 52) (-1074) = n.log2 - 52 := by omega
  unfold magnitudeOfRatio
  rw [if_neg hn, exponentOf_one hn, hmax]
  extract_lets unit
  split
  next h => rw [if_pos (by omega)]
  next h =>
    rw [if_neg (by omega)]
    have hunit : (unit + 1074).toNat = n.log2 + 1022 := by omega
    -- up to 53 bits are shifted up, and from longer numbers the bits beyond are rounded off
    have hscaled : roundDiv (scale n 1 (-unit)).1 (scale n 1 (-unit)).2
        = if n.log2 ≤ 52 then n * 2 ^ (52 - n.log2) else roundDiv n (2 ^ (n.log2 - 52)) := by
      unfold scale
      split
      next hsmall =>
        have hshift : (-unit).toNat = 52 - n.log2 := by omega
        rw [if_pos (by omega), hshift]
        exact roundDiv_one _
      next hlarge =>
        have hshift : (- -unit).toNat = n.log2 - 52 := by omega
        rw [if_neg (by omega), hshift, Nat.one_mul]
        rfl
    rw [hunit]
    exact congrArg ((n.log2 + 1022) * Nat.pow 2 52 + ·) hscaled

/-- An integer of at most 53 bits is held with all of them, shifted up by as many as are free. -/
theorem isSome_toInt?_of_short {n top bits : Nat} (hle : 2 ^ top ≤ n) (hlt : n < 2 ^ (top + 1))
    (htop : top ≤ 52) (hbits : bits = (top + 1022) * 2 ^ 52 + n * 2 ^ (52 - top))
    (hfinite : bits < infinityBits) (negative : Bool) :
    (toInt? (ofMagnitude negative bits)).isSome = true := by
  have hlow : 2 ^ 52 ≤ n * 2 ^ (52 - top) := by
    calc 2 ^ 52 = 2 ^ top * 2 ^ (52 - top) := by rw [← Nat.pow_add]; congr 1; omega
      _ ≤ n * 2 ^ (52 - top) := Nat.mul_le_mul_right _ hle
  have hhigh : n * 2 ^ (52 - top) < 2 ^ 53 := by
    calc n * 2 ^ (52 - top) < 2 ^ (top + 1) * 2 ^ (52 - top) :=
          Nat.mul_lt_mul_of_pos_right hlt (Nat.two_pow_pos _)
      _ = 2 ^ 53 := by rw [← Nat.pow_add]; congr 1; omega
  obtain ⟨p, hp, hmantissa, hexponent⟩ :=
    parts?_ofMagnitude negative (show 2 ^ 52 ≤ bits by omega) hfinite
  refine isSome_toInt?_of_exponent hp (.inr ?_)
  have hm : p.mantissa = n * 2 ^ (52 - top) := by omega
  have he : (-p.exponent).toNat = 52 - top := by omega
  rw [hm, he, Nat.mul_mod_left]

/-- A longer one is rounded to a multiple of a power of two. -/
theorem isSome_toInt?_of_long {n top bits : Nat} (hle : 2 ^ top ≤ n) (htop : 52 < top)
    (hbits : bits = (top + 1022) * 2 ^ 52 + roundDiv n (2 ^ (top - 52)))
    (hfinite : bits < infinityBits) (negative : Bool) :
    (toInt? (ofMagnitude negative bits)).isSome = true := by
  have hquotient : 2 ^ 52 ≤ n / 2 ^ (top - 52) := by
    rw [Nat.le_div_iff_mul_le (Nat.two_pow_pos _), ← Nat.pow_add]
    rwa [show 52 + (top - 52) = top by omega]
  have hround := div_le_roundDiv n (2 ^ (top - 52))
  obtain ⟨p, hp, -, hexponent⟩ :=
    parts?_ofMagnitude negative (show 2 ^ 52 ≤ bits by omega) hfinite
  exact isSome_toInt?_of_exponent hp (.inl (by omega))

/-- An integer that has a `Float` has an integral one. -/
theorem isSome_toInt?_of_ofInt? {n : Int} {x : Float} (h : ofInt? n = some x) :
    (toInt? x).isSome = true := by
  unfold ofInt? at h
  extract_lets bits at h
  split at h
  next hfinite =>
    cases h
    by_cases hn : n.natAbs = 0
    · obtain rfl : n = 0 := by omega
      decide +kernel
    have hle : 2 ^ n.natAbs.log2 ≤ n.natAbs := Nat.log2_self_le hn
    have hlt : n.natAbs < 2 ^ (n.natAbs.log2 + 1) := Nat.lt_log2_self
    have hbits : bits = _ := magnitudeOfRatio_one hn
    generalize n.natAbs.log2 = top at hle hlt hbits
    split at hbits
    · omega
    split at hbits
    -- up to 53 bits the float holds the integer itself, beyond them a multiple of a power of two
    next hshort => exact isSome_toInt?_of_short hle hlt hshort hbits hfinite _
    next hlong => exact isSome_toInt?_of_long hle (Nat.lt_of_not_le hlong) hbits hfinite _
  next => cases h

end Binary64

namespace Value

/-- An integral number is true unless it is zero, however it is held. -/
theorem numberTruth_of_normal {n : Number} {m : Int} (h : n.normal = .int m) :
    numberTruth n = (m != 0) := by
  cases n with
  | int k =>
    obtain rfl := Number.int.inj h
    rfl
  | float x =>
    cases hx : Binary64.toInt? x with
    | none => simp [Number.normal, hx] at h
    | some k =>
      simp only [Number.normal, hx, Number.int.injEq] at h
      subst h
      obtain ⟨hnan, hzero⟩ := Binary64.isNaN_and_beq_of_toInt? hx
      show (!x.isNaN && !(x == 0)) = !(k == 0)
      rw [hnan, hzero]
      rfl

end Value

end OptionTypes
