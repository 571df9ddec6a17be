import OptionTypes.Number.Arithmetic
import OptionTypes.Proofs.Binary64
import OptionTypes.Proofs.Outcome

/-!
# Powers without a real value

The six operators give an integer or a `Float`, with one exception: a negative number raised to a
power that is no integer has no real value, and the result is complex. Two integers never meet it.
A negative power of an integer is taken on `Float`s, but the exponent is still integral there.

* `Arithmetic.IsUnreal` says when two `Float`s meet the exception.
* `Arithmetic.isUnreal_of_apply` and `Arithmetic.apply_of_isUnreal`: exactly then an operation
  leaves the real numbers.
-/

namespace OptionTypes

namespace Arithmetic

/-- Whether a power has no real value: the base is negative and the exponent no integer. -/
def IsUnreal (x y : Float) : Prop :=
  x < 0 ∧ x.isInf = false ∧ y.isNaN = false ∧ y.isInf = false ∧ Binary64.toInt? y = none

variable {x y re im : Float}

theorem finitePower_ne_complex {negative : Bool} :
    finitePower negative x y ≠ .ok (.complex re im) := by
  unfold finitePower
  split
  · exact nofun
  · extract_lets p
    split
    · exact nofun
    · exact nofun

/-- A power that is no real number has a negative base and an exponent with a fraction. -/
theorem isUnreal_of_floatPower (h : floatPower x y = .ok (.complex re im)) : IsUnreal x y := by
  have hreal : ∀ z : Float, (Except.ok (Result.float z) : Except Error Result)
      ≠ .ok (.complex re im) := by
    intro z
    exact nofun
  unfold floatPower at h
  -- only the last but one case is no real number
  split at h
  · exact absurd h (hreal _)
  split at h
  · exact absurd h (hreal _)
  split at h
  · exact absurd h (hreal _)
  next hyNaN =>
  split at h
  · exact absurd h (hreal _)
  next hyInf =>
  split at h
  · exact absurd h (hreal _)
  next hxInf =>
  split at h
  · split at h
    · cases h
    · exact absurd h (hreal _)
  split at h
  next hneg =>
    split at h
    · exact absurd h finitePower_ne_complex
    next hfraction =>
      rw [Bool.not_eq_true] at hyNaN hyInf hxInf
      exact ⟨hneg, hxInf, hyNaN, hyInf, Option.not_isSome_iff_eq_none.mp hfraction⟩
  next => exact absurd h finitePower_ne_complex

theorem floatRemainder_ne_complex : floatRemainder x y ≠ .ok (.complex re im) := by
  intro h
  unfold floatRemainder at h
  split at h
  · cases h
  · cases h

/-- The `Float` of an integer is integral. -/
theorem isSome_toInt?_of_toFloat {n : Int} (h : toFloat (.int n) = .ok y) :
    (Binary64.toInt? y).isSome = true := by
  unfold toFloat at h
  simp only at h
  split at h
  next x hx =>
    cases h
    exact Binary64.isSome_toInt?_of_ofInt? hx
  next => cases h

/-- Such a power is computed as a complex one. -/
theorem floatPower_of_isUnreal (h : IsUnreal x y) : floatPower x y = complexPower x y := by
  obtain ⟨hneg, hxInf, hyNaN, hyInf, hfraction⟩ := h
  obtain ⟨hxNaN, hxZero⟩ := Binary64.not_isNaN_of_neg hneg
  have hyZero : (y == 0) = false := by
    rw [Bool.eq_false_iff]
    intro hzero
    have hsome := Binary64.isSome_toInt?_of_beq_zero hzero
    rw [hfraction] at hsome
    cases hsome
  unfold floatPower
  simp only [hyZero, hxNaN, hyNaN, hyInf, hxInf, hxZero, hneg, hfraction, Bool.false_eq_true,
    if_false, if_true, Option.isSome_none]

/-- A power of integers is real, also with a negative exponent. -/
theorem integerPower_ne_complex (a b : Int) : integerPower a b ≠ .ok (.complex re im) := by
  intro h
  unfold integerPower at h
  split at h
  · -- the exponent is the `Float` of an integer
    obtain ⟨x, -, h⟩ := Outcome.bind_eq_ok_iff.mp h
    obtain ⟨y, hy, h⟩ := Outcome.bind_eq_ok_iff.mp h
    have hfraction := (isUnreal_of_floatPower h).2.2.2.2
    have hsome := isSome_toInt?_of_toFloat hy
    rw [hfraction] at hsome
    cases hsome
  split at h
  · cases h
  split at h
  · cases h
  · cases h

/-- All operations on integers give real numbers. -/
theorem onInts_ne_complex (op : Operator) (a b : Int) : onInts op a b ≠ .ok (.complex re im) := by
  intro h
  cases op with
  | add => cases h
  | sub => cases h
  | mul => cases h
  | div =>
    simp only [onInts] at h
    unfold integerQuotient at h
    split at h
    · cases h
    split at h
    · cases h
    · cases h
  -- a remainder is taken of two floats, once both are small enough for one
  | rem =>
    obtain ⟨x, -, h⟩ := Outcome.bind_eq_ok_iff.mp h
    obtain ⟨y, -, h⟩ := Outcome.bind_eq_ok_iff.mp h
    exact floatRemainder_ne_complex h
  | pow => exact integerPower_ne_complex a b h

/-- Only a power leaves the real numbers. -/
theorem isUnreal_of_onFloats {op : Operator} (h : onFloats op x y = .ok (.complex re im)) :
    op = .pow ∧ IsUnreal x y := by
  cases op with
  | add => cases h
  | sub => cases h
  | mul => cases h
  | div =>
    simp only [onFloats] at h
    split at h
    · cases h
    · cases h
  | rem => exact absurd h floatRemainder_ne_complex
  | pow => exact ⟨rfl, isUnreal_of_floatPower h⟩

/-- **A result that is complex is a power without a real value.** -/
theorem isUnreal_of_apply {op : Operator} {m n : Number}
    (h : apply op m n = .ok (.complex re im)) :
    op = .pow ∧ ∃ x y, toFloat m = .ok x ∧ toFloat n = .ok y ∧ IsUnreal x y := by
  unfold apply at h
  split at h
  next => exact absurd h (onInts_ne_complex op _ _)
  next =>
    obtain ⟨x, hx, h⟩ := Outcome.bind_eq_ok_iff.mp h
    obtain ⟨y, hy, h⟩ := Outcome.bind_eq_ok_iff.mp h
    obtain ⟨hop, hunreal⟩ := isUnreal_of_onFloats h
    exact ⟨hop, x, y, hx, hy, hunreal⟩

/-- A power without a real value is not one of integers, and it is complex. -/
theorem apply_of_isUnreal {m n : Number} (hx : toFloat m = .ok x) (hy : toFloat n = .ok y)
    (h : IsUnreal x y) : apply .pow m n = complexPower x y := by
  cases n with
  | int k =>
    have hsome := isSome_toInt?_of_toFloat hy
    rw [h.2.2.2.2] at hsome
    cases hsome
  | float z =>
    obtain rfl : z = y := Except.ok.inj hy
    have happly : apply .pow m (.float z) = toFloat m >>= fun x => onFloats .pow x z := by
      cases m with
      | int k => rfl
      | float w => rfl
    rw [happly, hx]
    exact floatPower_of_isUnreal h

/-- Such a power is complex, unless it is too large. -/
theorem complexPower_eq (x y : Float) :
    (∃ re im, complexPower x y = .ok (.complex re im)) ∨ complexPower x y = .error .complexRange := by
  unfold complexPower
  extract_lets length phase re im
  split
  · exact .inr rfl
  · exact .inl ⟨re, im, rfl⟩

end Arithmetic
end OptionTypes
