import OptionTypes.Check
import OptionTypes.Proofs.Outcome

/-!
# Checks that succeed

A check of several parts succeeds exactly when the check of each part does. Most checks change
nothing: they accept a value exactly when it is what their result is written as.

* `Check.both_eq_ok_iff`, `Check.andAlso_eq_ok_iff`: parts that are checked together.
* `Check.Reads`: a check that undoes a way of writing. It passes from items to lists and from values
  to objects.
* `Check.truth_eq_ok_iff`, `Check.le_of_integerFrom`, `Check.pos_of_positive`: checks that change
  what they accept.
-/

namespace OptionTypes.Check

variable {α β γ : Type}

/-! ## Parts -/

/-- To note the place of an issue does not touch what is accepted. -/
theorem within_eq_ok_iff {step : Step} {c : Checked α} {x : α} :
    within step c = .ok x ↔ c = .ok x :=
  Outcome.mapError_eq_ok_iff

/-- Two checks succeed together when each of them does. -/
theorem both_eq_ok_iff {a : Checked α} {b : Checked β} {p : α × β} :
    both a b = .ok p ↔ a = .ok p.1 ∧ b = .ok p.2 := by
  cases a with
  | error es => cases b <;> simp [both]
  | ok a => cases b <;> simp [both, Prod.ext_iff]

/-- Two checks whose results are put together. -/
theorem andAlso_eq_ok_iff {f : α → β → γ} {a : Checked α} {b : Checked β} {z : γ} :
    andAlso f a b = .ok z ↔ ∃ x y, a = .ok x ∧ b = .ok y ∧ f x y = z := by
  rw [andAlso, Outcome.map_eq_ok_iff]
  constructor
  · rintro ⟨⟨x, y⟩, h, rfl⟩
    obtain ⟨ha, hb⟩ := both_eq_ok_iff.mp h
    exact ⟨x, y, ha, hb, rfl⟩
  · rintro ⟨x, y, ha, hb, rfl⟩
    exact ⟨(x, y), both_eq_ok_iff.mpr ⟨ha, hb⟩, rfl⟩

/-! ## Checks that change nothing -/

/-- Whether a check accepts a value exactly when its result is written that way. -/
def Reads (check : Value → Checked α) (write : α → Value) : Prop :=
  ∀ v x, check v = .ok x ↔ v = write x

variable {check : Value → Checked α} {write : α → Value}

/-- What was written is accepted, with the result that it was written from. -/
theorem Reads.check_write (h : Reads check write) (x : α) : check (write x) = .ok x :=
  (h _ x).mpr rfl

/-- Such a way of writing keeps different results apart. -/
theorem Reads.injective (h : Reads check write) : Function.Injective write := by
  intro x y hxy
  have hx := h.check_write x
  rw [hxy, h.check_write] at hx
  exact (Except.ok.inj hx).symm

/-- The check that accepts everything. -/
theorem reads_value : Reads (fun v => (.ok v : Checked Value)) fun v => v := by
  intro v x
  exact Except.ok.injEq v x ▸ Iff.rfl

/-- The check of a text. -/
theorem reads_text : Reads text .text := by
  intro v x
  cases v <;> simp [text, reject]

/-- The check of a list. -/
theorem reads_list : Reads list .list := by
  intro v x
  cases v <;> simp [list, reject]

/-- What may be missing is written as null. -/
def orNull (write : α → Value) : Option α → Value
  | none => .null
  | some x => write x

/-- A check that also takes null for nothing. The values that it is for are not null. -/
theorem Reads.orNull (h : Reads check write) (hwrite : ∀ x, write x ≠ .null)
    {check' : Value → Checked (Option α)} (hnull : check' .null = .ok none)
    (hrest : ∀ v, v ≠ .null → check' v = (check v).map some) :
    Reads check' (Check.orNull write) := by
  intro v x
  -- `null` is told from what `write` writes, so it is read before the check is asked
  by_cases hv : v = .null
  · subst hv
    rw [hnull]
    cases x with
    | none => exact ⟨fun _ => rfl, fun _ => rfl⟩
    | some x => exact ⟨nofun, fun heq => absurd heq.symm (hwrite x)⟩
  · rw [hrest v hv, Outcome.map_eq_ok_iff]
    cases x with
    | none => exact ⟨fun ⟨_, _, heq⟩ => (nomatch heq), fun heq => absurd heq hv⟩
    | some x =>
      constructor
      · rintro ⟨y, hy, heq⟩
        obtain rfl := Option.some.inj heq
        exact (h v y).mp hy
      · intro heq
        exact ⟨x, (h v x).mpr heq, rfl⟩

/-- The check of a text that may be missing. -/
theorem reads_text? : Reads text? (Check.orNull .text) := by
  refine reads_text.orNull (fun _ => Value.noConfusion) rfl fun v hv => ?_
  cases v with
  | null => exact absurd rfl hv
  | _ => rfl

/-- Items are accepted when each of them is, whatever index the first one has. Induction on the
items; the index is in the place of an issue only. -/
theorem Reads.itemsFrom (h : Reads check write) {vs : List Value} {xs : List α} (n : Nat) :
    itemsFrom check n vs = .ok xs ↔ vs = xs.map write := by
  induction vs generalizing n xs with
  | nil => cases xs <;> simp [Check.itemsFrom]
  | cons v vs ih =>
    rw [Check.itemsFrom, andAlso_eq_ok_iff]
    constructor
    · rintro ⟨x, rest, hx, hrest, rfl⟩
      rw [within_eq_ok_iff, h] at hx
      rw [List.map_cons, hx, (ih (n + 1)).mp hrest]
    · intro heq
      cases xs with
      | nil => cases heq
      | cons x rest =>
        obtain ⟨hx, hrest⟩ := List.cons.inj heq
        exact ⟨x, rest, within_eq_ok_iff.mpr ((h v x).mpr hx), (ih (n + 1)).mpr hrest, rfl⟩

/-- A list of texts as a value. -/
def textsValue (ts : List Text) : Value := .list (ts.map .text)

/-- The check of a list of texts. -/
theorem reads_texts : Reads texts textsValue := by
  intro v ts
  rw [texts, Outcome.bind_eq_ok_iff]
  constructor
  · rintro ⟨vs, hvs, hts⟩
    rw [(reads_list v vs).mp hvs, (reads_text.itemsFrom 0).mp hts]
    rfl
  · rintro rfl
    exact ⟨ts.map .text, rfl, (reads_text.itemsFrom 0).mpr rfl⟩

/-- Members with text keys, the values written in some way. -/
def membersOf (write : α → Value) (xs : List (Text × α)) : Members :=
  xs.map fun (k, x) => (.text k, write x)

/-- Members keep results apart as their values do. -/
theorem membersOf_injective (h : Function.Injective write) :
    Function.Injective (membersOf write) := by
  refine List.map_injective_iff.mpr ?_
  rintro ⟨k, x⟩ ⟨k', x'⟩ heq
  obtain ⟨hkey, hvalue⟩ := Prod.mk.inj heq
  rw [Key.text.inj hkey, h hvalue]

/-- Members are accepted when their keys are texts and each value is accepted. Induction on the
members. -/
theorem Reads.members (h : Reads check write) {ms : Members} {xs : List (Text × α)} :
    members check ms = .ok xs ↔ ms = membersOf write xs := by
  induction ms generalizing xs with
  | nil => cases xs <;> simp [Check.members, membersOf]
  | cons m ms ih =>
    obtain ⟨k, v⟩ := m
    cases k with
    | text t =>
      show andAlso List.cons (within _ (both (.ok t) (check v))) (Check.members check ms) = _ ↔ _
      rw [andAlso_eq_ok_iff]
      constructor
      · rintro ⟨⟨s, x⟩, rest, hfirst, hrest, rfl⟩
        obtain ⟨hname, hx⟩ := both_eq_ok_iff.mp (within_eq_ok_iff.mp hfirst)
        rw [Except.ok.inj hname, (h v x).mp hx, ih.mp hrest]
        rfl
      · intro heq
        cases xs with
        | nil => cases heq
        | cons first rest =>
          obtain ⟨s, x⟩ := first
          obtain ⟨hfirst, hrest⟩ := List.cons.inj heq
          obtain ⟨hname, hx⟩ := Prod.mk.inj hfirst
          refine ⟨(s, x), rest, within_eq_ok_iff.mpr ?_, ih.mpr hrest, rfl⟩
          exact both_eq_ok_iff.mpr ⟨congrArg Except.ok (Key.text.inj hname), (h v x).mpr hx⟩
    | _ =>
      -- another key is refused, and no member is written with one
      show andAlso List.cons (within _ (both (within _ (reject _)) (check v))) _ = _ ↔ _
      rw [andAlso_eq_ok_iff]
      constructor
      · rintro ⟨⟨s, x⟩, rest, hfirst, -⟩
        have hname := (both_eq_ok_iff.mp (within_eq_ok_iff.mp hfirst)).1
        cases hname
      · intro heq
        cases xs with
        | nil => cases heq
        | cons first rest => cases (Prod.mk.inj (List.cons.inj heq).1).1

/-- A check of values becomes one of objects with such values. -/
theorem Reads.object (h : Reads check write) :
    Reads (object check) fun xs => .object (membersOf write xs) := by
  intro v xs
  cases v with
  | object ms =>
    rw [Check.object, h.members]
    exact ⟨congrArg Value.object, Value.object.inj⟩
  | _ => exact ⟨nofun, nofun⟩

/-! ## Checks that change what they accept -/

/-- A truth value, or a number that is zero or one in its normal form. -/
inductive IsTruth : Value → Bool → Prop
  | bool (b : Bool) : IsTruth (.bool b) b
  | number {n : Number} {b : Bool} (h : n.normal = .int (if b then 1 else 0)) :
    IsTruth (.number n) b

/-- A number reads as a truth value when its normal form is zero or one. A float with the value of
an integer has that integer as its normal form. -/
theorem word?_eq_some_iff {n : Number} {b : Bool} :
    word? n = some (if b then 1 else 0) ↔ n.normal = .int (if b then 1 else 0) := by
  unfold word?
  cases hn : n.normal with
  | float x => simp
  | int m =>
    have hword : isWord (if b then 1 else 0) = true := by
      cases b with
      | false => decide
      | true => decide
    simp only [Number.int.injEq]
    constructor
    · intro h
      split at h
      · exact Option.some.inj h
      · cases h
    · rintro rfl
      rw [if_pos hword]

/-- What the check of a truth value accepts. It changes a number, so it is not one of those
above. -/
theorem truth_eq_ok_iff {v : Value} {b : Bool} : truth v = .ok b ↔ IsTruth v b := by
  constructor
  · intro h
    cases v with
    | bool c =>
      obtain rfl := Except.ok.inj h
      exact .bool c
    -- a number counts if it is one or zero, however it is held
    | number n =>
      simp only [truth] at h
      split at h
      next hword =>
        obtain rfl := Except.ok.inj h
        exact .number (word?_eq_some_iff.mp hword)
      next hword =>
        obtain rfl := Except.ok.inj h
        exact .number (word?_eq_some_iff.mp hword)
      next => cases h
      next => cases h
    | _ => cases h
  · rintro (_ | hn)
    · rfl
    · have hword := word?_eq_some_iff.mpr hn
      cases b with
      | false => simp [truth, hword]
      | true => simp [truth, hword]

/-- An integer that is accepted is not below the bound. -/
theorem le_of_integerFrom {low n : Nat} {v : Value} (h : integerFrom low v = .ok n) : low ≤ n := by
  obtain ⟨m, -, h⟩ := Outcome.bind_eq_ok_iff.mp h
  split at h
  next => cases h
  next hlow =>
    cases h
    omega

/-- An integer that is not below the bound is accepted as it is. -/
theorem integerFrom_int {low n : Nat} (h : low ≤ n) : integerFrom low (.int n) = .ok n := by
  have hlow : ¬(n : Int) < low := by omega
  show (if (n : Int) < low then reject .atLeast else .ok (n : Int).toNat) = _
  rw [if_neg hlow, Int.toNat_natCast]

/-- A number that is accepted is above zero. -/
theorem pos_of_positive {v : Value} {x : Float} (h : positive v = .ok x) : 0 < x := by
  obtain ⟨y, -, h⟩ := Outcome.bind_eq_ok_iff.mp h
  split at h
  next hpos =>
    cases h
    exact hpos
  next => cases h

/-- A float above zero is accepted as it is. -/
theorem positive_float {x : Float} (h : 0 < x) : positive (.number (.float x)) = .ok x := by
  show (if 0 < x then .ok x else reject .above) = _
  rw [if_pos h]

end OptionTypes.Check
