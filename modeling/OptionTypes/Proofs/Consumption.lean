import OptionTypes.Proofs.Outcome

/-!
# Computations that consume a list

What reads a document goes on in a list: in the characters of a text, or in its tokens. It only ever
goes on, and where it fails the list tells why. A failure is told by the part of the list that is
left; it is then told by the whole list, too.

* `Source`: what a state has left of a list, and which failures a list accounts for.
* `Confined`: the result of a computation that stays in a list.
* `Consuming`: a computation that stays in what is left, whichever state it begins in. The rules for
  the combinators of the monad are instances, so that most computations are consuming because their
  parts are.
-/

namespace OptionTypes.Consumption

/-- What a state has left of a list, and which failures a list accounts for. A longer list accounts
for more. -/
structure Source (σ β ε : Type) where
  left : σ → List β
  Accounts : List β → ε → Prop
  mono : ∀ {l l' e}, l <:+ l' → Accounts l e → Accounts l' e

/-- Whether a computation that ends stays in a list, and one that fails is accounted for by it. -/
structure Confined {σ β ε α : Type} (S : Source σ β ε) (l : List β) (r : Except ε (α × σ)) :
    Prop where
  left : ∀ {x s}, r = .ok (x, s) → S.left s <:+ l
  fault : ∀ {e}, r = .error e → S.Accounts l e

namespace Confined

variable {σ β ε α γ : Type} {S : Source σ β ε} {l l' : List β}

theorem ok {s : σ} (x : α) (h : S.left s <:+ l) : Confined S l (.ok (x, s)) := by
  refine ⟨?_, nofun⟩
  rintro _ _ ⟨rfl⟩
  exact h

theorem error {e : ε} (h : S.Accounts l e) : Confined (α := α) S l (.error e) := by
  refine ⟨nofun, ?_⟩
  rintro _ ⟨rfl⟩
  exact h

theorem mono {r : Except ε (α × σ)} (h : Confined S l r) (hl : l <:+ l') : Confined S l' r :=
  ⟨fun hr => (h.left hr).trans hl, fun hr => S.mono hl (h.fault hr)⟩

/-- A stage and the next one, which may depend on what the first one gives. -/
theorem bind {r : Except ε (α × σ)} {f : α × σ → Except ε (γ × σ)} (h : Confined S l r)
    (hf : ∀ x s, S.left s <:+ l → Confined S l (f (x, s))) : Confined S l (r >>= f) := by
  cases r with
  | error e => exact .error (h.fault rfl)
  | ok xs => exact hf xs.1 xs.2 (h.left rfl)

/-- A stage that looks at the list without consuming any of it. -/
theorem after {r : Except ε γ} {f : γ → Except ε (α × σ)} (hr : ∀ e, r = .error e → S.Accounts l e)
    (hf : ∀ x, Confined S l (f x)) : Confined S l (r >>= f) := by
  cases r with
  | error e => exact .error (hr e rfl)
  | ok x => exact hf x

end Confined

/-- A computation that only goes on in what is left, and fails only where that accounts for it. -/
class Consuming {σ β ε α : Type} (S : Source σ β ε) (a : StateT σ (Except ε) α) : Prop where
  confined : ∀ s, Confined S (S.left s) (a s)

namespace Consuming

variable {σ β ε α γ : Type} {S : Source σ β ε}

/-- A computation that begins further on in a list. -/
theorem within {l : List β} {s : σ} (a : StateT σ (Except ε) α) [Consuming S a]
    (h : S.left s <:+ l) : Confined S l (a s) :=
  (confined s).mono h

instance pure (x : α) : Consuming S (Pure.pure x) := ⟨fun s => .ok x (List.suffix_refl (S.left s))⟩

instance bind (a : StateT σ (Except ε) α) (f : α → StateT σ (Except ε) γ) [Consuming S a]
    [∀ x, Consuming S (f x)] : Consuming S (a >>= f) :=
  ⟨fun s => (confined s).bind fun x _ hs => within (f x) hs⟩

/-- The rule for two stages where what follows is looked at case by case. -/
theorem andThen {a : StateT σ (Except ε) α} {f : α → StateT σ (Except ε) γ} [Consuming S a]
    (hf : ∀ x, Consuming S (f x)) : Consuming S (a >>= f) :=
  bind a f

instance ite (c : Prop) [Decidable c] (a b : StateT σ (Except ε) α) [Consuming S a]
    [Consuming S b] : Consuming S (if c then a else b) := by
  split
  · infer_instance
  · infer_instance

instance get : Consuming S (MonadState.get : StateT σ (Except ε) σ) :=
  ⟨fun s => .ok s (List.suffix_refl (S.left s))⟩

/-- A change of the state that takes nothing back. -/
theorem change {f : σ → σ} (h : ∀ s, S.left (f s) <:+ S.left s) :
    Consuming S (modify f : StateT σ (Except ε) PUnit) :=
  ⟨fun s => .ok () (h s)⟩

/-- A failure that every list accounts for. -/
theorem failing {e : ε} (h : ∀ l, S.Accounts l e) :
    Consuming S (fun _ => .error e : StateT σ (Except ε) α) :=
  ⟨fun s => .error (h (S.left s))⟩

end Consuming

end OptionTypes.Consumption
