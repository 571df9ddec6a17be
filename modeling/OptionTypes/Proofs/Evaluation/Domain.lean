import OptionTypes.Proofs.Arithmetic
import OptionTypes.Proofs.Evaluation.Closure

/-!
# The values that expressions have

Whatever an expression denotes is made of null, Booleans, numbers, texts, lists, objects with text
keys and functions, at every depth, as long as the table of symbols holds no others. One operation
leaves this domain: a power of a negative number is complex unless its exponent is integral.

* `Value.Within` is the domain, with the complex numbers that are admitted in it.
* `Evaluation.IsUnrealPower` is the operation that leaves it.
* `Evaluation.eval_within`: every complex number in a value is that of such a power in the tree.
-/

namespace OptionTypes

/-- Whether a value is one that a script can write, but for admitted complex numbers. -/
inductive Value.Within (admitted : Float → Float → Prop) : Value → Prop where
  | null : Within admitted .null
  | bool (b : Bool) : Within admitted (.bool b)
  | number (n : Number) : Within admitted (.number n)
  | complex {re im : Float} (h : admitted re im) : Within admitted (.complex re im)
  | text (t : Text) : Within admitted (.text t)
  | list {items : List Value} (h : ∀ v ∈ items, Within admitted v) : Within admitted (.list items)
  | object {ms : Members} (hkeys : ∀ m ∈ ms, ∃ t, m.1 = .text t)
      (hvalues : ∀ m ∈ ms, Within admitted m.2) : Within admitted (.object ms)
  | function (source : Text) : Within admitted (.function source)

/-- Whether a script can write a value. -/
abbrev Value.IsRepresentable (v : Value) : Prop := v.Within fun _ _ => False

/-- A value stays within what is admitted if more is. -/
theorem Value.Within.mono {admitted admitted' : Float → Float → Prop}
    (hsub : ∀ re im, admitted re im → admitted' re im) {v : Value} (h : v.Within admitted) :
    v.Within admitted' := by
  induction h with
  | null => exact .null
  | bool b => exact .bool b
  | number n => exact .number n
  | complex h => exact .complex (hsub _ _ h)
  | text t => exact .text t
  | list _ ih => exact .list ih
  | object hkeys _ ih => exact .object hkeys ih
  | function source => exact .function source

namespace Evaluation

open Syntax Outcome

/-- Whether a node raises a negative number to a power that is no integer. -/
def IsUnrealPower (s : Scope) (context : Option Tree) (t : Tree) : Prop :=
  t.is .binaryExpression = true ∧ operator? (symbolOf t.children) = some .pow
    ∧ ∃ a b m n x y, evalPart s context .left t.children = .ok a
      ∧ evalPart s context .right t.children = .ok b ∧ number? a = some m ∧ number? b = some n
      ∧ Arithmetic.toFloat m = .ok x ∧ Arithmetic.toFloat n = .ok y ∧ Arithmetic.IsUnreal x y

variable {s : Scope} {admitted : Float → Float → Prop} {t : Tree} {context : Option Tree}
  {v : Value} {re im : Float}

/-- The domain is closed under all that an evaluation does. -/
theorem closed_within (hsymbols : ∀ p ∈ s.symbols, p.2.Within admitted) :
    Closed s (fun key => ∃ t, key = .text t) (Value.Within admitted) where
  null := .null
  bool := .bool
  number _ := .number _
  text := .text
  function := .function
  list_iff := by
    intro items
    refine ⟨fun h => ?_, .list⟩
    cases h with
    | list h => exact h
  object_iff := by
    intro ms
    refine ⟨fun h m hm => ?_, fun h => ?_⟩
    · cases h with
      | object hkeys hvalues => exact ⟨hkeys m hm, hvalues m hm⟩
    · exact .object (fun m hm => (h m hm).1) fun m hm => (h m hm).2
  key t := ⟨t, rfl⟩
  symbol := hsymbols

/-- The powers without a real value below a node, and their values. -/
def UnrealBelow (s : Scope) (t : Tree) (re im : Float) : Prop :=
  ∃ u ∈ t.nodes, ∃ context, IsUnrealPower s context u
    ∧ eval s context u = .ok (.complex re im)

/-- A calculation whose result is complex is a power without a real value. -/
theorem unrealBelow_of_complexBelow (h : ComplexBelow s t re im) : UnrealBelow s t re im := by
  obtain ⟨u, hu, context, op, m, n, hcalculates, hresult⟩ := h
  refine ⟨u, hu, context, ?_, ?_⟩
  · obtain ⟨hkind, hop, ⟨a, ha, hm⟩, ⟨b, hb, hn⟩⟩ := hcalculates
    obtain ⟨rfl, x, y, hx, hy, hunreal⟩ := Arithmetic.isUnreal_of_apply hresult
    exact ⟨hkind, hop, a, b, m, n, x, y, ha, hb, hm, hn, hx, hy, hunreal⟩
  · rw [hcalculates.eval_eq, hresult]
    rfl

/-- **The complex numbers in a value** are those of powers in the tree. -/
theorem eval_within (hsymbols : ∀ p ∈ s.symbols, p.2.IsRepresentable)
    (h : eval s context t = .ok v) : v.Within (UnrealBelow s t) := by
  have hclosed : Closed s (fun key => ∃ t, key = .text t) (Value.Within (UnrealBelow s t)) :=
    closed_within fun p hp => (hsymbols p hp).mono fun _ _ hfalse => hfalse.elim
  exact hclosed.evals (fun re im hbelow => .complex (unrealBelow_of_complexBelow hbelow)) context v h

/-- No complex number is below a node without such powers. -/
theorem not_unrealBelow (h : ∀ u ∈ t.nodes, ∀ context, ¬IsUnrealPower s context u) (re im : Float) :
    ¬UnrealBelow s t re im := by
  rintro ⟨u, hu, context, hunreal, -⟩
  exact h u hu context hunreal

/-- A power without a real value is complex, or refused because it is too large. -/
theorem eval_of_isUnrealPower (h : IsUnrealPower s context t) :
    (∃ re im, eval s context t = .ok (.complex re im))
      ∨ eval s context t = refuse (.arithmetic .complexRange (t.text s.source)) := by
  obtain ⟨hkind, hop, a, b, m, n, x, y, ha, hb, hm, hn, hx, hy, hunreal⟩ := h
  have hcalculates : Calculates s context t .pow m n := ⟨hkind, hop, ⟨a, ha, hm⟩, ⟨b, hb, hn⟩⟩
  rw [hcalculates.eval_eq, Arithmetic.apply_of_isUnreal hx hy hunreal]
  rcases Arithmetic.complexPower_eq x y with ⟨re, im, hpower⟩ | hrange
  · rw [hpower]
    exact .inl ⟨re, im, rfl⟩
  · rw [hrange]
    exact .inr rfl

/-- **The values that expressions have.** If all symbols stand for values that a script can write,
so does every expression without a power that has no real value. In general the only other values,
at any depth, are the complex numbers that such powers of the tree have; and such a power has no
other value.

That a value is within those of scripts and of powers below is kept up by every form of an
expression (`eval_within`). The only operation that leaves the values of scripts is a power with a
negative base and a fraction in its exponent (`isUnreal_of_onFloats`). -/
theorem values_of_expressions (hsymbols : ∀ p ∈ s.symbols, p.2.IsRepresentable) (t : Tree)
    (context : Option Tree) :
    (∀ v, eval s context t = .ok v → (∀ u ∈ t.nodes, ∀ context, ¬IsUnrealPower s context u) →
        v.IsRepresentable)
      ∧ (∀ v, eval s context t = .ok v → v.Within (UnrealBelow s t))
      ∧ (IsUnrealPower s context t → (∃ re im, eval s context t = .ok (.complex re im))
        ∨ eval s context t = refuse (.arithmetic .complexRange (t.text s.source))) := by
  refine ⟨?_, ?_, eval_of_isUnrealPower⟩
  · intro v hv hreal
    exact (eval_within hsymbols hv).mono (not_unrealBelow hreal)
  · intro v hv
    exact eval_within hsymbols hv

/-- A script that takes the square root of a negative number. -/
def rootSource : List Char := "(-8) ** 0.5".toList

/-- Its power. -/
def root : Tree :=
  .ofKind .binaryExpression 0 11
    [.node (.kind .parenthesizedExpression) (some .left) 0 4 false
      [.ofToken "(" 0 1,
        .ofKind .unaryExpression 1 3
          [.node (.token "-") (some .operator) 1 2 false [],
            .node (.kind .number) (some .argument) 2 3 false []],
        .ofToken ")" 3 4],
      .node (.token "**") (some .operator) 5 7 false [],
      .node (.kind .number) (some .right) 8 11 false []]

/-- The root of a negative number is such a power. -/
theorem isUnrealPower_root : IsUnrealPower ⟨Utf8.encode rootSource, []⟩ none root := by
  have hleft : (evalPart ⟨Utf8.encode rootSource, []⟩ none .left root.children).toOption.bind number?
      = some (.int (-8)) := by decide +kernel
  have hright :
      (evalPart ⟨Utf8.encode rootSource, []⟩ none .right root.children).toOption.bind number?
        = some (.float 0.5) := by decide +kernel
  obtain ⟨a, ha, hm⟩ := Option.bind_eq_some_iff.mp hleft
  obtain ⟨b, hb, hn⟩ := Option.bind_eq_some_iff.mp hright
  refine ⟨rfl, rfl, a, b, .int (-8), .float 0.5, -8, 0.5, toOption_eq_some_iff.mp ha,
    toOption_eq_some_iff.mp hb, hm, hn, rfl, rfl, ?_⟩
  unfold Arithmetic.IsUnreal
  decide +kernel

/-- The power has no real value: it is complex, or refused because it is too large. -/
theorem values_of_expressions_root :
    ((Dialect.javascript.parse rootSource).nodes.find? (·.is .binaryExpression)).map
        (·.nodes.map fun t => (t.label, t.field, t.start, t.stop, t.children.length))
      = some (root.nodes.map fun t => (t.label, t.field, t.start, t.stop, t.children.length))
      ∧ IsUnrealPower ⟨Utf8.encode rootSource, []⟩ none root
      ∧ ((∃ re im, eval ⟨Utf8.encode rootSource, []⟩ none root = .ok (.complex re im))
        ∨ eval ⟨Utf8.encode rootSource, []⟩ none root
          = refuse (.arithmetic .complexRange (root.text (Utf8.encode rootSource)))) := by
  refine ⟨by decide +kernel, isUnrealPower_root, ?_⟩
  exact (values_of_expressions (s := ⟨Utf8.encode rootSource, []⟩) nofun root none).2.2
    isUnrealPower_root

end Evaluation

end OptionTypes
