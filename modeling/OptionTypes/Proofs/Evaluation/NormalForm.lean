import OptionTypes.Proofs.Evaluation.Closure
import OptionTypes.Syntax.Dialect

/-!
# Numbers in normal form

A script has many ways to write a number: `1`, `1.0`, `0x1`, `2 / 2` and `+true` are the same one. A
`Float` with an integral value would be a second form of an integer, with a text of its own. No
evaluation gives one, at any depth of a value, unless the table of symbols holds one already.

* `Value.Holds`: the numbers that occur in a value.
* `Evaluation.numbers_are_normal`: they are in normal form, so no two of them are the same number.
-/

namespace OptionTypes

/-- Whether a number occurs in a value, at any depth. The keys of objects count if `keys` says
so. -/
inductive Value.Holds (keys : Prop) (n : Number) : Value → Prop where
  | number : Holds keys n (.number n)
  | item {items : List Value} {v : Value} (hv : v ∈ items) (h : Holds keys n v) :
    Holds keys n (.list items)
  | member {ms : Members} {m : Key × Value} (hm : m ∈ ms) (h : Holds keys n m.2) :
    Holds keys n (.object ms)
  | key {ms : Members} {m : Key × Value} (hkeys : keys) (hm : m ∈ ms) (h : m.1 = .number n) :
    Holds keys n (.object ms)

/-- Whether no finite `Float` with an integral value occurs in a value. -/
def Value.IsNormal (keys : Prop) (v : Value) : Prop :=
  ∀ n, v.Holds keys n → n.isIntegralFloat = false

/-- Numbers in normal form that are the same number have the same form. -/
theorem Number.eq_of_normal_eq {m n : Number} (hm : m.isIntegralFloat = false)
    (hn : n.isIntegralFloat = false) (h : m.normal = n.normal) : m = n := by
  rwa [normal_eq_self hm, normal_eq_self hn] at h

namespace Evaluation

open Syntax

variable {s : Scope} {keys : Prop}

/-- A list holds what its items hold, an object what its members hold and maybe its keys. -/
theorem closed_isNormal (hsymbols : ∀ p ∈ s.symbols, p.2.IsNormal keys) :
    Closed s (fun key => keys → ∀ n, key = .number n → n.isIntegralFloat = false)
      (Value.IsNormal keys) where
  null := nofun
  bool _ := nofun
  number h := by
    rintro _ ⟨⟩
    exact h
  text _ := nofun
  function _ := nofun
  -- a list is normal when its items are
  list_iff := by
    intro items
    constructor
    · intro h v hv n hn
      exact h n (.item hv hn)
    · rintro h n (_ | ⟨hv, hn⟩)
      exact h _ hv n hn
  -- an object is normal when its values are, and its keys where these count
  object_iff := by
    intro ms
    constructor
    · intro h m hm
      exact ⟨fun hkeys n hn => h n (.key hkeys hm hn), fun n hn => h n (.member hm hn)⟩
    · rintro h n (_ | _ | ⟨hm, hn⟩ | ⟨hkeys, hm, hn⟩)
      · exact (h _ hm).2 n hn
      · exact (h _ hm).1 hkeys n hn
  key _ := nofun
  symbol := hsymbols

/-- **Numbers are kept in normal form.** If no symbol stands for a value with a `Float` of integral
value in it, no expression does, whether keys count or not; so whatever number occurs in its value
occurs in one form.

That no number is an integral `Float` is kept up by all operations (`closed_isNormal`), and two
numbers of one value that are not are the same. -/
theorem numbers_are_normal {context : Option Tree} {t : Tree} {v : Value}
    (hsymbols : ∀ p ∈ s.symbols, p.2.IsNormal keys) (h : eval s context t = .ok v) :
    v.IsNormal keys
      ∧ ∀ m n, v.Holds keys m → v.Holds keys n → m.normal = n.normal → m = n := by
  have hclosed := closed_isNormal hsymbols
  have hnormal : v.IsNormal keys := hclosed.evals (fun _ _ _ => nofun) context v h
  refine ⟨hnormal, fun m n hm hn hsame => ?_⟩
  exact Number.eq_of_normal_eq (hnormal m hm) (hnormal n hn) hsame

/-- A script with several forms of one and of a half, and a product that is integral. -/
def formsSource : List Char := "[+1.0, ...xs, 0x1n, 2.5 * 2, 1 / 2]".toList

/-- What its list is evaluated with. -/
def formsScope : Scope :=
  ⟨Utf8.encode formsSource, [("xs", .list [.int 1, .number (.float 0.5)])]⟩

/-- What the items of a list count as. -/
def itemNumbers? : Value → Option (List (Option Number))
  | .list items => some (items.map number?)
  | _ => none

/-- Each of the numbers has one form. -/
theorem numbers_are_normal_forms :
    ∃ t v, (Dialect.javascript.parse formsSource).nodes.find? (·.is .array) = some t
      ∧ eval formsScope none t = .ok v
      ∧ itemNumbers? v = some [some (.int 1), some (.int 1), some (.float 0.5), some (.int 1),
        some (.int 5), some (.float 0.5)]
      ∧ (∀ p ∈ formsScope.symbols, p.2.IsNormal True) ∧ v.IsNormal True := by
  have hsymbols : ∀ p ∈ formsScope.symbols, p.2.IsNormal True := by
    have hclosed : Closed ⟨[], []⟩ _ (Value.IsNormal True) := closed_isNormal nofun
    refine List.forall_mem_singleton.mpr (hclosed.list_iff.mpr ?_)
    refine List.forall_mem_cons.mpr ⟨hclosed.number rfl, List.forall_mem_singleton.mpr ?_⟩
    exact hclosed.number (by decide +kernel)
  have hforms : ((Dialect.javascript.parse formsSource).nodes.find? (·.is .array)).bind (fun t =>
      (eval formsScope none t).toOption.bind itemNumbers?)
        = some [some (.int 1), some (.int 1), some (.float 0.5), some (.int 1), some (.int 5),
          some (.float 0.5)] := by decide +kernel
  obtain ⟨t, ht, hlist⟩ := Option.bind_eq_some_iff.mp hforms
  obtain ⟨v, hv, hitems⟩ := Option.bind_eq_some_iff.mp hlist
  have heval : eval formsScope none t = .ok v := Outcome.toOption_eq_some_iff.mp hv
  exact ⟨t, v, ht, heval, hitems, hsymbols, (numbers_are_normal hsymbols heval).1⟩

end Evaluation

end OptionTypes
