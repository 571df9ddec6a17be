import Mathlib.Data.List.Dedup
import Mathlib.Data.List.Perm.Subperm
import Mathlib.Logic.Function.Iterate
import OptionTypes.Proofs.Evaluation.Failure

/-!
# Larger tables of symbols

A schema may refer to names that the table of symbols does not know. Its evaluation then names the
first one, the name is added, and the evaluation is tried again. That this ends rests on what more
symbols can change: values steer which parts of an expression are looked at, yet an evaluation that
has succeeded never looked at a name that was unknown.

* `Grown`: what more symbols may do to a result. Either nothing, or the result was an unknown name
  that is known now. One step of an evaluation keeps this (`Grown.bind`), hence a whole one does
  (`grown_eval`).
* `amend` adds the name that an evaluation asks for, with a value of any choice.
* `evaluate_grows_and_is_amended`: values stay, an unknown name is one of the tree, and the rounds
  of adding names are at most as many as the tree has names.
-/

namespace OptionTypes.Evaluation

open Syntax Outcome

/-- A table of symbols. -/
abbrev Table := List (Text × Value)

namespace Table

/-- The value of a name. -/
def value? (S : Table) (name : Text) : Option Value :=
  (S.find? fun (k, _) => k = name).map Prod.snd

/-- A table has a value for a name. -/
def Knows (S : Table) (name : Text) : Prop := (S.value? name).isSome = true

/-- A table knows at least what another one does, with the same values. -/
def Extends (S S' : Table) : Prop := ∀ name v, S.value? name = some v → S'.value? name = some v

/-- A table with one more name at its end. -/
def add (S : Table) (name : Text) (v : Value) : Table := S ++ [(name, v)]

/-- A table with one more name keeps all values: the name is added at the end, where it does not
hide another one. -/
theorem extends_add (S : Table) (name : Text) (v : Value) : S.Extends (S.add name v) := by
  intro other w h
  obtain ⟨entry, hentry, rfl⟩ := Option.map_eq_some_iff.mp h
  rw [add, value?, List.find?_append, hentry, Option.some_or, Option.map_some]

/-- A table knows a name that was added to it, with the added value or the one from before. -/
theorem knows_add (S : Table) (name : Text) (v : Value) : (S.add name v).Knows name := by
  cases hknown : S.value? name with
  | some w =>
    rw [Knows, extends_add S name v name w hknown]
    rfl
  | none =>
    have hlack : (S.find? fun (k, _) => k = name) = none := Option.map_eq_none_iff.mp hknown
    rw [Knows, add, value?, List.find?_append, hlack]
    simp

end Table

variable {source : Bytes} {S S' : Table} {α β : Type}

/-! ## One step -/

/-- What more symbols may do to a result: nothing, unless it was a name that is known now. -/
def Grown (S' : Table) (x y : Result α) : Prop :=
  y = x ∨ ∃ name context, x = refuse (.unresolved name context) ∧ S'.Knows name

/-- More symbols have done nothing. -/
theorem Grown.refl (x : Result α) : Grown S' x x := .inl rfl

/-- The second of two stages starts from what the first one gives, which more symbols do not
change; if the first one stops at an unknown name, so does the whole. -/
theorem Grown.bind {x y : Result α} {f g : α → Result β} (h : Grown S' x y)
    (hf : ∀ a, Grown S' (f a) (g a)) : Grown S' (x >>= f) (y >>= g) := by
  rcases h with rfl | ⟨name, context, rfl, hknown⟩
  · cases y with
    | error e => exact .refl _
    | ok a => exact hf a
  · exact .inr ⟨name, context, rfl, hknown⟩

/-- A lookup is the one thing that more symbols can change: a name that was known keeps its value,
and one that was not may have one now. -/
theorem grown_lookup (h : S.Extends S') (context : Option Tree) (t : Tree) :
    Grown S' (lookup ⟨source, S⟩ context t) (lookup ⟨source, S'⟩ context t) := by
  have hscope : ∀ T : Table, Scope.find? ⟨source, T⟩ = T.value? := fun _ => rfl
  simp only [lookup, hscope]
  cases hfound : S.value? (t.text source) with
  | some v =>
    rw [h _ v hfound]
    exact .refl _
  | none =>
    cases hfound' : S'.value? (t.text source) with
    | none => exact .refl _
    | some v =>
      refine .inr ⟨t.text source, _, rfl, ?_⟩
      rw [Table.Knows, hfound']
      rfl

/-! ## A whole evaluation -/

mutual

/-- **More symbols change an evaluation only where a name was unknown.** Induction on the tree,
mutual with all that goes through siblings. In each case the parts are taken one after the other
(`Grown.bind`); what is done with a value does not depend on symbols, and which part comes next
depends on values alone. -/
theorem grown_eval (h : S.Extends S') :
    ∀ (context : Option Tree) (t : Tree),
      Grown S' (eval ⟨source, S⟩ context t) (eval ⟨source, S'⟩ context t)
  | context, .node label field start stop missing children => by
    rw [eval.eq_def, eval.eq_def]
    simp only
    split
    · exact (grown_evalMembers h [] children).bind fun _ => .refl _
    · exact (grown_evalItems h context children).bind fun _ => .refl _
    · exact .refl _
    · exact (grown_evalParts h context (stop - 1) (start + 1) children).bind fun _ => .refl _
    · exact .refl _
    · exact .refl _
    · exact .refl _
    · exact .refl _
    · exact .refl _
    · split
      · exact .refl _
      · exact grown_lookup h context _
    · exact grown_evalFirst h context children
    · split
      · exact .refl _
      · exact (grown_evalPart h context .argument children).bind fun _ => .refl _
    · -- the left side is the same, so the same side is chosen
      split
      · refine (grown_evalPart h context .left children).bind fun left => ?_
        split
        · exact .refl _
        · exact grown_evalPart h context .right children
      · split
        · exact .refl _
        · refine (grown_evalPart h context .left children).bind fun left => ?_
          exact (grown_evalPart h context .right children).bind fun right => .refl _
    · exact .refl _
    · exact .refl _
    · exact .refl _
    · exact .refl _

/-- The sibling that plays a part. -/
theorem grown_evalPart (h : S.Extends S') :
    ∀ (context : Option Tree) (part : Field) (ts : List Tree),
      Grown S' (evalPart ⟨source, S⟩ context part ts)
        (evalPart ⟨source, S'⟩ context part ts)
  | context, part, [] => .refl _
  | context, part, t :: ts => by
    rw [evalPart, evalPart]
    split
    · exact grown_eval h context t
    · exact grown_evalPart h context part ts

/-- The first operand among siblings. -/
theorem grown_evalFirst (h : S.Extends S') :
    ∀ (context : Option Tree) (ts : List Tree),
      Grown S' (evalFirst ⟨source, S⟩ context ts) (evalFirst ⟨source, S'⟩ context ts)
  | context, [] => .refl _
  | context, t :: ts => by
    rw [evalFirst, evalFirst]
    split
    · exact grown_eval h context t
    · exact grown_evalFirst h context ts

/-- The sibling that is the key. -/
theorem grown_evalKey (h : S.Extends S') :
    ∀ (context : Option Tree) (part : Field) (ts : List Tree),
      Grown S' (evalKey ⟨source, S⟩ context part ts)
        (evalKey ⟨source, S'⟩ context part ts)
  | context, part, [] => .refl _
  | context, part, t :: ts => by
    rw [evalKey, evalKey]
    split
    · exact grown_evalKeyOf h context t
    · exact grown_evalKey h context part ts

/-- A key: only a computed one depends on symbols at all. -/
theorem grown_evalKeyOf (h : S.Extends S') :
    ∀ (context : Option Tree) (t : Tree),
      Grown S' (evalKeyOf ⟨source, S⟩ context t) (evalKeyOf ⟨source, S'⟩ context t)
  | context, .node label field start stop missing children => by
    rw [evalKeyOf.eq_def, evalKeyOf.eq_def]
    simp only
    split
    · exact .refl _
    · exact .refl _
    · exact (grown_evalFirst h context children).bind fun _ => .refl _
    · exact .refl _

/-- The members of an object, each written into those before it. -/
theorem grown_evalMembers (h : S.Extends S') :
    ∀ (before : Members) (ts : List Tree),
      Grown S' (evalMembers ⟨source, S⟩ before ts) (evalMembers ⟨source, S'⟩ before ts)
  | before, [] => .refl _
  | before, t :: ts => by
    rw [evalMembers, evalMembers]
    split
    · exact (grown_evalMember h before t).bind fun ms => grown_evalMembers h ms ts
    · exact grown_evalMembers h before ts

/-- One member of an object, by its kind. -/
theorem grown_evalMember (h : S.Extends S') :
    ∀ (before : Members) (t : Tree),
      Grown S' (evalMember ⟨source, S⟩ before t) (evalMember ⟨source, S'⟩ before t)
  | before, .node label field start stop missing children => by
    rw [evalMember.eq_def, evalMember.eq_def]
    simp only
    split
    · refine (grown_evalKey h _ .key children).bind fun key => ?_
      exact (grown_evalPart h _ .value children).bind fun _ => .refl _
    · exact (grown_lookup h none _).bind fun _ => .refl _
    · exact (grown_evalFirst h none children).bind fun _ => .refl _
    · exact (grown_evalKey h none .name children).bind fun _ => .refl _
    · exact .refl _

/-- The items of a list. -/
theorem grown_evalItems (h : S.Extends S') :
    ∀ (context : Option Tree) (ts : List Tree),
      Grown S' (evalItems ⟨source, S⟩ context ts) (evalItems ⟨source, S'⟩ context ts)
  | context, [] => .refl _
  | context, t :: ts => by
    rw [evalItems, evalItems]
    split
    · refine (grown_evalInside h context t).bind fun v => ?_
      refine (Grown.refl (spreadItems ⟨source, S⟩ t v)).bind fun first => ?_
      exact (grown_evalItems h context ts).bind fun _ => .refl _
    · split
      · refine (grown_eval h context t).bind fun first => ?_
        exact (grown_evalItems h context ts).bind fun _ => .refl _
      · exact grown_evalItems h context ts

/-- The pieces and substitutions of a template. -/
theorem grown_evalParts (h : S.Extends S') :
    ∀ (context : Option Tree) (stop start : Nat) (ts : List Tree),
      Grown S' (evalParts ⟨source, S⟩ context stop start ts)
        (evalParts ⟨source, S'⟩ context stop start ts)
  | context, stop, start, [] => .refl _
  | context, stop, start, t :: ts => by
    rw [evalParts, evalParts]
    split
    · refine (Grown.refl (chunk source start t.start)).bind fun piece => ?_
      refine (grown_evalInside h context t).bind fun value => ?_
      refine (Grown.refl (textOf value)).bind fun text => ?_
      exact (grown_evalParts h context stop t.stop ts).bind fun _ => .refl _
    · exact grown_evalParts h context stop start ts

/-- The operand that a node stands for. -/
theorem grown_evalInside (h : S.Extends S') :
    ∀ (context : Option Tree) (t : Tree),
      Grown S' (evalInside ⟨source, S⟩ context t) (evalInside ⟨source, S'⟩ context t)
  | context, .node label field start stop missing children => by
    rw [evalInside, evalInside]
    exact grown_evalFirst h context children

end

/-! ## Unknown names -/

/-- The names that a tree refers to, as often as it does. -/
def names (source : Bytes) (t : Tree) : List Text := (t.nodes.filter isName).map (·.text source)

/-- The unknown name that an evaluation stops at, if it stops at one. -/
def missing? (source : Bytes) (S : Table) (t : Tree) : Option Text :=
  match evaluate source S t with
  | .error (.gap g) => g.name?
  | _ => none

/-- An evaluation has come to a value, or to a failure that no name explains. -/
def Settled (source : Bytes) (S : Table) (t : Tree) : Prop :=
  (∃ v, evaluate source S t = .ok v)
    ∨ ∃ f, evaluate source S t = .error f ∧ ∀ g, f = .gap g → g.name? = none

/-- A name is missing when the evaluation stops at it. -/
theorem missing?_eq_some_iff {t : Tree} {name : Text} :
    missing? source S t = some name
      ↔ ∃ g, evaluate source S t = .error (.gap g) ∧ g.name? = some name := by
  unfold missing?
  split
  next g hg =>
    rw [hg]
    constructor
    · intro h
      exact ⟨g, rfl, h⟩
    · rintro ⟨g', h, hname⟩
      cases h
      exact hname
  next hother =>
    constructor
    · intro h
      cases h
    · rintro ⟨g, h, -⟩
      exact absurd h (hother g)

/-- No name is missing when the evaluation is settled. -/
theorem missing?_eq_none_iff {t : Tree} : missing? source S t = none ↔ Settled source S t := by
  cases hresult : evaluate source S t with
  | ok v => simp [missing?, Settled, hresult]
  | error f =>
    cases f with
    | gap g => simp [missing?, Settled, hresult]
    | escape e => simp [missing?, Settled, hresult]
    | number e => simp [missing?, Settled, hresult]
    | incomplete => simp [missing?, Settled, hresult]

/-- A name that an evaluation stops at is one of the tree and not one of the table. -/
theorem unknown_of_missing? {t : Tree} {name : Text} (h : missing? source S t = some name) :
    ¬S.Knows name ∧ name ∈ names source t := by
  obtain ⟨g, hg, hname⟩ := missing?_eq_some_iff.mp h
  cases origin_of_eval ⟨source, S⟩ t hg with
  | refused _ hnone =>
    rw [hnone] at hname
    cases hname
  | unknown u context hu hisName hlack =>
    cases hname
    refine ⟨?_, List.mem_map_of_mem (List.mem_filter.mpr ⟨hu, hisName⟩)⟩
    have hlack : S.value? (u.text source) = none := hlack
    rw [Table.Knows, hlack]
    exact Bool.false_ne_true

/-! ## Rounds -/

/-- The table after a round: an unknown name is added with a value of any choice. -/
def amend (source : Bytes) (t : Tree) (answer : Table → Text → Value) (S : Table) : Table :=
  match missing? source S t with
  | some name => S.add name (answer S name)
  | none => S

/-- The different names of a tree that a table lacks. -/
def lacking (source : Bytes) (t : Tree) (S : Table) : List Text :=
  (names source t).dedup.filter fun name => (S.value? name).isNone

/-- A round that adds a name leaves fewer that are lacking: the name was one of them, and nothing
that was known is forgotten. -/
theorem length_lacking_amend_lt {t : Tree} {answer : Table → Text → Value} {name : Text}
    (h : missing? source S t = some name) :
    (lacking source t (amend source t answer S)).length < (lacking source t S).length := by
  obtain ⟨hunknown, hmem⟩ := unknown_of_missing? h
  have hamend : amend source t answer S = S.add name (answer S name) := by
    rw [amend, h]
  -- what is lacking afterwards was lacking before
  have hsub : lacking source t (amend source t answer S)
      = (lacking source t S).filter fun n =>
          ((amend source t answer S).value? n).isNone := by
    rw [lacking, lacking, List.filter_filter]
    refine List.filter_congr fun n _ => ?_
    cases hn : S.value? n with
    | none => simp
    | some v => simp [hamend, Table.extends_add S name (answer S name) n v hn]
  have hbefore : name ∈ lacking source t S := by
    refine List.mem_filter.mpr ⟨List.mem_dedup.mpr hmem, ?_⟩
    simpa [Table.Knows] using hunknown
  have hafter : ¬((amend source t answer S).value? name).isNone = true := by
    have hknown := Table.knows_add S name (answer S name)
    rw [Table.Knows, ← hamend, Option.isSome_iff_ne_none] at hknown
    simpa using hknown
  rw [hsub, List.length_filter_lt_length_iff_exists]
  exact ⟨name, hbefore, hafter⟩

/-- The rounds end. Induction on the number of names that are lacking, which every round that adds
one makes smaller (`length_lacking_amend_lt`). -/
theorem exists_rounds (t : Tree) (answer : Table → Text → Value) (S : Table) :
    ∃ rounds ≤ (lacking source t S).length,
      (∀ k < rounds, (missing? source ((amend source t answer)^[k] S) t).isSome = true)
        ∧ Settled source ((amend source t answer)^[rounds] S) t := by
  -- the names that are lacking get fewer with each round, by the one that was answered for
  induction hsize : (lacking source t S).length using Nat.strongRecOn generalizing S with
  | ind size ih =>
    subst hsize
    cases hmissing : missing? source S t with
    | none =>
      refine ⟨0, Nat.zero_le _, ?_, missing?_eq_none_iff.mp hmissing⟩
      intro k hk
      exact absurd hk (Nat.not_lt_zero k)
    | some name =>
      have hless : (lacking source t (amend source t answer S)).length
          < (lacking source t S).length := length_lacking_amend_lt hmissing
      obtain ⟨rounds, hrounds, hbefore, hsettled⟩ := ih _ hless _ rfl
      refine ⟨rounds + 1, by omega, ?_, hsettled⟩
      intro k hk
      cases k with
      | zero =>
        rw [Function.iterate_zero_apply, hmissing]
        rfl
      | succ k => exact hbefore k (by omega)

/-- **More symbols keep a value, and adding the names that are asked for ends.** A value stays under
every table that knows more. A name that an evaluation stops at is one of the tree and not of the
table, and no table that knows it makes the evaluation stop at it again. So, whatever values the
names are given round by round, after at most as many rounds as the tree has different names the
evaluation comes to a value or to a failure that no name explains.

The first part is `grown_eval`: a value is no unknown name. The second is `origin_of_eval`, by which
an unknown name is that of a node. The third counts the names that are lacking (`exists_rounds`). -/
theorem evaluate_grows_and_is_amended (source : Bytes) (t : Tree) (S : Table) :
    (∀ v S', evaluate source S t = .ok v → S.Extends S' → evaluate source S' t = .ok v)
      ∧ (∀ g name, evaluate source S t = .error (.gap g) → g.name? = some name →
          ¬S.Knows name ∧ name ∈ names source t
            ∧ ∀ S' g', S.Extends S' → S'.Knows name →
                evaluate source S' t = .error (.gap g') → g'.name? ≠ some name)
      ∧ ∀ answer : Table → Text → Value, ∃ rounds ≤ (names source t).dedup.length,
          (∀ k < rounds, (missing? source ((amend source t answer)^[k] S) t).isSome = true)
            ∧ Settled source ((amend source t answer)^[rounds] S) t := by
  refine ⟨?_, ?_, ?_⟩
  · intro v S' hv hextends
    rcases grown_eval hextends none t with h | ⟨name, context, h, -⟩
    · exact h.trans hv
    · rw [evaluate, h] at hv
      cases hv
  · intro g name hg hname
    obtain ⟨hunknown, hmem⟩ := unknown_of_missing? (missing?_eq_some_iff.mpr ⟨g, hg, hname⟩)
    refine ⟨hunknown, hmem, ?_⟩
    intro S' g' _ hknown hg' hname'
    exact (unknown_of_missing? (missing?_eq_some_iff.mpr ⟨g', hg', hname'⟩)).1 hknown
  · intro answer
    obtain ⟨rounds, hrounds, hrest⟩ := @exists_rounds source t answer S
    exact ⟨rounds, Nat.le_trans hrounds (List.length_filter_le _ _), hrest⟩

/-- A list of two names, written `[a,b]`. -/
def twoNames : Tree :=
  .ofKind .array 0 5
    [.ofToken "[" 0 1, .ofKind .identifier 1 2 [], .ofToken "," 2 3, .ofKind .identifier 3 4 [],
      .ofToken "]" 4 5]

/-- Of two unknown names the first is asked for, and with it known the second. With both known the
list has a value, which a further symbol does not change. -/
theorem twoNames_grows_and_is_amended :
    let source := Utf8.encode ['[', 'a', ',', 'b', ']']
    let a : Text := [.char 'a']
    let b : Text := [.char 'b']
    let first : Table := [(a, .bool true)]
    let both : Table := [(a, .bool true), (b, .null)]
    let more : Table := both.add [.char 'c'] .null
    (evaluate source both twoNames = .ok (.list [.bool true, .null]) ∧ both.Extends more
        ∧ evaluate source more twoNames = .ok (.list [.bool true, .null]))
      ∧ (evaluate source [] twoNames = .error (.gap (.unresolved a a))
        ∧ ¬Table.Knows [] a ∧ a ∈ names source twoNames
        ∧ Table.Extends [] first ∧ first.Knows a
        ∧ evaluate source first twoNames = .error (.gap (.unresolved b b))
        ∧ (Gap.unresolved b b).name? ≠ some a)
      ∧ ∃ rounds ≤ 2, Settled source ((amend source twoNames fun _ _ => .null)^[rounds] []) twoNames
    := by
  intro source a b first both more
  have hboth : evaluate source both twoNames = .ok (.list [.bool true, .null]) := rfl
  have hnone : evaluate source [] twoNames = .error (.gap (.unresolved a a)) := rfl
  have hfirst : evaluate source first twoNames = .error (.gap (.unresolved b b)) := rfl
  have hmore : both.Extends more := both.extends_add _ _
  have hextends : Table.Extends [] first := Table.extends_add [] a (.bool true)
  have hknown : first.Knows a := Table.knows_add [] a (.bool true)
  have hcount : (names source twoNames).dedup.length = 2 := by decide
  obtain ⟨hstays, -, -⟩ := evaluate_grows_and_is_amended source twoNames both
  obtain ⟨-, hasks, hrounds⟩ := evaluate_grows_and_is_amended source twoNames []
  obtain ⟨hunknown, hmem, hnever⟩ := hasks _ a hnone rfl
  obtain ⟨rounds, hle, -, hsettled⟩ := hrounds fun _ _ => .null
  exact ⟨⟨hboth, hmore, hstays _ more hboth hmore⟩,
    ⟨hnone, hunknown, hmem, hextends, hknown, hfirst, hnever first _ hextends hknown hfirst⟩,
    rounds, hcount ▸ hle, hsettled⟩

end OptionTypes.Evaluation
