import OptionTypes.Proofs.Evaluation.InPlace
import OptionTypes.Proofs.Evaluation.Operators

/-!
# Properties that evaluation keeps

An evaluation takes values from literals and from the table of symbols, takes lists and objects
apart and puts others together, and calculates. So a property of values that is decided part by part
is one of every value of a tree, once it holds of the literals, of the symbols and of the results of
calculations. Those are numbers in normal form, or complex numbers.

* `Closed`: such a property.
* `Calculates`: the numbers that a node of a tree calculates with, and `ComplexBelow` the complex
  numbers that nodes of a tree calculate.
* `Closed.evals`: the property holds of whatever a tree evaluates to.
-/

namespace OptionTypes

/-- What a numeral is read as is in normal form. -/
theorem Literal.isIntegralFloat_of_parse {t : Text} {n : Number} (h : parse t = .ok n) :
    n.isIntegralFloat = false := by
  have hint : ∀ {x : Except Reading.Error Int}, x.map Number.int = .ok n →
      n.isIntegralFloat = false := by
    intro x hx
    obtain ⟨m, -, rfl⟩ := Outcome.map_eq_ok_iff.mp hx
    rfl
  unfold parse at h
  extract_lets bare at h
  split at h
  · exact hint h
  split at h
  · exact hint h
  split at h
  · exact hint h
  · obtain ⟨x, -, rfl⟩ := Outcome.map_eq_ok_iff.mp h
    exact Number.isIntegralFloat_normal _

namespace Evaluation

open Syntax Outcome

/-- Whether a property of values is decided part by part, with one of the keys of objects, and holds
of symbols and of what is made of no other values. -/
structure Closed (s : Scope) (keys : Key → Prop) (P : Value → Prop) : Prop where
  null : P .null
  bool (b : Bool) : P (.bool b)
  number {n : Number} (h : n.isIntegralFloat = false) : P (.number n)
  text (t : Text) : P (.text t)
  function (source : Text) : P (.function source)
  list_iff {items : List Value} : P (.list items) ↔ ∀ v ∈ items, P v
  object_iff {ms : Members} : P (.object ms) ↔ ∀ m ∈ ms, keys m.1 ∧ P m.2
  key (t : Text) : keys (.text t)
  symbol : ∀ p ∈ s.symbols, P p.2

/-- Whether a node has an operator between sides that count as two numbers. -/
structure Calculates (s : Scope) (context : Option Tree) (t : Tree) (op : Operator) (m n : Number) :
    Prop where
  kind : t.is .binaryExpression = true
  operator : operator? (symbolOf t.children) = some op
  left : ∃ a, evalPart s context .left t.children = .ok a ∧ number? a = some m
  right : ∃ b, evalPart s context .right t.children = .ok b ∧ number? b = some n

/-- The complex numbers that nodes of a tree calculate. -/
def ComplexBelow (s : Scope) (t : Tree) (re im : Float) : Prop :=
  ∃ u ∈ t.nodes, ∃ context op m n, Calculates s context u op m n
    ∧ Arithmetic.apply op m n = .ok (.complex re im)

variable {s : Scope} {keys : Key → Prop} {P : Value → Prop} {t whole left right : Tree}
  {context : Option Tree} {ts : List Tree} {v a b : Value} {op : Operator}

/-! ## Single steps -/

/-- A value that passes as a number counts as one. -/
theorem eq_some_of_numberOf {m : Number} (h : numberOf s t v = .ok m) : number? v = some m := by
  unfold numberOf at h
  split at h
  next n hn =>
    rw [hn, Except.ok.inj h]
  next => cases h

/-- A binary operation joins texts or calculates. -/
theorem operate_eq_ok (h : operate s whole left right op a b = .ok v) :
    (∃ text, v = .text text)
      ∨ ∃ m n r, number? a = some m ∧ number? b = some n ∧ Arithmetic.apply op m n = .ok r
        ∧ v = ofResult r := by
  unfold operate at h
  split at h
  · obtain ⟨head, -, h⟩ := bind_eq_ok_iff.mp h
    obtain ⟨tail, -, h⟩ := bind_eq_ok_iff.mp h
    exact .inl ⟨_, (Except.ok.inj h).symm⟩
  · obtain ⟨m, hm, h⟩ := bind_eq_ok_iff.mp h
    obtain ⟨n, hn, h⟩ := bind_eq_ok_iff.mp h
    split at h
    next r hr =>
      exact .inr ⟨m, n, r, eq_some_of_numberOf hm, eq_some_of_numberOf hn, hr,
        (Except.ok.inj h).symm⟩
    next => cases h

/-- What a node calculates is its value. -/
theorem Calculates.eval_eq {m n : Number} (h : Calculates s context t op m n) :
    eval s context t = ofArithmetic s t (Arithmetic.apply op m n) := by
  obtain ⟨hkind, hop, ⟨a, ha, hm⟩, ⟨b, hb, hn⟩⟩ := h
  rw [eval_of_operation hkind hop, ha, hb, ok_bind, ok_bind, operate_numbers hm hn]

/-- What a node below calculates is calculated below. -/
theorem complexBelow_of_mem {u : Tree} {re im : Float} (hu : u ∈ t.nodes)
    (h : ComplexBelow s u re im) : ComplexBelow s t re im := by
  obtain ⟨w, hw, hcalculates⟩ := h
  exact ⟨w, Tree.nodes_subset_of_mem t hu hw, hcalculates⟩

namespace Closed

/-- A result of arithmetic has the property: a number is in normal form, and a complex number is
asked for. -/
theorem ofResult (hP : Closed s keys P) {r : Arithmetic.Result}
    (hcomplex : ∀ re im, r = .complex re im → P (.complex re im)) : P (Evaluation.ofResult r) := by
  cases r with
  | number n => exact hP.number n.isIntegralFloat_normal
  | complex re im => exact hcomplex re im rfl

/-- A number that a value counts as has the property as well. -/
theorem number? (hP : Closed s keys P) {m : Number} (ha : P a) (h : number? a = some m) :
    P (.number m) := by
  cases a with
  | bool b =>
    obtain rfl := Option.some.inj h
    exact hP.number rfl
  | number n =>
    obtain rfl := Option.some.inj h
    exact ha
  | _ => cases h

/-- A unary operation keeps the property. -/
theorem operateUnary (hP : Closed s keys P) {symbol : String} (ha : P a)
    (h : operateUnary s t symbol a = .ok v) : P v := by
  unfold Evaluation.operateUnary at h
  split at h
  · cases h
    exact hP.bool _
  · obtain ⟨m, -, h⟩ := bind_eq_ok_iff.mp h
    cases h
    exact hP.number (Number.isIntegralFloat_normal _)
  · obtain ⟨m, hm, h⟩ := bind_eq_ok_iff.mp h
    cases h
    exact hP.number? ha (eq_some_of_numberOf hm)
  · cases h

/-- A symbol has the property. -/
theorem lookup (hP : Closed s keys P) (h : lookup s context t = .ok v) : P v := by
  rw [Evaluation.lookup] at h
  split at h
  next found hfound =>
    obtain ⟨p, hp, rfl⟩ := Option.map_eq_some_iff.mp hfound
    cases h
    exact hP.symbol p (List.mem_of_find?_eq_some hp)
  next => cases h

/-- What is spread into a list are its items, or the characters of a text. -/
theorem spreadItems (hP : Closed s keys P) {items : List Value} (ha : P a)
    (h : spreadItems s t a = .ok items) : ∀ v ∈ items, P v := by
  unfold Evaluation.spreadItems at h
  split at h
  · cases h
    intro v hv
    obtain ⟨c, -, rfl⟩ := List.mem_map.mp hv
    exact hP.text _
  · cases h
    exact hP.list_iff.mp ha
  · cases h

/-! ## Members -/

/-- What is spread into an object are its entries. -/
theorem spreadWrites (hP : Closed s keys P) {ws : Members} (ha : P a)
    (h : spreadWrites s t a = .ok ws) : ∀ w ∈ ws, keys w.1 ∧ P w.2 := by
  unfold Evaluation.spreadWrites at h
  split at h
  · cases h
    exact hP.object_iff.mp ha
  · cases h
    exact nofun
  · cases h

/-- A single member with a text as its key. -/
theorem member (hP : Closed s keys P) (key : Text) (hv : P v) :
    ∀ w ∈ [(Key.text key, v)], keys w.1 ∧ P w.2 :=
  List.forall_mem_singleton.mpr ⟨hP.key key, hv⟩

/-- What is written one after the other makes an object. -/
theorem insertAll (hP : Closed s keys P) {ws : Members} (h : ∀ w ∈ ws, keys w.1 ∧ P w.2) :
    P (.object (Members.insertAll [] ws)) := by
  refine hP.object_iff.mpr fun m hm => ⟨?_, ?_⟩
  · rcases Members.fst_mem_of_mem_insertAll hm with hold | hkey
    · cases hold
    · obtain ⟨w, hw, heq⟩ := List.mem_map.mp hkey
      rw [← heq]
      exact (h w hw).1
  · exact Members.forall_mem_insertAll nofun (fun w hw => (h w hw).2) m hm

end Closed

/-! ## Whole evaluations -/

/-- Whether the values of a node have a property, whatever is around it. -/
def EvalsTo (s : Scope) (P : Value → Prop) (t : Tree) : Prop :=
  ∀ context v, eval s context t = .ok v → P v

/-- A part that is looked for is a child, and so has the property. -/
theorem EvalsTo.evalPart {part : Field} (hts : ∀ c ∈ ts, EvalsTo s P c)
    (h : evalPart s context part ts = .ok v) : P v := by
  obtain ⟨c, hc, hv⟩ := evalPart_eq_ok h
  exact hts c hc context v hv

/-- An operand that is looked for is a child, and so has the property. -/
theorem EvalsTo.evalFirst (hts : ∀ c ∈ ts, EvalsTo s P c)
    (h : evalFirst s context ts = .ok v) : P v := by
  obtain ⟨c, hc, hv⟩ := evalFirst_eq_ok h
  exact hts c hc context v hv

namespace Closed

/-- What one child of an object writes has the property. -/
theorem memberWrites (hP : Closed s keys P) {ws : Members}
    (hbelow : ∀ c ∈ t.children, EvalsTo s P c) (h : memberWrites s t = .ok ws) :
    ∀ w ∈ ws, keys w.1 ∧ P w.2 := by
  unfold Evaluation.memberWrites at h
  split at h
  · obtain ⟨key, -, h⟩ := bind_eq_ok_iff.mp h
    obtain ⟨value, hvalue, h⟩ := bind_eq_ok_iff.mp h
    cases h
    exact hP.member key (EvalsTo.evalPart hbelow hvalue)
  · obtain ⟨value, hvalue, h⟩ := bind_eq_ok_iff.mp h
    cases h
    exact hP.member _ (hP.lookup hvalue)
  · obtain ⟨value, hvalue, h⟩ := bind_eq_ok_iff.mp h
    exact hP.spreadWrites (EvalsTo.evalFirst hbelow hvalue) h
  · obtain ⟨key, -, h⟩ := bind_eq_ok_iff.mp h
    cases h
    exact hP.member key (hP.function _)
  · cases h

/-- All that the children of an object write has the property. Induction on the children. -/
theorem writes (hP : Closed s keys P) {ws : Members}
    (hbelow : ∀ c ∈ ts, ∀ u ∈ c.children, EvalsTo s P u) (h : writes s ts = .ok ws) :
    ∀ w ∈ ws, keys w.1 ∧ P w.2 := by
  induction ts generalizing ws with
  | nil =>
    cases h
    exact nofun
  | cons t ts ih =>
    obtain ⟨ht, hts⟩ := List.forall_mem_cons.mp hbelow
    rw [Evaluation.writes] at h
    split at h
    · obtain ⟨first, hfirst, h⟩ := bind_eq_ok_iff.mp h
      obtain ⟨rest, hrest, h⟩ := bind_eq_ok_iff.mp h
      cases h
      exact List.forall_mem_append.mpr ⟨hP.memberWrites ht hfirst, ih hts hrest⟩
    · exact ih hts h

/-- All items of a list have the property. Induction on the children. -/
theorem evalItems (hP : Closed s keys P) {items : List Value} (hts : ∀ c ∈ ts, EvalsTo s P c)
    (hbelow : ∀ c ∈ ts, ∀ u ∈ c.children, EvalsTo s P u)
    (h : evalItems s context ts = .ok items) : ∀ v ∈ items, P v := by
  induction ts generalizing items with
  | nil =>
    rw [Evaluation.evalItems] at h
    cases h
    exact nofun
  | cons t ts ih =>
    obtain ⟨hself, hts⟩ := List.forall_mem_cons.mp hts
    obtain ⟨ht, hbelow⟩ := List.forall_mem_cons.mp hbelow
    rw [Evaluation.evalItems] at h
    split at h
    · obtain ⟨value, hvalue, h⟩ := bind_eq_ok_iff.mp h
      obtain ⟨first, hfirst, h⟩ := bind_eq_ok_iff.mp h
      obtain ⟨rest, hrest, h⟩ := bind_eq_ok_iff.mp h
      cases h
      -- a spread: what is spread has the property, and so has each of its items
      rw [evalInside_eq] at hvalue
      have hinside := EvalsTo.evalFirst ht hvalue
      exact List.forall_mem_append.mpr ⟨hP.spreadItems hinside hfirst, ih hts hbelow hrest⟩
    split at h
    · obtain ⟨first, hfirst, h⟩ := bind_eq_ok_iff.mp h
      obtain ⟨rest, hrest, h⟩ := bind_eq_ok_iff.mp h
      cases h
      exact List.forall_mem_cons.mpr ⟨hself context first hfirst, ih hts hbelow hrest⟩
    · exact ih hts hbelow h

/-- One node, given that all below it have the property: the cases of `Form`. What a node calculates
itself is a number in normal form or a complex number (`hcomplex`). -/
theorem evals_node (hP : Closed s keys P)
    (hcomplex : ∀ re im, ComplexBelow s t re im → P (.complex re im))
    (hbelow : ∀ c ∈ t.children, ∀ u ∈ c.nodes, EvalsTo s P u) : EvalsTo s P t := by
  intro context v h
  have hchildren : ∀ c ∈ t.children, EvalsTo s P c := by
    intro c hc
    exact hbelow c hc c c.self_mem_nodes
  have hinner : ∀ c ∈ t.children, ∀ u ∈ c.children, EvalsTo s P u := by
    intro c hc u hu
    exact hbelow c hc u (Tree.mem_nodes_of_mem_children hu u.self_mem_nodes)
  have hform := form_eval s context t
  generalize eval s context t = r at h hform
  cases hform with
  | object _ =>
    -- an object is what its writes leave
    obtain ⟨ms, hms, rfl⟩ := map_eq_ok_iff.mp h
    rw [evalMembers_eq] at hms
    obtain ⟨ws, hws, rfl⟩ := map_eq_ok_iff.mp hms
    exact hP.insertAll (hP.writes hinner hws)
  | array _ =>
    obtain ⟨items, hitems, rfl⟩ := map_eq_ok_iff.mp h
    exact hP.list_iff.mpr (hP.evalItems hchildren hinner hitems)
  | string _ =>
    obtain ⟨text, -, rfl⟩ := map_eq_ok_iff.mp h
    exact hP.text text
  | template _ =>
    obtain ⟨text, -, rfl⟩ := map_eq_ok_iff.mp h
    exact hP.text text
  | number _ =>
    obtain ⟨n, hn, rfl⟩ := map_eq_ok_iff.mp h
    exact hP.number (Literal.isIntegralFloat_of_parse (mapError_eq_ok_iff.mp hn))
  | bool b =>
    cases h
    exact hP.bool b
  | null =>
    cases h
    exact hP.null
  | name _ _ => exact hP.lookup h
  | parentheses _ => exact EvalsTo.evalFirst hchildren h
  | unary _ _ =>
    obtain ⟨a, ha, h⟩ := bind_eq_ok_iff.mp h
    exact hP.operateUnary (EvalsTo.evalPart hchildren ha) h
  | choice _ _ =>
    -- the value is that of one of the sides
    obtain ⟨a, ha, h⟩ := bind_eq_ok_iff.mp h
    split at h
    · cases h
      exact EvalsTo.evalPart hchildren ha
    · exact EvalsTo.evalPart hchildren h
  | operation hkind hop =>
    obtain ⟨a, ha, h⟩ := bind_eq_ok_iff.mp h
    obtain ⟨b, hb, h⟩ := bind_eq_ok_iff.mp h
    rcases operate_eq_ok h with ⟨text, rfl⟩ | ⟨m, n, r, hm, hn, hr, rfl⟩
    · exact hP.text text
    · refine hP.ofResult fun re im hcalculated => hcomplex re im ?_
      exact ⟨t, t.self_mem_nodes, context, _, m, n, ⟨hkind, hop, ⟨a, ha, hm⟩, ⟨b, hb, hn⟩⟩,
        hcalculated ▸ hr⟩
  | function =>
    cases h
    exact hP.function _
  | refused _ => cases h

/-- **Evaluation keeps the property**, if the complex numbers that the tree calculates have it.
Induction on the tree, for all nodes below at once, since spreads and computed keys reach below the
children. -/
theorem evals (hP : Closed s keys P)
    (hcomplex : ∀ re im, ComplexBelow s t re im → P (.complex re im)) : EvalsTo s P t := by
  induction t using Tree.below_induction with
  | step t ih =>
    refine hP.evals_node hcomplex fun c hc u hu => ih c hc u hu fun re im hbelow => ?_
    exact hcomplex re im (complexBelow_of_mem (Tree.mem_nodes_of_mem_children hc hu) hbelow)

end Closed

end Evaluation

end OptionTypes
