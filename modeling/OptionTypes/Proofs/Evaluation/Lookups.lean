import OptionTypes.Proofs.Evaluation.InPlace
import OptionTypes.Proofs.Preorder

/-!
# The names that an evaluation looks up

An evaluation goes on from a node to some of its children, and to a child only when those that come
before it have values. Where it comes to a name, it looks the name up. If the name is unknown, the
whole evaluation ends there: nothing on the way back catches a failure.

* `Step` has one constructor for each way in which the evaluation of a node goes on to a child, and
  `LooksUp` follows such steps down to a name.
* `memberAround` is the innermost member around a node, unless an object comes before it.
* `LooksUp.fails` and `exists_looksUp`: an evaluation fails with the name of a node exactly when it
  looks up that node and the name is unknown. The failure shows the member around the node.
-/

namespace OptionTypes.Syntax

/-! ## What is around a node -/

/-- The nodes around the node at the end of a path, the innermost one first. -/
def Tree.around (t : Tree) : List Nat → List Tree
  | [] => []
  | i :: path => ((t.children[i]?).elim [] fun c => c.around path) ++ [t]

variable {root t u : Tree}

/-- A path in two parts leads on from where its first part leads. Induction on the first part. -/
theorem Tree.at?_append (named : Bool) (root : Tree) (path below : List Nat) :
    root.at? named (path ++ below) = (root.at? named path).bind (·.at? named below) := by
  induction path generalizing root with
  | nil => rfl
  | cons i path ih =>
    rw [List.cons_append, at?, at?, Option.bind_assoc]
    exact Option.bind_congr fun c _ => ih c

/-- A path that goes on leads through what is around its first part. -/
theorem Tree.around_append {path : List Nat} (h : root.at? false path = some t)
    (below : List Nat) : root.around (path ++ below) = t.around below ++ root.around path := by
  induction path generalizing root with
  | nil =>
    cases h
    exact (List.append_nil _).symm
  | cons i path ih =>
    obtain ⟨c, hc, ht⟩ := Option.bind_eq_some_iff.mp h
    have hchild : root.children[i]? = some c := hc
    rw [List.cons_append, around, around, hchild, Option.elim_some, Option.elim_some, ih ht,
      List.append_assoc]

/-- What is around a node encloses it. -/
theorem Tree.mem_nodes_of_mem_around {path : List Nat} (h : root.at? false path = some u) :
    ∀ m ∈ root.around path, m ∈ root.nodes ∧ u ∈ m.nodes := by
  induction path generalizing root with
  | nil => exact nofun
  | cons i path ih =>
    obtain ⟨c, hc, hu⟩ := Option.bind_eq_some_iff.mp h
    have hchild : root.children[i]? = some c := hc
    have hmem : c ∈ root.children := List.mem_of_getElem? hchild
    intro m hm
    rw [around, hchild, Option.elim_some, List.mem_append, List.mem_singleton] at hm
    rcases hm with hm | hroot
    · obtain ⟨hinside, hbelow⟩ := ih hu m hm
      exact ⟨mem_nodes_of_mem_children hmem hinside, hbelow⟩
    · rw [hroot]
      exact ⟨root.self_mem_nodes, mem_nodes_of_mem_children hmem (mem_nodes_of_at? hu)⟩

end OptionTypes.Syntax

namespace OptionTypes.Evaluation

open Syntax Outcome

/-- Of nodes one around the other, the innermost one first, the first member, unless an object comes
before it. -/
def innermostMember (around : List Tree) : Option Tree :=
  (around.find? fun t => t.is .pair || t.is .object).filter fun t => t.is .pair

/-- The member around the node at the end of a path, unless an object lies between. -/
def memberAround (root : Tree) (path : List Nat) : Option Tree :=
  innermostMember (root.around path)

/-- The node that is closest decides if it is a member or an object; otherwise those around it
do. -/
theorem innermostMember_cons (t : Tree) (around : List Tree) :
    innermostMember (t :: around)
      = if t.is .pair then some t else if t.is .object then none else innermostMember around := by
  unfold innermostMember
  rw [List.find?_cons]
  cases hpair : t.is .pair with
  | true => simp [hpair]
  | false =>
    cases hobject : t.is .object with
    | true => simp [hpair]
    | false => simp

/-- The member around a node is a pair around it, and neither pairs nor objects lie between. -/
theorem innermostMember_eq_some_iff {around : List Tree} {m : Tree} :
    innermostMember around = some m
      ↔ m.is .pair = true ∧ ∃ inner outer, around = inner ++ m :: outer
        ∧ ∀ t ∈ inner, t.is .pair = false ∧ t.is .object = false := by
  rw [innermostMember, Option.filter_eq_some_iff, List.find?_eq_some_iff_append]
  simp only [Bool.not_eq_true', Bool.or_eq_false_iff, Bool.or_eq_true]
  constructor
  · rintro ⟨⟨-, inner, outer, rfl, hinner⟩, hpair⟩
    exact ⟨hpair, inner, outer, rfl, hinner⟩
  · rintro ⟨hpair, inner, outer, rfl, hinner⟩
    exact ⟨⟨.inl hpair, inner, outer, rfl, hinner⟩, hpair⟩

/-! ## Values do not depend on what is around -/

section Values

variable {s : Scope} {context : Option Tree}

mutual

/-- A tree is itself with nothing put in place, whatever its children. Mutual with its siblings. -/
theorem spliced_self (source : Bytes) : ∀ t : Tree, Spliced source source t t
  | .node label _ _ _ _ children =>
    .node label _ _ _ _ _ _ _ (fun _ => rfl) (fun _ => rfl) (splicedAll_self source label children)

/-- Siblings are themselves with nothing put in place. -/
theorem splicedAll_self (source : Bytes) (label : Label) :
    ∀ ts : List Tree, SplicedAll source source label ts ts
  | [] => .nil label
  | t :: ts => .keep (spliced_self source t) (splicedAll_self source label ts)

end

/-- Siblings are alike to themselves: what they give does not depend on the member around them,
except for what a failure shows. -/
theorem siblingsAlike_self (s : Scope) (label : Label) (ts : List Tree) :
    SiblingsAlike s.source s.source s.symbols label ts ts :=
  siblingsAlike_of_spliced s.symbols (splicedAll_self s.source label ts)

/-- Alike results have the same values. -/
theorem Alike.eq_ok {α : Type} {x y : Result α} {a : α} (h : Alike x y) (hx : x = .ok a) :
    y = .ok a := by
  rw [hx] at h
  exact toOption_eq_some_iff.mp h.symm

end Values

/-! ## Steps -/

/-- What an evaluation takes a node for: an expression, a key, a member of an object, or something
around an expression. -/
inductive Role where
  | value
  | key
  | member
  | inside

/-- A child with a property, and no such child before it. -/
def IsFirst (p : Tree → Bool) (before : List Tree) (c : Tree) : Prop :=
  p c = true ∧ ∀ d ∈ before, p d = false

/-- Whether a node plays a part. -/
def plays (f : Field) (t : Tree) : Bool := t.field = some f

/-- Whether a node stands for the operand inside it. -/
def standsForOperand (t : Tree) : Role → Bool
  | .value => t.is .parenthesizedExpression
  | .key => t.is .computedPropertyName
  | .member => t.is .spreadElement
  | .inside => t.is .spreadElement || t.is .templateSubstitution

/-- Whether a symbol is that of a binary operator. -/
def isBinary (symbol : String) : Bool := (choice? symbol).isSome || (operator? symbol).isSome

/-- Whether a binary operator looks at its right side, given the value of its left side. -/
def takesRight (symbol : String) (left : Value) : Bool :=
  match choice? symbol with
  | some choice => !choice.keepsLeft left
  | none => (operator? symbol).isSome

/-- An operator that looks at its right side is one. -/
theorem isBinary_of_takesRight {symbol : String} {left : Value}
    (h : takesRight symbol left = true) : isBinary symbol = true := by
  unfold takesRight at h
  split at h
  next choice hchoice => simp [isBinary, hchoice]
  next => simp [isBinary, h]

/-- The evaluation of a node in a role goes on to a child, which comes after some others, in a role
of its own. -/
inductive Step (s : Scope) (t : Tree) (before : List Tree) (c : Tree) : Role → Role → Prop where
  | member (hkind : t.is .object = true) (hc : isOperand c = true) {ws : Members}
      (hbefore : writes s before = .ok ws) : Step s t before c .value .member
  | item (hkind : t.is .array = true) (hc : isOperand c = true)
      (hitem : c.is .spreadElement = false) {vs : List Value}
      (hbefore : evalItems s none before = .ok vs) : Step s t before c .value .value
  | spread (hkind : t.is .array = true) (hspread : c.is .spreadElement = true) {vs : List Value}
      (hbefore : evalItems s none before = .ok vs) : Step s t before c .value .inside
  | substitution (hkind : t.is .templateString = true) (hc : c.is .templateSubstitution = true)
      {text : Text} (hbefore : evalParts s none c.start (t.start + 1) before = .ok text) :
      Step s t before c .value .inside
  | operand {role : Role} (hstands : standsForOperand t role = true)
      (hc : IsFirst isOperand before c) : Step s t before c role .value
  | argument (hkind : t.is .unaryExpression = true) (hsymbol : symbolOf t.children ≠ "void")
      (hc : IsFirst (plays .argument) before c) : Step s t before c .value .value
  | left (hkind : t.is .binaryExpression = true) (hsymbol : isBinary (symbolOf t.children) = true)
      (hc : IsFirst (plays .left) before c) : Step s t before c .value .value
  | right (hkind : t.is .binaryExpression = true) {left : Value}
      (hleft : evalPart s none .left t.children = .ok left)
      (hsymbol : takesRight (symbolOf t.children) left = true)
      (hc : IsFirst (plays .right) before c) : Step s t before c .value .value
  | key (hkind : t.is .pair = true) (hc : IsFirst (plays .key) before c) :
      Step s t before c .member .key
  | value (hkind : t.is .pair = true) {key : Text}
      (hkey : evalKey s none .key t.children = .ok key) (hc : IsFirst (plays .value) before c) :
      Step s t before c .member .value
  | name (hkind : t.is .methodDefinition = true) (hc : IsFirst (plays .name) before c) :
      Step s t before c .member .key

/-- Whether a node is looked up when it is evaluated in a role. -/
def isLookup (s : Scope) (t : Tree) : Role → Bool
  | .value => t.is .identifier && decide (t.text s.source ≠ "undefined")
  | .member => t.is .shorthandPropertyIdentifier
  | .key | .inside => false

/-- The evaluation of a node in a role looks up the node at the end of a path. -/
inductive LooksUp (s : Scope) : Role → Tree → List Nat → Tree → Prop where
  | here {role : Role} {u : Tree} (h : isLookup s u role = true) : LooksUp s role u [] u
  | descend {role role' : Role} {t c u : Tree} {before after : List Tree} {path : List Nat}
      (hchildren : t.children = before ++ c :: after) (hstep : Step s t before c role role')
      (h : LooksUp s role' c path u) : LooksUp s role t (before.length :: path) u

/-- The path of a lookup leads to the node that is looked up. -/
theorem LooksUp.at? {s : Scope} {role : Role} {t u : Tree} {path : List Nat}
    (h : LooksUp s role t path u) : t.at? false path = some u := by
  induction h with
  | here _ => rfl
  | @descend _ _ t c _ before after _ hchildren _ _ ih =>
    have hchild : (t.walked false)[before.length]? = some c := by
      show t.children[before.length]? = some c
      rw [hchildren]
      simp
    rw [Tree.at?, hchild, Option.bind_some, ih]

/-- A step to the child at a position. -/
theorem LooksUp.child {s : Scope} {role role' : Role} {t c u : Tree} {i : Nat} {path : List Nat}
    (hc : t.children[i]? = some c) (hstep : Step s t (t.children.take i) c role role')
    (h : LooksUp s role' c path u) : LooksUp s role t (i :: path) u := by
  obtain ⟨hi, hget⟩ := List.getElem?_eq_some_iff.mp hc
  have hchildren : t.children = t.children.take i ++ c :: t.children.drop (i + 1) := by
    rw [← hget, List.getElem_cons_drop, List.take_append_drop]
  have hdescend := LooksUp.descend hchildren hstep h
  rwa [List.length_take, Nat.min_eq_left (Nat.le_of_lt hi)] at hdescend

/-! ## Steps that fail without a name -/

/-- A result that is no failure with a name. -/
def Unnamed {α : Type} (x : Result α) : Prop := ∀ g, x = .error (.gap g) → g.name? = none

section Unnamed

variable {s : Scope} {α β : Type}

/-- A value is no failure. -/
theorem unnamed_ok (a : α) : Unnamed (.ok a : Result α) := nofun

/-- A refusal for another reason than a name. -/
theorem unnamed_refuse {g : Gap} (h : g.name? = none) : Unnamed (refuse g : Result α) := by
  intro g' hg
  cases hg
  exact h

/-- A failure that is no gap has no name. -/
theorem unnamed_mapError {ε : Type} {wrap : ε → Failure} (hwrap : ∀ e g, wrap e ≠ .gap g)
    (x : Except ε α) : Unnamed (x.mapError wrap) := by
  intro g hg
  obtain ⟨e, -, he⟩ := mapError_eq_error_iff.mp hg
  exact absurd he (hwrap e g)

/-- Two stages without a name are one without a name. -/
theorem Unnamed.bind {x : Result α} {k : α → Result β} (hx : Unnamed x)
    (hk : ∀ a, Unnamed (k a)) : Unnamed (x >>= k) := by
  intro g hg
  rcases bind_eq_error_iff.mp hg with hg | ⟨a, -, hg⟩
  · exact hx g hg
  · exact hk a g hg

/-- To turn a value into a text may fail, but not with a name. -/
theorem unnamed_textOf (v : Value) : Unnamed (textOf v) := unnamed_mapError nofun _

theorem unnamed_chunk (source : Bytes) (start stop : Nat) : Unnamed (chunk source start stop) :=
  unnamed_mapError nofun _

theorem unnamed_stringValue (t : Tree) :
    Unnamed ((stringValue s.source t).mapError Failure.escape) := unnamed_mapError nofun _

theorem unnamed_numeral (cs : Text) : Unnamed ((Literal.parse cs).mapError Failure.number) :=
  unnamed_mapError nofun _

/-- A value that is no number is refused without a name. -/
theorem unnamed_numberOf (t : Tree) (v : Value) : Unnamed (numberOf s t v) := by
  unfold numberOf
  split
  · exact unnamed_ok _
  · exact unnamed_refuse rfl

/-- What a unary operator does with a value gives no failure with a name. -/
theorem unnamed_operateUnary (t : Tree) (symbol : String) (v : Value) :
    Unnamed (operateUnary s t symbol v) := by
  unfold operateUnary
  split
  · exact unnamed_ok _
  · exact (unnamed_numberOf t v).bind fun _ => unnamed_ok _
  · exact (unnamed_numberOf t v).bind fun _ => unnamed_ok _
  · exact unnamed_refuse rfl

/-- What a binary operator does with two values gives no failure with a name. -/
theorem unnamed_operate (t left right : Tree) (op : Operator) (a b : Value) :
    Unnamed (operate s t left right op a b) := by
  unfold operate
  split
  · exact (unnamed_textOf a).bind fun _ => (unnamed_textOf b).bind fun _ => unnamed_ok _
  · refine (unnamed_numberOf left a).bind fun m => (unnamed_numberOf right b).bind fun n => ?_
    split
    · exact unnamed_ok _
    · exact unnamed_refuse rfl

/-- To spread a value into an object may be refused, but without a name. -/
theorem unnamed_spreadWrites (t : Tree) (v : Value) : Unnamed (spreadWrites s t v) := by
  unfold spreadWrites
  split
  · exact unnamed_ok _
  · exact unnamed_ok _
  · exact unnamed_refuse rfl

/-- To spread a value into a list may be refused, but without a name. -/
theorem unnamed_spreadItems (t : Tree) (v : Value) : Unnamed (spreadItems s t v) := by
  unfold spreadItems
  split
  · exact unnamed_ok _
  · exact unnamed_ok _
  · exact unnamed_refuse rfl

/-- A failure with a name is not one without. -/
theorem Unnamed.ne_error {x : Result α} {g : Gap} {name : Text} (hx : Unnamed x)
    (hname : g.name? = some name) : x ≠ .error (.gap g) := by
  intro hg
  rw [hx g hg] at hname
  cases hname

/-- Of two stages the first one fails with a name if the second one cannot. -/
theorem Unnamed.first {x : Result α} {k : α → Result β} {g : Gap} {name : Text}
    (hk : ∀ a, Unnamed (k a)) (hname : g.name? = some name) (h : x >>= k = .error (.gap g)) :
    x = .error (.gap g) := by
  rcases bind_eq_error_iff.mp h with h | ⟨a, -, h⟩
  · exact h
  · exact absurd h ((hk a).ne_error hname)

end Unnamed

/-! ## Failures among siblings -/

section Siblings

variable {s : Scope} {context : Option Tree} {before after ts : List Tree} {c : Tree} {f : Failure}

/-- What is done with the first sibling that has a property, if there is one. -/
def withFirst {α : Type} (p : Tree → Bool) (run : Tree → Result α) (ts : List Tree) : Result α :=
  (ts.find? p).elim (.error .incomplete) run

/-- What is done with the first sibling that has a property, where that one is known. -/
theorem withFirst_of_isFirst {α : Type} {p : Tree → Bool} {run : Tree → Result α}
    (hts : ts = before ++ c :: after) (hc : IsFirst p before c) : withFirst p run ts = run c := by
  have hfind : ts.find? p = some c := by
    refine List.find?_eq_some_iff_append.mpr ⟨hc.1, before, after, hts, ?_⟩
    intro d hd
    rw [hc.2 d hd]
    rfl
  rw [withFirst, hfind, Option.elim_some]

/-- If something goes wrong, it does so at the first sibling with the property. -/
theorem exists_isFirst {α : Type} {p : Tree → Bool} {run : Tree → Result α} {g : Gap}
    (h : withFirst p run ts = .error (.gap g)) :
    ∃ before c after, ts = before ++ c :: after ∧ IsFirst p before c
      ∧ run c = .error (.gap g) := by
  rw [withFirst] at h
  cases hfind : ts.find? p with
  | none =>
    rw [hfind] at h
    cases h
  | some c =>
    rw [hfind] at h
    obtain ⟨hc, before, after, hts, hbefore⟩ := List.find?_eq_some_iff_append.mp hfind
    refine ⟨before, c, after, hts, ⟨hc, fun d hd => ?_⟩, h⟩
    exact Bool.not_eq_true' _ ▸ hbefore d hd

/-- A search that takes one sibling after the other is for the first one with the property. -/
theorem eq_withFirst {α : Type} {p : Tree → Bool} {run : Tree → Result α}
    {search : List Tree → Result α} (hnil : search [] = .error .incomplete)
    (hcons : ∀ t ts, search (t :: ts) = if p t then run t else search ts) (ts : List Tree) :
    search ts = withFirst p run ts := by
  induction ts with
  | nil => exact hnil
  | cons t ts ih =>
    rw [hcons, withFirst, List.find?_cons]
    cases p t with
    | true => rfl
    | false => exact ih

/-- The first operand among siblings. -/
theorem evalFirst_eq_withFirst (ts : List Tree) :
    evalFirst s context ts = withFirst isOperand (eval s context) ts := by
  refine eq_withFirst ?_ (fun t ts => ?_) ts
  · rw [evalFirst]
  · rw [evalFirst]

/-- The first sibling that plays a part. -/
theorem evalPart_eq_withFirst (part : Field) (ts : List Tree) :
    evalPart s context part ts = withFirst (plays part) (eval s context) ts := by
  refine eq_withFirst ?_ (fun t ts => ?_) ts
  · rw [evalPart]
  · simp only [evalPart, plays, decide_eq_true_eq]

/-- The first sibling that is the key. -/
theorem evalKey_eq_withFirst (part : Field) (ts : List Tree) :
    evalKey s context part ts = withFirst (plays part) (evalKeyOf s context) ts := by
  refine eq_withFirst ?_ (fun t ts => ?_) ts
  · rw [evalKey]
  · simp only [evalKey, plays, decide_eq_true_eq]

/-- What the operands among siblings give, one after the other. -/
def collect {α : Type} (run : Tree → Result (List α)) : List Tree → Result (List α)
  | [] => .ok []
  | t :: ts =>
    if isOperand t then do return (← run t) ++ (← collect run ts) else collect run ts

/-- Siblings fail at the first operand that does. Induction on the siblings: one that is no operand
is passed over, and one that has values comes before whatever fails. -/
theorem collect_eq_error_iff {α : Type} {run : Tree → Result (List α)} :
    collect run ts = .error f
      ↔ ∃ before c after, ts = before ++ c :: after ∧ isOperand c = true
        ∧ (∃ xs, collect run before = .ok xs) ∧ run c = .error f := by
  constructor
  · intro h
    -- the operand that fails is the first one, or stands among the others; comments are passed over
    induction ts with
    | nil => cases h
    | cons t ts ih =>
      rw [collect] at h
      split at h
      next ht =>
        rcases bind_eq_error_iff.mp h with h | ⟨first, hfirst, h⟩
        · exact ⟨[], t, ts, rfl, ht, ⟨[], rfl⟩, h⟩
        · rcases bind_eq_error_iff.mp h with h | ⟨rest, -, h⟩
          · obtain ⟨before, c, after, rfl, hc, ⟨xs, hxs⟩, hfails⟩ := ih h
            refine ⟨t :: before, c, after, rfl, hc, ⟨first ++ xs, ?_⟩, hfails⟩
            rw [collect, if_pos ht, hfirst, hxs]
            rfl
          · cases h
      next ht =>
        obtain ⟨before, c, after, rfl, hc, ⟨xs, hxs⟩, hfails⟩ := ih h
        exact ⟨t :: before, c, after, rfl, hc, ⟨xs, by rw [collect, if_neg ht, hxs]⟩, hfails⟩
  · rintro ⟨before, c, after, rfl, hc, ⟨xs, hxs⟩, hfails⟩
    -- what comes before the operand gives something, and is run first
    induction before generalizing xs with
    | nil =>
      rw [List.nil_append, collect, if_pos hc, hfails]
      rfl
    | cons t before ih =>
      rw [collect] at hxs
      rw [List.cons_append, collect]
      split at hxs
      next ht =>
        obtain ⟨first, hfirst, hxs⟩ := bind_eq_ok_iff.mp hxs
        obtain ⟨rest, hrest, -⟩ := bind_eq_ok_iff.mp hxs
        rw [if_pos ht, hfirst, ok_bind, ih rest hrest]
        rfl
      next ht => rw [if_neg ht, ih xs hxs]

/-- The members of an object are collected. -/
theorem writes_eq_collect (ts : List Tree) : writes s ts = collect (memberWrites s) ts := by
  induction ts with
  | nil => rfl
  | cons t ts ih => rw [writes, collect, ih]

/-- The items that a child of a list stands for. -/
def childItems (s : Scope) (context : Option Tree) (c : Tree) : Result (List Value) :=
  if c.is .spreadElement then evalInside s context c >>= spreadItems s c
  else (eval s context c).map fun v => [v]

/-- The items of a list are collected: a spread stands for the items of its value, any other child
for one. -/
theorem evalItems_eq_collect (ts : List Tree) :
    evalItems s context ts = collect (childItems s context) ts := by
  induction ts with
  | nil =>
    rw [evalItems]
    rfl
  | cons t ts ih =>
    rw [evalItems, collect, childItems, ih]
    split
    next hspread => rw [if_pos (isOperand_of_spread hspread), bind_assoc]
    next =>
      split
      next =>
        cases eval s context t with
        | error e => rfl
        | ok v => rfl
      next => rfl

/-- A template that fails with a name does so at its first substitution that fails. -/
theorem exists_of_evalParts {stop start : Nat} {g : Gap} {name : Text} (hname : g.name? = some name)
    (h : evalParts s context stop start ts = .error (.gap g)) :
    ∃ before c after, ts = before ++ c :: after ∧ c.is .templateSubstitution = true
      ∧ (∃ text, evalParts s context c.start start before = .ok text)
      ∧ evalInside s context c = .error (.gap g) := by
  induction ts generalizing start with
  | nil =>
    rw [evalParts] at h
    exact absurd h ((unnamed_chunk _ _ _).ne_error hname)
  | cons t ts ih =>
    rw [evalParts] at h
    split at h
    next ht =>
      -- the text before a substitution, its value, the text of the value: only the value can name
      -- anything
      rcases bind_eq_error_iff.mp h with h | ⟨piece, hpiece, h⟩
      · exact absurd h ((unnamed_chunk _ _ _).ne_error hname)
      · rcases bind_eq_error_iff.mp h with h | ⟨value, hvalue, h⟩
        · refine ⟨[], t, ts, rfl, ht, ⟨piece, ?_⟩, h⟩
          rw [evalParts, hpiece]
        · rcases bind_eq_error_iff.mp h with h | ⟨text, htext, h⟩
          · exact absurd h ((unnamed_textOf _).ne_error hname)
          · rcases bind_eq_error_iff.mp h with h | ⟨rest, -, h⟩
            · obtain ⟨before, c, after, rfl, hc, ⟨more, hmore⟩, hfails⟩ := ih h
              refine ⟨t :: before, c, after, rfl, hc, ⟨piece ++ text ++ more, ?_⟩, hfails⟩
              rw [evalParts, if_pos ht, hpiece, ok_bind, hvalue, ok_bind, htext, ok_bind, hmore]
              rfl
            · cases h
    next ht =>
      obtain ⟨before, c, after, rfl, hc, ⟨text, htext⟩, hfails⟩ := ih h
      exact ⟨t :: before, c, after, rfl, hc, ⟨text, by rw [evalParts, if_neg ht, htext]⟩, hfails⟩

/-- A substitution that fails ends the template, if what comes before it has a text. -/
theorem evalParts_of_substitution {stop start : Nat} {text : Text}
    (hc : c.is .templateSubstitution = true)
    (hbefore : evalParts s context c.start start before = .ok text)
    (hfails : evalInside s context c = .error f) :
    evalParts s context stop start (before ++ c :: after) = .error f := by
  induction before generalizing start text with
  -- the text up to the substitution is sliced before its expression is evaluated
  | nil =>
    rw [evalParts] at hbefore
    rw [List.nil_append, evalParts, if_pos hc, hbefore, ok_bind, hfails]
    rfl
  | cons t before ih =>
    rw [evalParts] at hbefore
    rw [List.cons_append, evalParts]
    split at hbefore
    next ht =>
      obtain ⟨piece, hpiece, hbefore⟩ := bind_eq_ok_iff.mp hbefore
      obtain ⟨value, hvalue, hbefore⟩ := bind_eq_ok_iff.mp hbefore
      obtain ⟨shown, hshown, hbefore⟩ := bind_eq_ok_iff.mp hbefore
      obtain ⟨rest, hrest, -⟩ := bind_eq_ok_iff.mp hbefore
      rw [if_pos ht, hpiece, ok_bind, hvalue, ok_bind, hshown, ok_bind, ih hrest]
      rfl
    next ht => rw [if_neg ht, ih hbefore]

end Siblings

/-! ## What a node gives -/

section Nodes

variable {s : Scope} {context : Option Tree} {t : Tree}

/-- A binary operation is on its left side and, if the operator looks at it, on its right side. What
is done with their values gives no failure with a name. -/
theorem eval_of_binary (h : t.is .binaryExpression = true)
    (hsymbol : isBinary (symbolOf t.children) = true) :
    ∃ finish : Value → Value → Result Value, (∀ a b, Unnamed (finish a b))
      ∧ ∀ context, eval s context t = do
        let left ← evalPart s context .left t.children
        if takesRight (symbolOf t.children) left then do
          finish left (← evalPart s context .right t.children)
        else return left := by
  -- `||`, `&&` and `??` return one of their sides, and every other operator combines the two
  cases hchoice : choice? (symbolOf t.children) with
  | some choice =>
    refine ⟨fun _ b => .ok b, fun _ b => unnamed_ok b, fun context => ?_⟩
    rw [eval_of_choice h hchoice]
    simp only [hchoice, takesRight]
    refine bind_congr fun left => ?_
    cases choice.keepsLeft left with
    | true => rfl
    | false => exact (bind_pure _).symm
  | none =>
    rw [isBinary, hchoice, Option.isSome_none, Bool.false_or] at hsymbol
    obtain ⟨op, hop⟩ := Option.isSome_iff_exists.mp hsymbol
    refine ⟨operate s t ((t.child? .left).getD t) ((t.child? .right).getD t) op,
      unnamed_operate _ _ _ op, fun context => ?_⟩
    rw [eval_of_operation h hop]
    simp only [hchoice, hop, takesRight, Option.isSome_some, if_true]

/-- A computed key is the text of the expression inside it. -/
theorem evalKeyOf_of_computed (h : t.is .computedPropertyName = true) :
    evalKeyOf s context t = evalFirst s context t.children >>= textOf := by
  obtain ⟨label, field, start, stop, missing, children⟩ := t
  obtain rfl : label = .kind .computedPropertyName := of_decide_eq_true h
  rw [evalKeyOf.eq_def]
  rfl

/-- A pair writes the value under the key, in this order of evaluation. -/
theorem memberWrites_of_pair (h : t.is .pair = true) :
    memberWrites s t = do
      let key ← evalKey s (some t) .key t.children
      let value ← evalPart s (some t) .value t.children
      return [(.text key, value)] := by
  rw [memberWrites, of_decide_eq_true h]

/-- A shorthand writes what its name stands for under the name itself. -/
theorem memberWrites_of_shorthand (h : t.is .shorthandPropertyIdentifier = true) :
    memberWrites s t = (lookup s none t).map fun v => [(.text (t.text s.source), v)] := by
  rw [memberWrites, of_decide_eq_true h]
  exact bind_ok _ _

/-- A spread writes the members of its value. -/
theorem memberWrites_of_spread (h : t.is .spreadElement = true) :
    memberWrites s t = evalFirst s none t.children >>= spreadWrites s t := by
  rw [memberWrites, of_decide_eq_true h]

/-- A method writes a function under its name; its body is not looked at. -/
theorem memberWrites_of_method (h : t.is .methodDefinition = true) :
    memberWrites s t
      = (evalKey s none .name t.children).map
        fun key => [(.text key, .function (t.text s.source))] := by
  rw [memberWrites, of_decide_eq_true h]
  exact bind_ok _ _

end Nodes

/-! ## Failures of a node -/

/-- A node in a role fails. -/
def FailsAs (s : Scope) (f : Failure) (context : Option Tree) (t : Tree) : Role → Prop
  | .value => eval s context t = .error f
  | .key => evalKeyOf s context t = .error f
  | .member => memberWrites s t = .error f
  | .inside => evalInside s context t = .error f

/-- The member around what is below a node, given the one around the node. -/
def memberBelow (t : Tree) (context : Option Tree) : Option Tree :=
  if t.is .pair then some t else if t.is .object then none else context

/-- A node can have a role: no other member lies between an object and its members. -/
def Fits (context : Option Tree) (t : Tree) : Role → Prop
  | .member => context = none
  | .inside => standsForOperand t .inside = true
  | .value | .key => True

section Failures

variable {s : Scope} {context : Option Tree} {t c : Tree} {before after : List Tree} {f : Failure}
  {role role' : Role}

/-- Only pairs and objects change the member around what is below them. -/
theorem memberBelow_of_is {k : Kind} (h : t.is k = true) (hpair : k ≠ .pair)
    (hobject : k ≠ .object) : memberBelow t context = context := by
  have hlabel : t.label = .kind k := of_decide_eq_true h
  simp [memberBelow, Tree.is, hlabel, hpair, hobject]

/-- What stands for an operand is neither of them. -/
theorem memberBelow_of_standsForOperand (h : standsForOperand t role = true) :
    memberBelow t context = context := by
  cases role with
  | value => exact memberBelow_of_is h nofun nofun
  | key => exact memberBelow_of_is h nofun nofun
  | member => exact memberBelow_of_is h nofun nofun
  | inside =>
    rcases Bool.or_eq_true_iff.mp h with h | h
    · exact memberBelow_of_is h nofun nofun
    · exact memberBelow_of_is h nofun nofun

/-- A list fails as its first item or spread that does. -/
theorem eval_of_failing_item (hkind : t.is .array = true) (hc : isOperand c = true)
    {vs : List Value} (hbefore : evalItems s none before = .ok vs)
    (hchildren : t.children = before ++ c :: after) (hfails : childItems s context c = .error f) :
    eval s context t = .error f := by
  have hvalues := (siblingsAlike_self s (.kind .array) before).items rfl none context
  replace hbefore := hvalues.eq_ok hbefore
  rw [evalItems_eq_collect] at hbefore
  rw [eval_of_array hkind, map_eq_error_iff, evalItems_eq_collect, collect_eq_error_iff]
  exact ⟨before, c, after, hchildren, hc, ⟨vs, hbefore⟩, hfails⟩

/-- What stands for the operand inside it fails if the operand does. -/
theorem failsAs_of_operand (hstands : standsForOperand t role = true) (hfits : Fits context t role)
    (h : evalFirst s (memberBelow t context) t.children = .error f) :
    FailsAs s f context t role := by
  rw [memberBelow_of_standsForOperand hstands] at h
  cases role with
  | value =>
    rw [FailsAs, eval_of_parentheses hstands]
    exact h
  | key =>
    rw [FailsAs, evalKeyOf_of_computed hstands, h]
    rfl
  | member =>
    rw [show context = none from hfits] at h
    rw [FailsAs, memberWrites_of_spread hstands, h]
    rfl
  | inside =>
    rw [FailsAs, evalInside_eq]
    exact h

/-- **A failure is not caught on the way back.** One case for each way down to a child: the children
before it have values, so the node comes to the child, and the result of the child is passed on if
it fails. -/
theorem Step.fails (h : Step s t before c role role')
    (hchildren : t.children = before ++ c :: after) (hfits : Fits context t role)
    (hc : FailsAs s f (memberBelow t context) c role') :
    FailsAs s f context t role := by
  cases h with
  | member hkind hoperand hbefore =>
    rw [writes_eq_collect] at hbefore
    rw [FailsAs, eval_eq_writes hkind, map_eq_error_iff, writes_eq_collect, collect_eq_error_iff]
    exact ⟨before, c, after, hchildren, hoperand, ⟨_, hbefore⟩, hc⟩
  | item hkind hoperand hitem hbefore =>
    rw [FailsAs, memberBelow_of_is hkind nofun nofun] at hc
    refine eval_of_failing_item hkind hoperand hbefore hchildren ?_
    rw [childItems, if_neg (by rw [hitem]; exact Bool.false_ne_true), hc]
    rfl
  | spread hkind hspread hbefore =>
    rw [FailsAs, memberBelow_of_is hkind nofun nofun] at hc
    refine eval_of_failing_item hkind (isOperand_of_spread hspread) hbefore hchildren ?_
    rw [childItems, if_pos hspread, hc]
    rfl
  | substitution hkind hsubstitution hbefore =>
    -- What stands before it has its value in any context.
    have hvalues := (siblingsAlike_self s .fault before).parts rfl none context c.start
      (t.start + 1) c.start (t.start + 1) rfl
    rw [FailsAs, memberBelow_of_is hkind nofun nofun] at hc
    rw [FailsAs, eval_of_template hkind, map_eq_error_iff, hchildren]
    exact evalParts_of_substitution hsubstitution (hvalues.eq_ok hbefore) hc
  | operand hstands hfirst =>
    refine failsAs_of_operand hstands hfits ?_
    rw [evalFirst_eq_withFirst, withFirst_of_isFirst hchildren hfirst]
    exact hc
  | argument hkind hsymbol hfirst =>
    rw [FailsAs, memberBelow_of_is hkind nofun nofun] at hc
    rw [FailsAs, eval_of_unary hkind, if_neg hsymbol, evalPart_eq_withFirst,
      withFirst_of_isFirst hchildren hfirst, hc]
    rfl
  | left hkind hsymbol hfirst =>
    obtain ⟨finish, -, heval⟩ := eval_of_binary hkind hsymbol
    rw [FailsAs, memberBelow_of_is hkind nofun nofun] at hc
    rw [FailsAs, heval, evalPart_eq_withFirst, withFirst_of_isFirst hchildren hfirst, hc]
    rfl
  | right hkind hleft hright hfirst =>
    obtain ⟨finish, -, heval⟩ := eval_of_binary hkind (isBinary_of_takesRight hright)
    have hvalues := (siblingsAlike_self s .fault t.children).part rfl none context .left
    rw [FailsAs, memberBelow_of_is hkind nofun nofun] at hc
    rw [FailsAs, heval, hvalues.eq_ok hleft, ok_bind, if_pos hright, evalPart_eq_withFirst,
      withFirst_of_isFirst hchildren hfirst, hc]
    rfl
  | key hkind hfirst =>
    rw [FailsAs, memberBelow, if_pos hkind] at hc
    rw [FailsAs, memberWrites_of_pair hkind, evalKey_eq_withFirst,
      withFirst_of_isFirst hchildren hfirst, hc]
    rfl
  | value hkind hkey hfirst =>
    have hvalues := (siblingsAlike_self s .fault t.children).key rfl none (some t) .key rfl
    rw [FailsAs, memberBelow, if_pos hkind] at hc
    rw [FailsAs, memberWrites_of_pair hkind, hvalues.eq_ok hkey, ok_bind, evalPart_eq_withFirst,
      withFirst_of_isFirst hchildren hfirst, hc]
    rfl
  | name hkind hfirst =>
    rw [FailsAs, memberBelow_of_is hkind nofun nofun, show context = none from hfits] at hc
    rw [FailsAs, memberWrites_of_method hkind, map_eq_error_iff, evalKey_eq_withFirst,
      withFirst_of_isFirst hchildren hfirst, hc]

/-- Each child is taken for something that it can be. -/
theorem Step.fits (h : Step s t before c role role') : Fits (memberBelow t context) c role' := by
  cases h with
  | member hkind _ _ =>
    have hlabel : t.label = .kind .object := of_decide_eq_true hkind
    simp [Fits, memberBelow, Tree.is, hlabel]
  | spread _ hspread _ => exact Bool.or_eq_true_iff.mpr (.inl hspread)
  | substitution _ hsubstitution _ => exact Bool.or_eq_true_iff.mpr (.inr hsubstitution)
  | _ => exact trivial

/-! ## Where a failure comes from -/

/-- A node in a role fails as one of its children does, to which its evaluation goes on. -/
def FailsBelow (s : Scope) (f : Failure) (context : Option Tree) (t : Tree) (role : Role) : Prop :=
  ∃ before c after role', t.children = before ++ c :: after ∧ Step s t before c role role'
    ∧ FailsAs s f (memberBelow t context) c role'

variable {g : Gap} {name : Text}

/-- What stands for the operand inside it fails as the operand does. -/
theorem failsBelow_of_operand (hstands : standsForOperand t role = true)
    (h : evalFirst s context t.children = .error (.gap g)) :
    FailsBelow s (.gap g) context t role := by
  rw [evalFirst_eq_withFirst] at h
  obtain ⟨before, c, after, hchildren, hfirst, hc⟩ := exists_isFirst h
  refine ⟨before, c, after, .value, hchildren, .operand hstands hfirst, ?_⟩
  rw [FailsAs, memberBelow_of_standsForOperand hstands]
  exact hc

/-- An object fails as its first member that does. -/
theorem failsBelow_of_object (hkind : t.is .object = true)
    (h : eval s context t = .error (.gap g)) : FailsBelow s (.gap g) context t .value := by
  rw [eval_eq_writes hkind, map_eq_error_iff, writes_eq_collect, collect_eq_error_iff] at h
  obtain ⟨before, c, after, hchildren, hoperand, ⟨ws, hws⟩, hc⟩ := h
  rw [← writes_eq_collect] at hws
  exact ⟨before, c, after, .member, hchildren, .member hkind hoperand hws, hc⟩

/-- A list fails as its first item or spread that does. What is spread has a value already if it is
not that which fails. -/
theorem failsBelow_of_array (hname : g.name? = some name) (hkind : t.is .array = true)
    (h : eval s context t = .error (.gap g)) : FailsBelow s (.gap g) context t .value := by
  rw [eval_of_array hkind, map_eq_error_iff, evalItems_eq_collect, collect_eq_error_iff] at h
  obtain ⟨before, c, after, hchildren, hoperand, ⟨vs, hvs⟩, hc⟩ := h
  rw [← evalItems_eq_collect] at hvs
  have hvalues := (siblingsAlike_self s (.kind .array) before).items rfl context none
  have hbelow : memberBelow t context = context := memberBelow_of_is hkind nofun nofun
  rw [childItems] at hc
  split at hc
  -- only an element that is spread can fail by what it evaluates to, and then without a name
  next hspread =>
    refine ⟨before, c, after, .inside, hchildren, .spread hkind hspread (hvalues.eq_ok hvs), ?_⟩
    rw [FailsAs, hbelow]
    exact Unnamed.first (unnamed_spreadItems c) hname hc
  next hitem =>
    rw [Bool.not_eq_true] at hitem
    refine ⟨before, c, after, .value, hchildren, .item hkind hoperand hitem (hvalues.eq_ok hvs), ?_⟩
    rw [FailsAs, hbelow]
    exact map_eq_error_iff.mp hc

/-- A template fails as its first substitution that does, since its texts do not fail with a
name. -/
theorem failsBelow_of_template (hname : g.name? = some name) (hkind : t.is .templateString = true)
    (h : eval s context t = .error (.gap g)) : FailsBelow s (.gap g) context t .value := by
  rw [eval_of_template hkind, map_eq_error_iff] at h
  obtain ⟨before, c, after, hchildren, hsubstitution, ⟨text, htext⟩, hc⟩ :=
    exists_of_evalParts hname h
  have hvalues := (siblingsAlike_self s .fault before).parts rfl context none c.start (t.start + 1)
    c.start (t.start + 1) rfl
  refine ⟨before, c, after, .inside, hchildren,
    .substitution hkind hsubstitution (hvalues.eq_ok htext), ?_⟩
  rw [FailsAs, memberBelow_of_is hkind nofun nofun]
  exact hc

/-- A unary operation fails with a name as its argument does. -/
theorem failsBelow_of_unary (hname : g.name? = some name) (hkind : t.is .unaryExpression = true)
    (h : eval s context t = .error (.gap g)) : FailsBelow s (.gap g) context t .value := by
  rw [eval_of_unary hkind] at h
  split at h
  next => cases h
  next hsymbol =>
    replace h := Unnamed.first (unnamed_operateUnary t _) hname h
    rw [evalPart_eq_withFirst] at h
    obtain ⟨before, c, after, hchildren, hfirst, hc⟩ := exists_isFirst h
    refine ⟨before, c, after, .value, hchildren, .argument hkind hsymbol hfirst, ?_⟩
    rw [FailsAs, memberBelow_of_is hkind nofun nofun]
    exact hc

/-- A binary operation fails with a name as its left side does, or as its right side does if the
operator looks at it. -/
theorem failsBelow_of_binary (hname : g.name? = some name) (hkind : t.is .binaryExpression = true)
    (hsymbol : isBinary (symbolOf t.children) = true)
    (h : eval s context t = .error (.gap g)) : FailsBelow s (.gap g) context t .value := by
  obtain ⟨finish, hfinish, heval⟩ := eval_of_binary hkind hsymbol
  have hbelow : memberBelow t context = context := memberBelow_of_is hkind nofun nofun
  rw [heval] at h
  -- the left side fails, or it has a value and the right side is looked at
  rcases bind_eq_error_iff.mp h with h | ⟨left, hleft, h⟩
  · rw [evalPart_eq_withFirst] at h
    obtain ⟨before, c, after, hchildren, hfirst, hc⟩ := exists_isFirst h
    refine ⟨before, c, after, .value, hchildren, .left hkind hsymbol hfirst, ?_⟩
    rw [FailsAs, hbelow]
    exact hc
  · split at h
    next hright =>
      replace h := Unnamed.first (hfinish left) hname h
      rw [evalPart_eq_withFirst] at h
      obtain ⟨before, c, after, hchildren, hfirst, hc⟩ := exists_isFirst h
      have hvalues := (siblingsAlike_self s .fault t.children).part rfl context none .left
      refine ⟨before, c, after, .value, hchildren,
        .right hkind (hvalues.eq_ok hleft) hright hfirst, ?_⟩
      rw [FailsAs, hbelow]
      exact hc
    next => cases h

/-- A pair fails as its key does, or else as its value does. -/
theorem failsBelow_of_pair (hkind : t.is .pair = true)
    (h : memberWrites s t = .error (.gap g)) : FailsBelow s (.gap g) context t .member := by
  have hbelow : memberBelow t context = some t := if_pos hkind
  rw [memberWrites_of_pair hkind] at h
  rcases bind_eq_error_iff.mp h with h | ⟨key, hkey, h⟩
  · -- the key is evaluated first
    rw [evalKey_eq_withFirst] at h
    obtain ⟨before, c, after, hchildren, hfirst, hc⟩ := exists_isFirst h
    refine ⟨before, c, after, .key, hchildren, .key hkind hfirst, ?_⟩
    rw [FailsAs, hbelow]
    exact hc
  · -- and then the value, once there is a key
    replace h := map_eq_error_iff.mp ((bind_ok _ _).symm.trans h)
    rw [evalPart_eq_withFirst] at h
    obtain ⟨before, c, after, hchildren, hfirst, hc⟩ := exists_isFirst h
    have hvalues := (siblingsAlike_self s .fault t.children).key rfl (some t) none .key rfl
    refine ⟨before, c, after, .value, hchildren,
      .value hkind (hvalues.eq_ok hkey) hfirst, ?_⟩
    rw [FailsAs, hbelow]
    exact hc

/-- A method fails as its name does. -/
theorem failsBelow_of_method (hkind : t.is .methodDefinition = true)
    (h : memberWrites s t = .error (.gap g)) : FailsBelow s (.gap g) none t .member := by
  rw [memberWrites_of_method hkind, map_eq_error_iff, evalKey_eq_withFirst] at h
  obtain ⟨before, c, after, hchildren, hfirst, hc⟩ := exists_isFirst h
  refine ⟨before, c, after, .key, hchildren, .name hkind hfirst, ?_⟩
  rw [FailsAs, memberBelow_of_is hkind nofun nofun]
  exact hc

/-- A node fails as a name that is unknown. -/
def FailsHere (s : Scope) (g : Gap) (context : Option Tree) (t : Tree) (role : Role) : Prop :=
  isLookup s t role = true ∧ s.find? (t.text s.source) = none
    ∧ g = .unresolved (t.text s.source) ((context.getD t).text s.source)

/-- A lookup fails when the name is unknown, and shows the member around it. -/
theorem failsHere_of_lookup (hlookup : isLookup s t role = true)
    (h : lookup s context t = .error (.gap g)) : FailsHere s g context t role := by
  rw [lookup] at h
  split at h
  next => cases h
  next hlack =>
    cases h
    exact ⟨hlookup, hlack, rfl⟩

/-- The value of a node fails with a name: the node is that name, or it goes on to a child that
fails. One case for each form of a node (`Form`); those without operands never fail with a name. -/
theorem failsHere_or_below_of_value (hname : g.name? = some name)
    (h : eval s context t = .error (.gap g)) :
    FailsHere s g context t .value ∨ FailsBelow s (.gap g) context t .value := by
  have hrun := h
  have hform := form_eval s context t
  generalize eval s context t = r at hrun hform
  cases hform with
  | object hkind => exact .inr (failsBelow_of_object hkind h)
  | array hkind => exact .inr (failsBelow_of_array hname hkind h)
  | string _ => exact absurd (map_eq_error_iff.mp hrun) ((unnamed_stringValue t).ne_error hname)
  | template hkind => exact .inr (failsBelow_of_template hname hkind h)
  | number _ => exact absurd (map_eq_error_iff.mp hrun) ((unnamed_numeral _).ne_error hname)
  | bool b => cases hrun
  | null => cases hrun
  | name hkind htext =>
    have hlookup : isLookup s t .value = true :=
      Bool.and_eq_true_iff.mpr ⟨hkind, decide_eq_true htext⟩
    exact .inl (failsHere_of_lookup hlookup hrun)
  | parentheses hkind => exact .inr (failsBelow_of_operand hkind hrun)
  | unary hkind _ => exact .inr (failsBelow_of_unary hname hkind h)
  | choice hkind hchoice =>
    have hsymbol : isBinary (symbolOf t.children) = true := by
      rw [isBinary, hchoice, Option.isSome_some, Bool.true_or]
    exact .inr (failsBelow_of_binary hname hkind hsymbol h)
  | operation hkind hop =>
    have hsymbol : isBinary (symbolOf t.children) = true := by
      rw [isBinary, hop, Option.isSome_some, Bool.or_true]
    exact .inr (failsBelow_of_binary hname hkind hsymbol h)
  | function => cases hrun
  | refused hunnamed => exact absurd hrun ((unnamed_refuse hunnamed).ne_error hname)

/-- Only a computed key fails with a name. -/
theorem failsBelow_of_key (hname : g.name? = some name)
    (h : evalKeyOf s context t = .error (.gap g)) : FailsBelow s (.gap g) context t .key := by
  obtain ⟨label, field, start, stop, missing, children⟩ := t
  rw [evalKeyOf.eq_def] at h
  simp only at h
  split at h
  · exact absurd h ((unnamed_stringValue _).ne_error hname)
  · exact absurd h (((unnamed_numeral _).bind fun _ => unnamed_textOf _).ne_error hname)
  · exact failsBelow_of_operand rfl (Unnamed.first unnamed_textOf hname h)
  · cases h

/-- A member fails with a name: it is a shorthand for that name, or it goes on to a child. -/
theorem failsHere_or_below_of_member (hname : g.name? = some name)
    (h : memberWrites s t = .error (.gap g)) :
    FailsHere s g none t .member ∨ FailsBelow s (.gap g) none t .member := by
  have hrun := h
  rw [memberWrites] at hrun
  split at hrun
  next hlabel => exact .inr (failsBelow_of_pair (decide_eq_true hlabel) h)
  next hlabel =>
    have hlookup : isLookup s t .member = true := decide_eq_true hlabel
    exact .inl (failsHere_of_lookup hlookup (map_eq_error_iff.mp ((bind_ok _ _).symm.trans hrun)))
  next hlabel =>
    refine .inr (failsBelow_of_operand (decide_eq_true hlabel) ?_)
    exact Unnamed.first (unnamed_spreadWrites t) hname hrun
  next hlabel => exact .inr (failsBelow_of_method (decide_eq_true hlabel) h)
  next => exact absurd hrun ((unnamed_refuse rfl).ne_error hname)

/-- **A failure with a name comes from the node itself or from a child** to which the evaluation
goes on. -/
theorem failsHere_or_below (hname : g.name? = some name) (hfits : Fits context t role)
    (h : FailsAs s (.gap g) context t role) :
    FailsHere s g context t role ∨ FailsBelow s (.gap g) context t role := by
  cases role with
  | value => exact failsHere_or_below_of_value hname h
  | key => exact .inr (failsBelow_of_key hname h)
  | member =>
    obtain rfl : context = none := hfits
    exact failsHere_or_below_of_member hname h
  | inside =>
    have hrun : evalInside s context t = .error (.gap g) := h
    rw [evalInside_eq] at hrun
    exact .inr (failsBelow_of_operand hfits hrun)

/-! ## A whole evaluation -/

/-- A name that is unknown fails. -/
theorem FailsHere.fails (hfits : Fits context t role) (h : FailsHere s g context t role) :
    FailsAs s (.gap g) context t role := by
  obtain ⟨hlookup, hlack, rfl⟩ := h
  have hfails : lookup s context t
      = .error (.gap (.unresolved (t.text s.source) ((context.getD t).text s.source))) := by
    simp only [lookup, hlack]
    rfl
  cases role with
  | value =>
    obtain ⟨hkind, htext⟩ := Bool.and_eq_true_iff.mp hlookup
    rw [FailsAs, eval_of_identifier hkind, if_neg (of_decide_eq_true htext)]
    exact hfails
  | member =>
    obtain rfl : context = none := hfits
    rw [FailsAs, memberWrites_of_shorthand hlookup, map_eq_error_iff]
    exact hfails
  | key => cases hlookup
  | inside => cases hlookup

/-- Going down to a child adds its parent to what is around. -/
theorem memberBelow_innermostMember (t : Tree) (outer : List Tree) :
    memberBelow t (innermostMember outer) = innermostMember (t :: outer) :=
  (innermostMember_cons t outer).symm

/-- **An unknown name that is looked up ends the evaluation.** Induction on the steps down to it,
with what is around the node as it goes: at each step back the failure stays the same
(`Step.fails`). -/
theorem LooksUp.fails {path : List Nat} {u : Tree} (h : LooksUp s role t path u)
    (hlack : s.find? (u.text s.source) = none) (outer : List Tree)
    (hfits : Fits (innermostMember outer) t role) :
    FailsAs s (.gap (.unresolved (u.text s.source)
      (((innermostMember (t.around path ++ outer)).getD u).text s.source)))
      (innermostMember outer) t role := by
  induction h generalizing outer with
  | here hlookup => exact FailsHere.fails hfits ⟨hlookup, hlack, rfl⟩
  | @descend role role' t c u before after path hchildren hstep _ ih =>
    have hchild : t.children[before.length]? = some c := by
      rw [hchildren]
      simp
    have hfits' : Fits (memberBelow t (innermostMember outer)) c role' := hstep.fits
    rw [memberBelow_innermostMember] at hfits'
    refine hstep.fails hchildren hfits ?_
    rw [memberBelow_innermostMember, Tree.around, hchild, Option.elim_some, List.append_assoc]
    exact ih hlack (t :: outer) hfits'

/-- **A failure with a name is that of a name that is looked up.** Induction on the tree. -/
theorem exists_looksUp (hname : g.name? = some name) (t : Tree) :
    ∀ (role : Role) (outer : List Tree), Fits (innermostMember outer) t role →
      FailsAs s (.gap g) (innermostMember outer) t role →
      ∃ path u, LooksUp s role t path u ∧ s.find? (u.text s.source) = none
        ∧ g = .unresolved (u.text s.source)
          (((innermostMember (t.around path ++ outer)).getD u).text s.source) := by
  induction t using Tree.below_induction with
  | step t ih =>
    intro role outer hfits h
    rcases failsHere_or_below hname hfits h with ⟨hlookup, hlack, rfl⟩ | hbelow
    · exact ⟨[], t, .here hlookup, hlack, rfl⟩
    · obtain ⟨before, c, after, role', hchildren, hstep, hc⟩ := hbelow
      have hchild : t.children[before.length]? = some c := by
        rw [hchildren]
        simp
      have hfits' : Fits (memberBelow t (innermostMember outer)) c role' := hstep.fits
      rw [memberBelow_innermostMember] at hfits' hc
      obtain ⟨path, u, hlooks, hlack, rfl⟩ :=
        ih c (List.mem_of_getElem? hchild) c c.self_mem_nodes role' (t :: outer) hfits' hc
      refine ⟨before.length :: path, u, .descend hchildren hstep hlooks, hlack, ?_⟩
      rw [Tree.around, hchild, Option.elim_some, List.append_assoc, List.singleton_append]

end Failures

end OptionTypes.Evaluation
