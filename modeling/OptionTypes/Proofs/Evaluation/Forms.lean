import OptionTypes.Evaluation
import OptionTypes.Proofs.Outcome

/-!
# What a node is evaluated from

The kind of a node decides what its value is made from: from members, items or pieces among its
children, from one or two of its parts, from its text, or from nothing at all. `Form` has one
constructor for each of these ways, and `form_eval` says that they are all. So the definition of
`eval` is opened in this module, and a proof about every node goes by the cases of `Form`.

* `form_eval`: the cases.
* `eval_of_object`, `eval_of_array` and so on: the value of a node of a given kind.
* `evalFirst_of_find?` and `evalPart_of_child?`: the sibling that a search among children is for.
-/

namespace OptionTypes.Evaluation

open Syntax Outcome

variable {s : Scope} {context : Option Tree} {t c : Tree} {ts : List Tree} {v : Value}
  {part : Field} {op : Operator}

/-! ## Searches among siblings -/

/-- The first operand, where it is known. Induction on the siblings before it. -/
theorem evalFirst_of_find? (h : ts.find? isOperand = some c) :
    evalFirst s context ts = eval s context c := by
  induction ts with
  | nil => cases h
  | cons t ts ih =>
    rw [evalFirst]
    rw [List.find?_cons] at h
    cases ht : isOperand t with
    | true =>
      rw [ht] at h
      rw [if_pos rfl, Option.some.inj h]
    | false =>
      rw [ht] at h
      rw [if_neg Bool.false_ne_true, ih h]

/-- The sibling that plays a part, where it is known. Induction on the siblings before it. -/
theorem evalPart_of_find? (h : ts.find? (fun c => c.field = some part) = some c) :
    evalPart s context part ts = eval s context c := by
  induction ts with
  | nil => cases h
  | cons t ts ih =>
    rw [evalPart]
    split
    next hfield =>
      obtain rfl : t = c := by simpa [hfield] using h
      rfl
    next hfield => exact ih (by simpa [hfield] using h)

/-- The child that plays a part, where it is known. -/
theorem evalPart_of_child? (h : t.child? part = some c) :
    evalPart s context part t.children = eval s context c := evalPart_of_find? h

/-- What a search gives is the value of one of the siblings. -/
theorem evalPart_eq_ok (h : evalPart s context part ts = .ok v) :
    ∃ c ∈ ts, eval s context c = .ok v := by
  induction ts with
  | nil =>
    rw [evalPart] at h
    cases h
  | cons t ts ih =>
    rw [evalPart] at h
    split at h
    · exact ⟨t, List.mem_cons_self .., h⟩
    · obtain ⟨c, hc, hv⟩ := ih h
      exact ⟨c, List.mem_cons_of_mem _ hc, hv⟩

/-- What a search for an operand gives is the value of one of the siblings. -/
theorem evalFirst_eq_ok (h : evalFirst s context ts = .ok v) :
    ∃ c ∈ ts, eval s context c = .ok v := by
  induction ts with
  | nil =>
    rw [evalFirst] at h
    cases h
  | cons t ts ih =>
    rw [evalFirst] at h
    split at h
    · exact ⟨t, List.mem_cons_self .., h⟩
    · obtain ⟨c, hc, hv⟩ := ih h
      exact ⟨c, List.mem_cons_of_mem _ hc, hv⟩

/-- What is inside of a node is its first operand. -/
theorem evalInside_eq (s : Scope) (context : Option Tree) (t : Tree) :
    evalInside s context t = evalFirst s context t.children := by
  cases t with
  | node label field start stop missing children => rw [evalInside, Tree.children]

/-! ## One kind of node -/

/-- The value of an object is made of its members. -/
theorem eval_of_object (h : t.is .object = true) :
    eval s context t = (evalMembers s [] t.children).map .object := by
  obtain ⟨label, field, start, stop, missing, children⟩ := t
  obtain rfl : label = .kind .object := of_decide_eq_true h
  rw [eval.eq_def]
  exact bind_ok _ _

/-- The value of a list is made of its items. -/
theorem eval_of_array (h : t.is .array = true) :
    eval s context t = (evalItems s context t.children).map .list := by
  obtain ⟨label, field, start, stop, missing, children⟩ := t
  obtain rfl : label = .kind .array := of_decide_eq_true h
  rw [eval.eq_def]
  exact bind_ok _ _

/-- The value of a string is the text that its body denotes. -/
theorem eval_of_string (h : t.is .string = true) :
    eval s context t = ((stringValue s.source t).mapError .escape).map .text := by
  obtain ⟨label, field, start, stop, missing, children⟩ := t
  obtain rfl : label = .kind .string := of_decide_eq_true h
  rw [eval.eq_def]
  exact bind_ok _ _

/-- The value of a template is made of its pieces and substitutions, between its marks. -/
theorem eval_of_template (h : t.is .templateString = true) :
    eval s context t
      = (evalParts s context (t.stop - 1) (t.start + 1) t.children).map .text := by
  obtain ⟨label, field, start, stop, missing, children⟩ := t
  obtain rfl : label = .kind .templateString := of_decide_eq_true h
  rw [eval.eq_def]
  exact bind_ok _ _

/-- The value of a number is read off its text. -/
theorem eval_of_number (h : t.is .number = true) :
    eval s context t = ((Literal.parse (t.text s.source)).mapError .number).map .number := by
  obtain ⟨label, field, start, stop, missing, children⟩ := t
  obtain rfl : label = .kind .number := of_decide_eq_true h
  rw [eval.eq_def]
  exact bind_ok _ _

/-- A name stands for what the symbols say, but for the one word that stands for null. -/
theorem eval_of_identifier (h : t.is .identifier = true) :
    eval s context t
      = if t.text s.source = "undefined" then .ok .null else lookup s context t := by
  obtain ⟨label, field, start, stop, missing, children⟩ := t
  obtain rfl : label = .kind .identifier := of_decide_eq_true h
  rw [eval.eq_def]

/-- Parentheses stand for the operand inside them. -/
theorem eval_of_parentheses (h : t.is .parenthesizedExpression = true) :
    eval s context t = evalFirst s context t.children := by
  obtain ⟨label, field, start, stop, missing, children⟩ := t
  obtain rfl : label = .kind .parenthesizedExpression := of_decide_eq_true h
  rw [eval.eq_def]
  rfl

/-- A unary operation is on its argument, except for the operator that gives null whatever its
argument is. -/
theorem eval_of_unary (h : t.is .unaryExpression = true) :
    eval s context t
      = if symbolOf t.children = "void" then .ok .null
        else evalPart s context .argument t.children
          >>= operateUnary s t (symbolOf t.children) := by
  obtain ⟨label, field, start, stop, missing, children⟩ := t
  obtain rfl : label = .kind .unaryExpression := of_decide_eq_true h
  rw [eval.eq_def]
  rfl

/-- An operator that chooses looks at its right side only if it does not keep the left one. -/
theorem eval_of_choice {choice : Choice} (h : t.is .binaryExpression = true)
    (hchoice : choice? (symbolOf t.children) = some choice) :
    eval s context t
      = evalPart s context .left t.children >>= fun left =>
        if choice.keepsLeft left then .ok left else evalPart s context .right t.children := by
  obtain ⟨label, field, start, stop, missing, children⟩ := t
  obtain rfl : label = .kind .binaryExpression := of_decide_eq_true h
  rw [Tree.children] at hchoice
  rw [eval.eq_def]
  simp only [hchoice]
  rfl

/-- No symbol both chooses a side and operates on both. -/
theorem choice?_of_operator? {symbol : String} (h : operator? symbol = some op) :
    choice? symbol = none := by
  unfold operator? at h
  split at h
  · rfl
  · rfl
  · rfl
  · rfl
  · rfl
  · rfl
  · cases h

/-- An operator of arithmetic or comparison looks at both sides, the left one first. -/
theorem eval_of_operation (h : t.is .binaryExpression = true)
    (hop : operator? (symbolOf t.children) = some op) :
    eval s context t
      = evalPart s context .left t.children >>= fun a =>
        evalPart s context .right t.children >>= fun b =>
        operate s t ((t.child? .left).getD t) ((t.child? .right).getD t) op a b := by
  obtain ⟨label, field, start, stop, missing, children⟩ := t
  obtain rfl : label = .kind .binaryExpression := of_decide_eq_true h
  rw [Tree.children] at hop
  rw [eval.eq_def]
  simp only [choice?_of_operator? hop, hop]
  rfl

/-! ## All kinds of nodes -/

/-- What a node is evaluated from. A failure that is a gap without a name is that of a node of
another kind, or of one with another operator. -/
inductive Form (s : Scope) (context : Option Tree) (t : Tree) : Result Value → Prop where
  | object (hkind : t.is .object = true) :
      Form s context t ((evalMembers s [] t.children).map .object)
  | array (hkind : t.is .array = true) :
      Form s context t ((evalItems s context t.children).map .list)
  | string (hkind : t.is .string = true) :
      Form s context t (((stringValue s.source t).mapError .escape).map .text)
  | template (hkind : t.is .templateString = true) :
      Form s context t ((evalParts s context (t.stop - 1) (t.start + 1) t.children).map .text)
  | number (hkind : t.is .number = true) :
      Form s context t (((Literal.parse (t.text s.source)).mapError .number).map .number)
  | bool (b : Bool) : Form s context t (.ok (.bool b))
  | null : Form s context t (.ok .null)
  | name (hkind : t.is .identifier = true) (htext : t.text s.source ≠ "undefined") :
      Form s context t (lookup s context t)
  | parentheses (hkind : t.is .parenthesizedExpression = true) :
      Form s context t (evalFirst s context t.children)
  | unary (hkind : t.is .unaryExpression = true) (hsymbol : symbolOf t.children ≠ "void") :
      Form s context t
        (evalPart s context .argument t.children >>= operateUnary s t (symbolOf t.children))
  | choice (hkind : t.is .binaryExpression = true) {choice : Choice}
      (hchoice : choice? (symbolOf t.children) = some choice) :
      Form s context t
        (evalPart s context .left t.children >>= fun left =>
          if choice.keepsLeft left then .ok left else evalPart s context .right t.children)
  | operation (hkind : t.is .binaryExpression = true) {op : Operator}
      (hop : operator? (symbolOf t.children) = some op) :
      Form s context t
        (evalPart s context .left t.children >>= fun a =>
          evalPart s context .right t.children >>= fun b =>
          operate s t ((t.child? .left).getD t) ((t.child? .right).getD t) op a b)
  | function : Form s context t (.ok (.function (t.text s.source)))
  | refused {g : Gap} (hname : g.name? = none) : Form s context t (refuse g)

/-- The form of a result is that of an equal one. -/
theorem Form.of_eq {r r' : Result Value} (h : Form s context t r) (heq : r' = r) :
    Form s context t r' := heq ▸ h

/-- **Every node is evaluated in one of these ways.** The cases are the labels that `eval` tells
apart; for a binary operation the symbol decides, and all other labels are refused. -/
theorem form_eval (s : Scope) (context : Option Tree) (t : Tree) :
    Form s context t (eval s context t) := by
  obtain ⟨label, field, start, stop, missing, children⟩ := t
  rw [eval.eq_def]
  simp only
  split
  · exact (Form.object rfl).of_eq (bind_ok _ _)
  · exact (Form.array rfl).of_eq (bind_ok _ _)
  · exact (Form.string rfl).of_eq (bind_ok _ _)
  · exact (Form.template rfl).of_eq (bind_ok _ _)
  · exact (Form.number rfl).of_eq (bind_ok _ _)
  · exact .bool true
  · exact .bool false
  · exact .null
  · exact .null
  · -- a name, unless it is `undefined`
    split
    next => exact .null
    next htext => exact .name rfl htext
  · exact .parentheses rfl
  · -- a unary operation has a value by itself under `void`
    split
    next => exact .null
    next hsymbol => exact .unary rfl hsymbol
  · -- a binary operation chooses a side, operates on both, or has an operator that does neither
    split
    next choice hchoice => exact .choice rfl hchoice
    next =>
      split
      next => exact .refused rfl
      next op hop => exact .operation rfl hop
  · exact .function
  · exact .function
  · exact .function
  · exact .refused rfl

end OptionTypes.Evaluation
