import OptionTypes.Proofs.Comments.Removal

/-!
# Comments play no part in an evaluation

Every construct reads its children in its own way: the first operand, the part of a given name, all
operands in order, the places between substitutions. Each of these passes over comments, so that
a tree and the tree without some of its comments have the same value or fail in the same way. The
texts in messages are those of spans in the source, which comments are still in.

* `eval_of_uncommented`: the value, or the failure, is the same.
-/

namespace OptionTypes.Evaluation

open Syntax

variable {s : Scope} {t t' : Tree} {ts ts' : List Tree}

/-! ## What messages show -/

theorem symbolOf_of_uncommented (h : UncommentedAll ts ts') : symbolOf ts' = symbolOf ts := by
  have hfound := h.find?_field .operator
  unfold symbolOf
  generalize ts.find? _ = x at hfound ⊢
  generalize ts'.find? _ = x' at hfound ⊢
  cases hfound with
  | none => rfl
  | some hc => exact hc.name_eq

/-- Contexts that show the same text. -/
def SameText (source : Bytes) (context context' : Option Tree) : Prop :=
  context'.map (·.text source) = context.map (·.text source)

/-- A name is looked up by its text. A failure shows the text around it, which stays as well. -/
theorem lookup_of_uncommented {context context' : Option Tree} (h : Uncommented t t')
    (hcontext : SameText s.source context context') :
    lookup s context' t' = lookup s context t := by
  have hshown : (context'.getD t').text s.source = (context.getD t).text s.source := by
    cases context with
    | none =>
      cases context' with
      | none => exact h.text_eq _
      | some c' => cases hcontext
    | some c =>
      cases context' with
      | none => cases hcontext
      | some c' => exact Option.some.inj hcontext
  simp only [lookup, h.text_eq, hshown]

/-- The operand that an operation is about, or the operation itself where the operand is lacking. -/
theorem text_getD_child?_of_uncommented (h : Uncommented t t') (part : Field) (source : Bytes) :
    ((t'.child? part).getD t').text source = ((t.child? part).getD t).text source := by
  have hfound := h.child? part
  generalize t.child? part = x at hfound ⊢
  generalize t'.child? part = x' at hfound ⊢
  cases hfound with
  | none => exact h.text_eq source
  | some hc => exact hc.text_eq source

/-- Failures of an operation show texts of nodes and nothing else of them. -/
theorem operate_congr {whole whole' left left' right right' : Tree}
    (hwhole : whole'.text s.source = whole.text s.source)
    (hleft : left'.text s.source = left.text s.source)
    (hright : right'.text s.source = right.text s.source) (op : Operator) (a b : Value) :
    operate s whole' left' right' op a b = operate s whole left right op a b := by
  simp only [operate, numberOf, hwhole, hleft, hright]

theorem spreadInto_of_uncommented (h : Uncommented t t') (ms : Members) (v : Value) :
    spreadInto s t' ms v = spreadInto s t ms v := by
  unfold spreadInto
  rw [h.text_eq]

theorem spreadItems_of_uncommented (h : Uncommented t t') (v : Value) :
    spreadItems s t' v = spreadItems s t v := by
  unfold spreadItems
  rw [h.text_eq]

/-! ## What goes through siblings -/

/-- Siblings and what is left of them without some comments give the same, in every way to go
through them. -/
structure SiblingsAgree (s : Scope) (ts ts' : List Tree) : Prop where
  part : ∀ {context context' : Option Tree} (f : Field), SameText s.source context context' →
    evalPart s context' f ts' = evalPart s context f ts
  first : ∀ {context context' : Option Tree}, SameText s.source context context' →
    evalFirst s context' ts' = evalFirst s context ts
  key : ∀ {context context' : Option Tree} (f : Field), SameText s.source context context' →
    evalKey s context' f ts' = evalKey s context f ts
  members : ∀ before, evalMembers s before ts' = evalMembers s before ts
  items : ∀ {context context' : Option Tree}, SameText s.source context context' →
    evalItems s context' ts' = evalItems s context ts
  parts : ∀ {context context' : Option Tree} (stop start : Nat),
    SameText s.source context context' →
      evalParts s context' stop start ts' = evalParts s context stop start ts

/-- A node and what is left of it give the same, in every way to read a node. -/
structure NodesAgree (s : Scope) (t t' : Tree) : Prop where
  value : ∀ {context context' : Option Tree}, SameText s.source context context' →
    eval s context' t' = eval s context t
  key : ∀ {context context' : Option Tree}, SameText s.source context context' →
    evalKeyOf s context' t' = evalKeyOf s context t
  member : ∀ before, evalMember s before t' = evalMember s before t
  inside : ∀ {context context' : Option Tree}, SameText s.source context context' →
    evalInside s context' t' = evalInside s context t

/-- A comment is passed over in every way. -/
theorem SiblingsAgree.drop {c : Tree} (hc : c.isRemark = true) (h : SiblingsAgree s ts ts') :
    SiblingsAgree s (c :: ts) ts' := by
  have hoperand : ¬isOperand c = true := by
    rw [Tree.isOperand_of_isRemark hc]
    exact Bool.false_ne_true
  have hkind : ∀ k, k ≠ .comment → ¬c.is k = true := by
    intro k hk
    rw [Tree.is_of_isRemark hc hk]
    exact Bool.false_ne_true
  -- each way through siblings asks for a field, an operand or a kind, and a comment is none of
  -- these
  refine ⟨?_, ?_, ?_, ?_, ?_, ?_⟩
  · intro context context' f hcontext
    rw [evalPart, if_neg (Tree.field_ne_of_isRemark hc f), h.part f hcontext]
  · intro context context' hcontext
    rw [evalFirst, if_neg hoperand, h.first hcontext]
  · intro context context' f hcontext
    rw [evalKey, if_neg (Tree.field_ne_of_isRemark hc f), h.key f hcontext]
  · intro before
    rw [evalMembers, if_neg hoperand, h.members]
  · intro context context' hcontext
    rw [evalItems, if_neg (hkind _ (by decide)), if_neg hoperand, h.items hcontext]
  · intro context context' stop start hcontext
    rw [evalParts, if_neg (hkind _ (by decide)), h.parts stop start hcontext]

/-- Any other sibling is looked at, and gives the same. -/
theorem SiblingsAgree.keep (hc : Uncommented t t') (ht : NodesAgree s t t')
    (h : SiblingsAgree s ts ts') : SiblingsAgree s (t :: ts) (t' :: ts') := by
  refine ⟨?_, ?_, ?_, ?_, ?_, ?_⟩
  · intro context context' f hcontext
    rw [evalPart, evalPart, hc.field_eq, ht.value hcontext, h.part f hcontext]
  · intro context context' hcontext
    rw [evalFirst, evalFirst, hc.isOperand_eq, ht.value hcontext, h.first hcontext]
  · intro context context' f hcontext
    rw [evalKey, evalKey, hc.field_eq, ht.key hcontext, h.key f hcontext]
  · intro before
    rw [evalMembers, evalMembers, hc.isOperand_eq, ht.member]
    simp only [h.members]
  · intro context context' hcontext
    rw [evalItems, evalItems, hc.is_eq, hc.isOperand_eq, ht.inside hcontext, ht.value hcontext,
      h.items hcontext]
    simp only [spreadItems_of_uncommented hc]
  · intro context context' stop start hcontext
    rw [evalParts, evalParts, hc.is_eq, hc.start_eq, hc.stop_eq, ht.inside hcontext,
      h.parts stop start hcontext, h.parts stop t.stop hcontext]

/-! ## A single node -/

section Node

variable {label : Label} {field : Option Field} {start stop : Nat} {missing : Bool}

/-- A node is evaluated by its label and by what its children give, which is the same on both
sides. -/
theorem eval_node (hnode : Uncommented (.node label field start stop missing ts)
      (.node label field start stop missing ts')) (h : SiblingsAgree s ts ts')
    {context context' : Option Tree} (hcontext : SameText s.source context context') :
    eval s context' (.node label field start stop missing ts')
      = eval s context (.node label field start stop missing ts) := by
  have hlookup := lookup_of_uncommented hnode hcontext
  have htext := hnode.text_eq s.source
  have hsymbol : symbolOf ts' = symbolOf ts := symbolOf_of_uncommented hnode.children
  have hname : spokenName (.node label field start stop missing ts')
      = spokenName (.node label field start stop missing ts) := by
    rw [spokenName, spokenName, hnode.name_eq]
  have hstring : stringValue s.source (.node label field start stop missing ts')
      = stringValue s.source (.node label field start stop missing ts) := by
    rw [stringValue, stringValue, htext]
  have hoperate := operate_congr htext (text_getD_child?_of_uncommented hnode .left s.source)
    (text_getD_child?_of_uncommented hnode .right s.source)
  have hunary : ∀ symbol v, operateUnary s (.node label field start stop missing ts') symbol v
      = operateUnary s (.node label field start stop missing ts) symbol v := by
    intro symbol v
    simp only [operateUnary, numberOf, htext]
  -- the children are gone through in one way for each kind of node
  rw [eval.eq_def, eval.eq_def]
  simp only [hsymbol, htext, hname, hstring, hlookup, hoperate, hunary, h.members, h.items hcontext,
    h.parts _ _ hcontext, h.first hcontext, h.part _ hcontext]

theorem evalKeyOf_node (hnode : Uncommented (.node label field start stop missing ts)
      (.node label field start stop missing ts')) (h : SiblingsAgree s ts ts')
    {context context' : Option Tree} (hcontext : SameText s.source context context') :
    evalKeyOf s context' (.node label field start stop missing ts')
      = evalKeyOf s context (.node label field start stop missing ts) := by
  have htext := hnode.text_eq s.source
  have hstring : stringValue s.source (.node label field start stop missing ts')
      = stringValue s.source (.node label field start stop missing ts) := by
    rw [stringValue, stringValue, htext]
  rw [evalKeyOf.eq_def, evalKeyOf.eq_def]
  simp only [htext, hstring, h.first hcontext]

theorem evalMember_node (hnode : Uncommented (.node label field start stop missing ts)
      (.node label field start stop missing ts')) (h : SiblingsAgree s ts ts')
    (before : Members) : evalMember s before (.node label field start stop missing ts')
      = evalMember s before (.node label field start stop missing ts) := by
  have htext := hnode.text_eq s.source
  have hnone : SameText s.source none none := rfl
  have hlookup := lookup_of_uncommented hnode hnone
  -- the context of a member is the member itself, which shows the same text
  have hself : SameText s.source (some (.node label field start stop missing ts))
      (some (.node label field start stop missing ts')) := congrArg some htext
  rw [evalMember.eq_def, evalMember.eq_def]
  simp only [htext, hlookup, h.key _ hself, h.part _ hself, h.key _ hnone, h.first hnone,
    spreadInto_of_uncommented hnode]

/-- A node agrees with its counterpart in all that is asked of it, if its children do. -/
theorem nodesAgree_node (hnode : Uncommented (.node label field start stop missing ts)
      (.node label field start stop missing ts')) (h : SiblingsAgree s ts ts') :
    NodesAgree s (.node label field start stop missing ts)
      (.node label field start stop missing ts') where
  value := eval_node hnode h
  key := evalKeyOf_node hnode h
  member := evalMember_node hnode h
  inside := by
    intro context context' hcontext
    rw [evalInside, evalInside, h.first hcontext]

end Node

/-! ## A whole evaluation -/

mutual

/-- **Comments below a node do not change what it gives.** -/
theorem nodesAgree_of_uncommented (s : Scope) :
    ∀ (t : Tree) {t' : Tree}, Uncommented t t' → NodesAgree s t t'
  | .node _ _ _ _ _ children, _, hnode => by
    cases hnode with
    | node _ _ _ _ _ h =>
      exact nodesAgree_node (.node _ _ _ _ _ h) (siblingsAgree_of_uncommented s children h)

/-- Siblings agree with those that are left of them. A comment among them is passed over, and any
other one has a counterpart. -/
theorem siblingsAgree_of_uncommented (s : Scope) :
    ∀ (ts : List Tree) {ts' : List Tree}, UncommentedAll ts ts' → SiblingsAgree s ts ts'
  | [], _, h => by
    cases h
    exact ⟨fun _ _ => rfl, fun _ => rfl, fun _ _ => rfl, fun _ => rfl, fun _ => rfl,
      fun _ _ _ => rfl⟩
  | t :: ts, _, h => by
    cases h with
    | drop hc h => exact (siblingsAgree_of_uncommented s ts h).drop hc
    | keep hc h =>
      exact .keep hc (nodesAgree_of_uncommented s t hc) (siblingsAgree_of_uncommented s ts h)

end

/-- **Comments below a node do not change its evaluation.** -/
theorem eval_of_uncommented (s : Scope) (t : Tree) {t' : Tree} {context context' : Option Tree}
    (h : Uncommented t t') (hcontext : SameText s.source context context') :
    eval s context' t' = eval s context t := (nodesAgree_of_uncommented s t h).value hcontext

end OptionTypes.Evaluation
