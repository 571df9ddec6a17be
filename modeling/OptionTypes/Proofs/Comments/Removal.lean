import Mathlib.Data.List.Forall2
import Mathlib.Data.Option.Basic
import OptionTypes.Evaluation
import OptionTypes.Proofs.Tree

/-!
# Trees without some of their comments

Comments may stand between any two tokens, so a tree holds them at any depth, between the members of
an object as well as between an operator and its operand. Taking some of them out leaves all other
nodes as they are: their spans, and so their texts, still refer to the same source. Only the places
of the nodes among their siblings change.

* `Uncommented` relates a tree to what is left of it without some of its comments.
* `Counterparts` relates the nodes of the one to those of the other.
* `Uncommented.child?` and `Uncommented.operands`: both have the same parts and operands.
-/

namespace OptionTypes.Syntax

/-- A comment as grammars give it: a leaf that plays no part in its parent. Every comment in the
tree of a source is one (`wellFormed_parse`). -/
def Tree.isRemark (t : Tree) : Bool := t.isComment && t.children.isEmpty && t.field.isNone

mutual

/-- A tree and what is left of it without some of the comments below it. -/
inductive Uncommented : Tree → Tree → Prop where
  | node (label : Label) (field : Option Field) (start stop : Nat) (missing : Bool)
      {children children' : List Tree} (h : UncommentedAll children children') :
      Uncommented (.node label field start stop missing children)
        (.node label field start stop missing children')

/-- Siblings and what is left of them without some of the comments among and below them. -/
inductive UncommentedAll : List Tree → List Tree → Prop where
  | nil : UncommentedAll [] []
  | drop {c : Tree} {cs cs' : List Tree} (hc : c.isRemark = true) (h : UncommentedAll cs cs') :
      UncommentedAll (c :: cs) cs'
  | keep {c c' : Tree} {cs cs' : List Tree} (hc : Uncommented c c') (h : UncommentedAll cs cs') :
      UncommentedAll (c :: cs) (c' :: cs')

end

namespace Uncommented

variable {t t' : Tree}

theorem label_eq (h : Uncommented t t') : t'.label = t.label := by
  cases h
  rfl

theorem field_eq (h : Uncommented t t') : t'.field = t.field := by
  cases h
  rfl

theorem stop_eq (h : Uncommented t t') : t'.stop = t.stop := by
  cases h
  rfl

theorem start_eq (h : Uncommented t t') : t'.start = t.start := by
  cases h
  rfl

theorem children (h : Uncommented t t') : UncommentedAll t.children t'.children := by
  cases h with
  | node label field start stop missing h => exact h

/-- The text of a node is what its span holds, whatever comments are below it. -/
theorem text_eq (h : Uncommented t t') (source : Bytes) : t'.text source = t.text source := by
  cases h
  rfl

theorem is_eq (h : Uncommented t t') (k : Kind) : t'.is k = t.is k := by
  rw [Tree.is, Tree.is, h.label_eq]

theorem isNamed_eq (h : Uncommented t t') : t'.isNamed = t.isNamed := by
  rw [Tree.isNamed, Tree.isNamed, h.label_eq]

theorem isComment_eq (h : Uncommented t t') : t'.isComment = t.isComment := h.is_eq .comment

theorem isOperand_eq (h : Uncommented t t') :
    Evaluation.isOperand t' = Evaluation.isOperand t := by
  rw [Evaluation.isOperand, Evaluation.isOperand, h.isNamed_eq, h.isComment_eq]

theorem name_eq (h : Uncommented t t') : t'.name = t.name := by
  rw [Tree.name, Tree.name, h.label_eq]

end Uncommented

/-! ## What a comment is not -/

theorem Tree.isComment_of_isRemark {c : Tree} (h : c.isRemark = true) : c.isComment = true := by
  simp only [Tree.isRemark, Bool.and_eq_true] at h
  exact h.1.1

theorem Tree.label_of_isRemark {c : Tree} (h : c.isRemark = true) : c.label = .kind .comment :=
  of_decide_eq_true (c.isComment_of_isRemark h)

theorem Tree.field_of_isRemark {c : Tree} (h : c.isRemark = true) : c.field = none := by
  simp only [Tree.isRemark, Bool.and_eq_true, Option.isNone_iff_eq_none] at h
  exact h.2

theorem Tree.children_of_isRemark {c : Tree} (h : c.isRemark = true) : c.children = [] := by
  simp only [Tree.isRemark, Bool.and_eq_true, List.isEmpty_iff] at h
  exact h.1.2

theorem Tree.field_ne_of_isRemark {c : Tree} (h : c.isRemark = true) (part : Field) :
    c.field ≠ some part := by
  rw [Tree.field_of_isRemark h]
  exact nofun

/-- A comment is of no kind but its own. -/
theorem Tree.is_of_isRemark {c : Tree} (h : c.isRemark = true) {k : Kind} (hk : k ≠ .comment) :
    c.is k = false := by
  rw [Tree.is, Tree.label_of_isRemark h]
  exact decide_eq_false fun heq => hk (Label.kind.inj heq).symm

theorem Tree.isOperand_of_isRemark {c : Tree} (h : c.isRemark = true) :
    Evaluation.isOperand c = false := by
  rw [Evaluation.isOperand, Tree.isComment_of_isRemark h]
  exact Bool.and_false _

/-- What is looked for among siblings is found again, unless it is a comment. -/
theorem UncommentedAll.find? {ts ts' : List Tree} (h : UncommentedAll ts ts') {p : Tree → Bool}
    (hkeep : ∀ c c', Uncommented c c' → p c' = p c) (hdrop : ∀ c, c.isRemark = true → p c = false) :
    Option.Rel Uncommented (ts.find? p) (ts'.find? p) := by
  induction ts generalizing ts' with
  | nil =>
    cases h
    exact .none
  | cons c cs ih =>
    cases h with
    | drop hc h =>
      rw [List.find?_cons_of_neg (by rw [hdrop c hc]; exact Bool.false_ne_true)]
      exact ih h
    | keep hc h =>
      rw [List.find?_cons, List.find?_cons, hkeep _ _ hc]
      cases p c with
      | true => exact .some hc
      | false => exact ih h

/-- The part of a node is found again. -/
theorem UncommentedAll.find?_field {ts ts' : List Tree} (h : UncommentedAll ts ts')
    (part : Field) :
    Option.Rel Uncommented (ts.find? fun c => c.field = some part)
      (ts'.find? fun c => c.field = some part) := by
  refine h.find? ?_ ?_
  · intro c c' hc
    rw [hc.field_eq]
  · intro c hc
    exact decide_eq_false (Tree.field_ne_of_isRemark hc part)

/-- A part that is looked up by its mark is the same part, since comments have no marks. -/
theorem Uncommented.child? {t t' : Tree} (h : Uncommented t t') (part : Field) :
    Option.Rel Uncommented (t.child? part) (t'.child? part) := h.children.find?_field part

/-! ## Which node stands for which -/

/-- A sibling and the one that is left of it. -/
inductive Among : List Tree → List Tree → Tree → Tree → Prop where
  | here {c c' : Tree} {cs cs' : List Tree} (hc : Uncommented c c') (h : UncommentedAll cs cs') :
      Among (c :: cs) (c' :: cs') c c'
  | drop {d c c' : Tree} {cs cs' : List Tree} (hd : d.isRemark = true) (h : Among cs cs' c c') :
      Among (d :: cs) cs' c c'
  | keep {d d' c c' : Tree} {cs cs' : List Tree} (hd : Uncommented d d') (h : Among cs cs' c c') :
      Among (d :: cs) (d' :: cs') c c'

/-- A node of a tree and the one that is left of it in the tree without some comments. -/
inductive Counterparts : Tree → Tree → Tree → Tree → Prop where
  | root {t t' : Tree} (h : Uncommented t t') : Counterparts t t' t t'
  | descend {t t' c c' x x' : Tree} (hc : Among t.children t'.children c c')
      (h : Counterparts c c' x x') : Counterparts t t' x x'

/-- Siblings that stand for each other differ in comments only. -/
theorem Among.uncommented {ts ts' : List Tree} {c c' : Tree} (h : Among ts ts' c c') :
    Uncommented c c' := by
  induction h with
  | here hc _ => exact hc
  | drop _ _ ih => exact ih
  | keep _ _ ih => exact ih

/-- Nodes that stand for each other differ in comments only. -/
theorem Counterparts.uncommented {t t' x x' : Tree} (h : Counterparts t t' x x') :
    Uncommented x x' := by
  induction h with
  | root h => exact h
  | descend _ _ ih => exact ih

/-- What stands below two such nodes stands for each other in the same way. -/
theorem Counterparts.child {t t' x x' c c' : Tree} (h : Counterparts t t' x x')
    (hc : Among x.children x'.children c c') : Counterparts t t' c c' := by
  induction h with
  | root _ => exact .descend hc (.root hc.uncommented)
  | descend hx _ ih => exact .descend hx (ih hc)

/-- A choice of siblings that leaves comments out is the same choice after comments are gone. -/
theorem UncommentedAll.filter {ts ts' : List Tree} (h : UncommentedAll ts ts') {p : Tree → Bool}
    (hkeep : ∀ c c', Uncommented c c' → p c' = p c) (hdrop : ∀ c, c.isRemark = true → p c = false) :
    List.Forall₂ (Among ts ts') (ts.filter p) (ts'.filter p) := by
  induction ts generalizing ts' with
  | nil =>
    cases h
    exact .nil
  | cons c cs ih =>
    cases h with
    | drop hc h =>
      rw [List.filter_cons_of_neg (by rw [hdrop c hc]; exact Bool.false_ne_true)]
      exact (ih h).imp fun _ _ => Among.drop hc
    | keep hc h =>
      have hrest := (ih h).imp fun _ _ => Among.keep hc
      rw [List.filter_cons, List.filter_cons, hkeep _ _ hc]
      cases p c with
      | true => exact .cons (.here hc h) hrest
      | false => exact hrest

/-- The operands of a node are its children that are named and no comments. -/
theorem Tree.operands_eq (t : Tree) : t.operands = t.children.filter Evaluation.isOperand := by
  rw [Tree.operands, Tree.namedChildren, List.filter_filter]
  refine List.filter_congr fun c _ => ?_
  rw [Evaluation.isOperand, Bool.and_comm]

/-- **Comments do not shift the operands.** -/
theorem Uncommented.operands {t t' : Tree} (h : Uncommented t t') :
    List.Forall₂ (Among t.children t'.children) t.operands t'.operands := by
  rw [Tree.operands_eq, Tree.operands_eq]
  refine h.children.filter ?_ ?_
  · intro c c' hc
    exact hc.isOperand_eq
  · intro c hc
    exact Tree.isOperand_of_isRemark hc

/-- Lists that are related element by element are so at every place. -/
theorem rel_getElem? {R : Tree → Tree → Prop} {ts ts' : List Tree} (h : List.Forall₂ R ts ts')
    (i : Nat) : Option.Rel R ts[i]? ts'[i]? := by
  induction h generalizing i with
  | nil => exact .none
  | cons hc _ ih =>
    cases i with
    | zero => exact .some hc
    | succ i => exact ih i

/-! ## All comments out -/

mutual

/-- The tree without any comment. -/
def Tree.bare : Tree → Tree
  | .node label field start stop missing children =>
    .node label field start stop missing (bareAll children)

/-- Siblings without any comment among and below them. -/
def Tree.bareAll : List Tree → List Tree
  | [] => []
  | t :: ts => if t.isRemark then bareAll ts else t.bare :: bareAll ts

end

mutual

/-- A tree without all its comments differs from it in comments only. -/
theorem uncommented_bare : ∀ t : Tree, Uncommented t t.bare
  | .node label field start stop missing children => by
    rw [Tree.bare]
    exact .node label field start stop missing (uncommentedAll_bareAll children)

theorem uncommentedAll_bareAll : ∀ ts : List Tree, UncommentedAll ts (Tree.bareAll ts)
  | [] => .nil
  | t :: ts => by
    rw [Tree.bareAll]
    split
    next hremark => exact .drop hremark (uncommentedAll_bareAll ts)
    next => exact .keep (uncommented_bare t) (uncommentedAll_bareAll ts)

end

end OptionTypes.Syntax
