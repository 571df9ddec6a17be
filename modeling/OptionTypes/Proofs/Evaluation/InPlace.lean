import OptionTypes.Proofs.Evaluation.Failure
import OptionTypes.Proofs.Members

/-!
# Objects and lists that are spread in place

An object literal is a sequence of writes: one for each member, and for a spread as many as the
spread object has entries. Its value is what the sequence leaves. So it makes no difference whether
members are written in an object of their own that is spread, or in its place; and the same holds of
the items of lists.

The two ways of writing are two sources, whose trees have the same nodes at different places.

* `writes` is the sequence of writes of an object literal, and `evalMembers_eq` says that its value
  is what they leave.
* `Spliced` relates the tree of a source to that of another one where literals may be written in
  place of their spreads.
* `literals_are_sequences`: both facts.
-/

namespace OptionTypes.Evaluation

open Syntax Outcome

/-! ## The writes of an object literal -/

/-- The writes that a spread stands for: those of the entries of an object. -/
def spreadWrites (s : Scope) (t : Tree) : Value → Result Members
  | .object entries => .ok entries
  | .null => .ok []
  | _ => refuse (.spreadIntoObject (t.text s.source))

/-- The writes of one child of an object. -/
def memberWrites (s : Scope) (t : Tree) : Result Members :=
  match t.label with
  | .kind .pair => do
    let key ← evalKey s (some t) .key t.children
    let value ← evalPart s (some t) .value t.children
    return [(.text key, value)]
  | .kind .shorthandPropertyIdentifier => do
    return [(.text (t.text s.source), ← lookup s none t)]
  | .kind .spreadElement => do spreadWrites s t (← evalFirst s none t.children)
  | .kind .methodDefinition => do
    let key ← evalKey s none .name t.children
    return [(.text key, .function (t.text s.source))]
  | _ => refuse (.member (t.text s.source))

/-- The writes of the children of an object, in their order. -/
def writes (s : Scope) : List Tree → Result Members
  | [] => .ok []
  | t :: ts =>
    if isOperand t then do return (← memberWrites s t) ++ (← writes s ts) else writes s ts

variable {s : Scope} {t t' : Tree} {ts ts' us : List Tree}

/-- A value that is spread into an object is written entry by entry. -/
theorem spreadInto_eq (t : Tree) (before : Members) (v : Value) :
    spreadInto s t before v = (spreadWrites s t v).map before.insertAll := by
  cases v <;> rfl

/-- Other children than the four kinds of members are refused. -/
theorem memberWrites_of_other (hpair : t.label ≠ .kind .pair)
    (hshorthand : t.label ≠ .kind .shorthandPropertyIdentifier)
    (hspread : t.label ≠ .kind .spreadElement) (hmethod : t.label ≠ .kind .methodDefinition) :
    memberWrites s t = refuse (.member (t.text s.source)) := by
  unfold memberWrites
  split
  next h => exact absurd h hpair
  next h => exact absurd h hshorthand
  next h => exact absurd h hspread
  next h => exact absurd h hmethod
  next => rfl

/-- A child of an object performs its writes. -/
theorem evalMember_eq (before : Members) (t : Tree) :
    evalMember s before t = (memberWrites s t).map before.insertAll := by
  cases t with
  | node label field start stop missing children =>
    rw [evalMember.eq_def]
    simp only
    split
    · simp only [memberWrites, Tree.label, Tree.children, map_bind]
      rfl
    · simp only [memberWrites, Tree.label, map_bind]
      rfl
    · simp only [memberWrites, Tree.label, Tree.children, map_bind, spreadInto_eq]
    · simp only [memberWrites, Tree.label, Tree.children, map_bind]
      rfl
    next hpair hshorthand hspread hmethod =>
      have hrefused := memberWrites_of_other (s := s)
        (t := .node label field start stop missing children) hpair hshorthand hspread hmethod
      rw [hrefused]
      rfl

/-- **The members of an object literal are what its writes leave.** Induction on the children: the
ones after a child write into what the child has left, which is one sequence of writes after the
other. -/
theorem evalMembers_eq (before : Members) (ts : List Tree) :
    evalMembers s before ts = (writes s ts).map before.insertAll := by
  induction ts generalizing before with
  | nil =>
    rw [evalMembers]
    rfl
  | cons t ts ih =>
    rw [evalMembers, writes]
    split
    next =>
      rw [evalMember_eq]
      cases memberWrites s t with
      | error e => rfl
      -- to write the first and then the rest is to write both in one go
      | ok first =>
        show evalMembers s (before.insertAll first) ts = _
        rw [ih]
        cases writes s ts with
        | error e => rfl
        | ok rest => exact congrArg Except.ok (Members.insertAll_append before first rest).symm
    next => exact ih before

/-- The value of an object literal, by its writes. -/
theorem eval_eq_writes {context : Option Tree} (h : t.is .object = true) :
    eval s context t = (writes s t.children).map fun ws => .object (Members.insertAll [] ws) := by
  rw [eval_of_object h, evalMembers_eq, map_map]

/-- The value of an object literal. -/
theorem eval_object_iff {context : Option Tree} {field : Option Field} {start stop : Nat}
    {missing : Bool} {v : Value} :
    eval s context (.node (.kind .object) field start stop missing ts) = .ok v
      ↔ ∃ ws ms, writes s ts = .ok ws ∧ Members.Collapsed ws ms ∧ v = .object ms := by
  rw [eval_eq_writes rfl, map_eq_ok_iff]
  refine exists_congr fun ws => ?_
  simp only [Members.collapsed_iff]
  constructor
  · rintro ⟨hws, rfl⟩
    exact ⟨_, hws, rfl, rfl⟩
  · rintro ⟨ms, hws, rfl, rfl⟩
    exact ⟨hws, rfl⟩

/-! ## Literals in the place of their spreads -/

/-- The members of two runs of children: the second run writes into what the first one leaves. -/
theorem evalMembers_append (before : Members) (ts us : List Tree) :
    evalMembers s before (ts ++ us)
      = evalMembers s before ts >>= fun ms => evalMembers s ms us := by
  induction ts generalizing before with
  | nil =>
    rw [evalMembers, ok_bind]
    rfl
  | cons t ts ih =>
    rw [List.cons_append, evalMembers, evalMembers]
    split
    next => simp only [ih, bind_assoc]
    next => exact ih before

/-- The items of two runs of children, one after the other. -/
theorem evalItems_append (context : Option Tree) (ts us : List Tree) :
    evalItems s context (ts ++ us) = do
      let first ← evalItems s context ts
      return first ++ (← evalItems s context us) := by
  induction ts with
  | nil =>
    rw [evalItems, ok_bind, List.nil_append]
    exact (bind_pure _).symm
  | cons t ts ih =>
    rw [List.cons_append, evalItems, evalItems]
    split
    next => simp only [ih, bind_assoc, pure_bind, List.append_assoc]
    next =>
      split
      next => simp only [ih, bind_assoc, pure_bind, List.cons_append]
      next => exact ih

/-- A spread counts among the children of a literal. -/
theorem isOperand_of_spread (h : t.is .spreadElement = true) : isOperand t = true := by
  have hlabel : t.label = .kind .spreadElement := of_decide_eq_true h
  simp [isOperand, Tree.isNamed, Tree.isComment, Tree.is, hlabel]

/-- Whether a child spreads a literal of a kind that has certain children. -/
def Spreads (t : Tree) (k : Kind) (inner : List Tree) : Prop :=
  t.is .spreadElement = true ∧ ∃ field start stop missing,
    t.children.find? isOperand = some (.node (.kind k) field start stop missing inner)

/-- An object that is spread and its members in its place leave the same. -/
theorem evalMember_of_spreads {inner : List Tree} (h : Spreads t .object inner)
    (before : Members) : evalMember s before t = evalMembers s before inner := by
  obtain ⟨hspread, field, start, stop, missing, hfirst⟩ := h
  have hlabel : t.label = .kind .spreadElement := of_decide_eq_true hspread
  rw [evalMember_eq, evalMembers_eq, memberWrites, hlabel]
  simp only
  rw [evalFirst_of_find? hfirst, eval_eq_writes rfl, Tree.children]
  cases writes s inner with
  | error e => rfl
  | ok ws => exact congrArg Except.ok (Members.insertAll_insertAll before ws)

/-- A list that is spread gives its items. -/
theorem evalInside_of_spreads {inner : List Tree} (h : Spreads t .array inner)
    (context : Option Tree) : (evalInside s context t >>= spreadItems s t)
      = evalItems s context inner := by
  obtain ⟨hspread, field, start, stop, missing, hfirst⟩ := h
  rw [evalInside_eq, evalFirst_of_find? hfirst, eval_of_array rfl, Tree.children]
  cases evalItems s context inner with
  | error e => rfl
  | ok vs => rfl

/-- An object that is spread may as well have its members there. -/
theorem evalMembers_of_spreads {inner : List Tree} (h : Spreads t .object inner)
    (before : Members) (ts : List Tree) :
    evalMembers s before (t :: ts) = evalMembers s before (inner ++ ts) := by
  rw [evalMembers, if_pos (isOperand_of_spread h.1), evalMember_of_spreads h, evalMembers_append]

/-- A list that is spread may as well have its items there. -/
theorem evalItems_of_spreads {inner : List Tree} (h : Spreads t .array inner)
    (context : Option Tree) (ts : List Tree) :
    evalItems s context (t :: ts) = evalItems s context (inner ++ ts) := by
  rw [evalItems, if_pos h.1, evalItems_append, ← evalInside_of_spreads h, bind_assoc]

/-! ## Two sources -/

/-- Whether a node is a literal whose items or members can be written in its place. -/
def isCollection (label : Label) : Bool := label = .kind .object || label = .kind .array

/-- The kinds of nodes whose value is made of those of their children, and not of their text. -/
def isCompound : Label → Bool
  | .kind .object | .kind .array | .kind .pair | .kind .spreadElement
  | .kind .parenthesizedExpression | .kind .unaryExpression | .kind .binaryExpression
  | .kind .computedPropertyName | .kind .templateString | .kind .templateSubstitution => true
  | _ => false

/-- Whether a node stands where a key does. -/
def isKeyPart (field : Option Field) : Bool := field = some .key || field = some .name

/-- Whether the value of a node is read off its text. A key is, unless it is computed. -/
def readsText (label : Label) (field : Option Field) : Bool :=
  !isCompound label || isKeyPart field && label ≠ .kind .computedPropertyName

/-- The texts of the pieces of a template. -/
def pieceTexts (source : Bytes) (stop start : Nat) (ts : List Tree) : List Text :=
  (pieces stop start ts).map (pieceText source)

mutual

/-- The trees of two sources with the same nodes, where the second one may have items and members in
place of literals that the first one spreads. -/
inductive Spliced (source source' : Bytes) : Tree → Tree → Prop where
  | node (label : Label) (field : Option Field) (start start' stop stop' : Nat)
      (missing missing' : Bool) {children children' : List Tree}
      (htext : readsText label field = true →
        (Syntax.Tree.node label field start stop missing children).text source
          = (Syntax.Tree.node label field start' stop' missing' children').text source')
      (hpieces : label = .kind .templateString →
        pieceTexts source (stop - 1) (start + 1) children
          = pieceTexts source' (stop' - 1) (start' + 1) children')
      (h : SplicedAll source source' label children children') :
      Spliced source source' (.node label field start stop missing children)
        (.node label field start' stop' missing' children')

/-- The children of a node in both trees. -/
inductive SplicedAll (source source' : Bytes) : Label → List Tree → List Tree → Prop where
  | nil (label : Label) : SplicedAll source source' label [] []
  | keep {label : Label} {c c' : Tree} {cs cs' : List Tree} (hc : Spliced source source' c c')
      (h : SplicedAll source source' label cs cs') :
      SplicedAll source source' label (c :: cs) (c' :: cs')
  /-- Brackets and commas may come and go in a literal. -/
  | drop {label : Label} {c : Tree} {cs cs' : List Tree} (hlabel : isCollection label = true)
      (hc : isOperand c = false) (h : SplicedAll source source' label cs cs') :
      SplicedAll source source' label (c :: cs) cs'
  | add {label : Label} {c : Tree} {cs cs' : List Tree} (hlabel : isCollection label = true)
      (hc : isOperand c = false) (h : SplicedAll source source' label cs cs') :
      SplicedAll source source' label cs (c :: cs')
  /-- A spread literal of the same kind gives way to what is inside. -/
  | splice {k : Kind} {c : Tree} {inner cs cs' : List Tree} (hlabel : isCollection (.kind k) = true)
      (hc : Spreads c k inner) (h : SplicedAll source source' (.kind k) (inner ++ cs) cs') :
      SplicedAll source source' (.kind k) (c :: cs) cs'

end

/-- Results that are the same, or both failures. -/
def Alike {α : Type} (x y : Result α) : Prop := x.toOption = y.toOption

namespace Alike

variable {α β : Type}

/-- A result is alike to itself. -/
theorem refl (x : Result α) : Alike x x := rfl

/-- Alike results go on to alike results, as long as what is done with a value is alike. -/
theorem bind {x y : Result α} {f g : α → Result β} (h : Alike x y) (hf : ∀ a, Alike (f a) (g a)) :
    Alike (x >>= f) (y >>= g) := by
  cases x with
  | error e =>
    cases y with
    | error e' => rfl
    | ok b => cases h
  | ok a =>
    cases y with
    | error e' => cases h
    | ok b =>
      obtain rfl : a = b := Option.some.inj h
      exact hf a

/-- Refusals are alike, whatever they say. -/
theorem refuse (g g' : Gap) : Alike (Evaluation.refuse g : Result α) (Evaluation.refuse g') := rfl

end Alike

section Steps

variable {source source' : Bytes} {symbols : List (Text × Value)} {context context' : Option Tree}

/-- A name of the same text is the same for both sources, whose symbols are the same. -/
theorem alike_lookup (htext : t.text source = t'.text source') :
    Alike (lookup ⟨source, symbols⟩ context t) (lookup ⟨source', symbols⟩ context' t') := by
  unfold lookup
  have hsame : Scope.find? ⟨source, symbols⟩ (t'.text source')
      = Scope.find? ⟨source', symbols⟩ (t'.text source') := rfl
  simp only [htext, hsame]
  cases Scope.find? ⟨source', symbols⟩ (t'.text source') with
  | some v => exact .refl _
  | none => exact .refuse _ _

/-- A value is a number or not, whatever node it belongs to. -/
theorem alike_numberOf (t t' : Tree) (v : Value) :
    Alike (numberOf ⟨source, symbols⟩ t v) (numberOf ⟨source', symbols⟩ t' v) := by
  unfold numberOf
  split
  · exact .refl _
  · exact .refuse _ _

/-- A binary operator depends on two values, and on nodes only for what a refusal shows. -/
theorem alike_operate (whole whole' left left' right right' : Tree) (op : Operator) (a b : Value) :
    Alike (operate ⟨source, symbols⟩ whole left right op a b)
      (operate ⟨source', symbols⟩ whole' left' right' op a b) := by
  unfold operate
  split
  · exact .refl _
  · refine (alike_numberOf left left' a).bind fun m => ?_
    refine (alike_numberOf right right' b).bind fun n => ?_
    split
    · exact .refl _
    · exact .refuse _ _

/-- A unary operator depends on its value in the same way. -/
theorem alike_operateUnary (whole whole' : Tree) (symbol : String) (v : Value) :
    Alike (operateUnary ⟨source, symbols⟩ whole symbol v)
      (operateUnary ⟨source', symbols⟩ whole' symbol v) := by
  unfold operateUnary
  split
  · exact .refl _
  · exact (alike_numberOf whole whole' v).bind fun _ => .refl _
  · exact (alike_numberOf whole whole' v).bind fun _ => .refl _
  · exact .refuse _ _

/-- What is spread into an object depends on the value alone. -/
theorem alike_spreadInto (t t' : Tree) (before : Members) (v : Value) :
    Alike (spreadInto ⟨source, symbols⟩ t before v)
      (spreadInto ⟨source', symbols⟩ t' before v) := by
  unfold spreadInto
  split
  · exact .refl _
  · exact .refl _
  · exact .refuse _ _

/-- What is spread into a list depends on the value alone. -/
theorem alike_spreadItems (t t' : Tree) (v : Value) :
    Alike (spreadItems ⟨source, symbols⟩ t v) (spreadItems ⟨source', symbols⟩ t' v) := by
  unfold spreadItems
  split
  · exact .refl _
  · exact .refl _
  · exact .refuse _ _

/-- A piece of a template depends on its text alone. -/
theorem alike_chunk {start start' stop stop' : Nat}
    (h : pieceText source (start, stop) = pieceText source' (start', stop')) :
    Alike (chunk source start stop) (chunk source' start' stop') := by
  have hchunk : ∀ source start stop, chunk source start stop
      = (Escape.decode (pieceText source (start, stop))).mapError Failure.escape :=
    fun _ _ _ => rfl
  rw [hchunk, hchunk, h]
  exact .refl _

/-! ## What goes through siblings -/

/-- The children of a node in both trees give the same, in every way in which its kind goes through
them. -/
structure SiblingsAlike (source source' : Bytes) (symbols : List (Text × Value)) (label : Label)
    (ts ts' : List Tree) : Prop where
  members : label = .kind .object → ∀ before, Alike (evalMembers ⟨source, symbols⟩ before ts)
    (evalMembers ⟨source', symbols⟩ before ts')
  items : label = .kind .array → ∀ context context',
    Alike (evalItems ⟨source, symbols⟩ context ts) (evalItems ⟨source', symbols⟩ context' ts')
  part : isCollection label = false → ∀ context context' part,
    Alike (evalPart ⟨source, symbols⟩ context part ts)
      (evalPart ⟨source', symbols⟩ context' part ts')
  first : isCollection label = false → ∀ context context',
    Alike (evalFirst ⟨source, symbols⟩ context ts) (evalFirst ⟨source', symbols⟩ context' ts')
  key : isCollection label = false → ∀ context context' part, isKeyPart (some part) = true →
    Alike (evalKey ⟨source, symbols⟩ context part ts)
      (evalKey ⟨source', symbols⟩ context' part ts')
  parts : isCollection label = false → ∀ context context' stop start stop' start',
    pieceTexts source stop start ts = pieceTexts source' stop' start' ts' →
      Alike (evalParts ⟨source, symbols⟩ context stop start ts)
        (evalParts ⟨source', symbols⟩ context' stop' start' ts')
  symbol : isCollection label = false → symbolOf ts = symbolOf ts'

/-- A node gives the same in both trees, in every way to read it. -/
structure NodesAlike (source source' : Bytes) (symbols : List (Text × Value)) (t t' : Tree) :
    Prop where
  value : ∀ context context',
    Alike (eval ⟨source, symbols⟩ context t) (eval ⟨source', symbols⟩ context' t')
  key : isKeyPart t.field = true → ∀ context context',
    Alike (evalKeyOf ⟨source, symbols⟩ context t) (evalKeyOf ⟨source', symbols⟩ context' t')
  member : ∀ before,
    Alike (evalMember ⟨source, symbols⟩ before t) (evalMember ⟨source', symbols⟩ before t')
  inside : isCollection t.label = false → ∀ context context',
    Alike (evalInside ⟨source, symbols⟩ context t) (evalInside ⟨source', symbols⟩ context' t')

variable {label : Label}

/-- Without children there is nothing to differ in. -/
theorem SiblingsAlike.nil (source source' : Bytes) (symbols : List (Text × Value)) (label : Label) :
    SiblingsAlike source source' symbols label [] [] where
  members := by
    intro _ before
    rw [evalMembers, evalMembers]
    exact .refl _
  items := by
    intro _ context context'
    rw [evalItems, evalItems]
    exact .refl _
  part := by
    intro _ context context' part
    rw [evalPart, evalPart]
    exact .refl _
  first := by
    intro _ context context'
    rw [evalFirst, evalFirst]
    exact .refl _
  key := by
    intro _ context context' part _
    rw [evalKey, evalKey]
    exact .refl _
  parts := by
    intro _ context context' stop start stop' start' hpieces
    rw [evalParts, evalParts]
    exact alike_chunk (List.cons.inj hpieces).1
  symbol := fun _ => rfl

/-- Nodes that correspond have the same label. -/
theorem Spliced.label_eq (h : Spliced source source' t t') : t'.label = t.label := by
  cases h
  rfl

/-- Nodes that correspond play the same part. -/
theorem Spliced.field_eq (h : Spliced source source' t t') : t'.field = t.field := by
  cases h
  rfl

/-- Nodes that correspond are of the same kinds. -/
theorem Spliced.is_eq (h : Spliced source source' t t') (k : Kind) : t'.is k = t.is k := by
  rw [Tree.is, Tree.is, h.label_eq]

/-- Nodes that correspond count alike among siblings. -/
theorem Spliced.isOperand_eq (h : Spliced source source' t t') : isOperand t' = isOperand t := by
  unfold isOperand Tree.isNamed Tree.isComment
  rw [h.is_eq, h.label_eq]

/-- Whether a node is a literal of a collection is told by its kind. -/
theorem isCollection_of_is {k : Kind} (h : t.is k = true) :
    isCollection t.label = isCollection (.kind k) := by
  rw [show t.label = .kind k from of_decide_eq_true h]

/-- A sibling that both trees have. Each way of going through siblings has its own equation for the
first of them: it is passed over in both trees, or it is evaluated, and then `ht` answers for it. -/
theorem SiblingsAlike.keep (hc : Spliced source source' t t')
    (ht : NodesAlike source source' symbols t t')
    (h : SiblingsAlike source source' symbols label ts ts') :
    SiblingsAlike source source' symbols label (t :: ts) (t' :: ts') where
  -- Either this sibling is passed over in both trees, or `ht` answers for it; `h` has the rest.
  members := by
    intro hlabel before
    rw [evalMembers, evalMembers, hc.isOperand_eq]
    split
    · exact (ht.member before).bind fun ms => h.members hlabel ms
    · exact h.members hlabel before
  items := by
    intro hlabel context context'
    rw [evalItems, evalItems, hc.is_eq, hc.isOperand_eq]
    split
    next hspread =>
      have hinside : isCollection t.label = false := isCollection_of_is hspread
      refine (ht.inside hinside context context').bind fun v => ?_
      refine (alike_spreadItems t t' v).bind fun first => ?_
      exact (h.items hlabel context context').bind fun _ => .refl _
    next =>
      split
      · refine (ht.value context context').bind fun first => ?_
        exact (h.items hlabel context context').bind fun _ => .refl _
      · exact h.items hlabel context context'
  part := by
    intro hlabel context context' part
    rw [evalPart, evalPart, hc.field_eq]
    split
    · exact ht.value context context'
    · exact h.part hlabel context context' part
  first := by
    intro hlabel context context'
    rw [evalFirst, evalFirst, hc.isOperand_eq]
    split
    · exact ht.value context context'
    · exact h.first hlabel context context'
  key := by
    intro hlabel context context' part hpart
    rw [evalKey, evalKey, hc.field_eq]
    split
    next hfield => exact ht.key (by rw [hfield, hpart]) context context'
    next => exact h.key hlabel context context' part hpart
  parts := by
    intro hlabel context context' stop start stop' start' hpieces
    rw [pieceTexts, pieceTexts, pieces, pieces, hc.is_eq] at hpieces
    rw [evalParts, evalParts, hc.is_eq]
    split
    next hsubstitution =>
      rw [if_pos hsubstitution, if_pos hsubstitution, List.map_cons, List.map_cons] at hpieces
      obtain ⟨hpiece, hpieces⟩ := List.cons.inj hpieces
      have hinside : isCollection t.label = false := isCollection_of_is hsubstitution
      refine (alike_chunk hpiece).bind fun piece => ?_
      refine (ht.inside hinside context context').bind fun value => ?_
      refine (Alike.refl (textOf value)).bind fun text => ?_
      exact (h.parts hlabel context context' stop t.stop stop' t'.stop hpieces).bind
        fun _ => .refl _
    next hother =>
      rw [if_neg hother, if_neg hother] at hpieces
      exact h.parts hlabel context context' stop start stop' start' hpieces
  symbol := by
    intro hlabel
    have hrest := h.symbol hlabel
    unfold symbolOf at hrest ⊢
    rw [List.find?_cons, List.find?_cons, hc.field_eq]
    cases hfield : decide (t.field = some .operator) with
    | true =>
      show t.name = t'.name
      unfold Tree.name
      rw [hc.label_eq]
    | false => exact hrest

/-- In a literal nothing but operands counts. -/
theorem SiblingsAlike.of_collection (hlabel : isCollection label = true)
    (hmembers : label = .kind .object → ∀ before, Alike (evalMembers ⟨source, symbols⟩ before ts)
      (evalMembers ⟨source', symbols⟩ before ts'))
    (hitems : label = .kind .array → ∀ context context',
      Alike (evalItems ⟨source, symbols⟩ context ts) (evalItems ⟨source', symbols⟩ context' ts')) :
    SiblingsAlike source source' symbols label ts ts' where
  members := hmembers
  items := hitems
  part := fun h => absurd (hlabel.symm.trans h) nofun
  first := fun h => absurd (hlabel.symm.trans h) nofun
  key := fun h => absurd (hlabel.symm.trans h) nofun
  parts := fun h => absurd (hlabel.symm.trans h) nofun
  symbol := fun h => absurd (hlabel.symm.trans h) nofun

/-- A bracket or a comma writes nothing. -/
theorem evalMembers_of_not_operand (h : isOperand t = false) (before : Members) (ts : List Tree) :
    evalMembers s before (t :: ts) = evalMembers s before ts := by
  rw [evalMembers, h, if_neg Bool.false_ne_true]

/-- A bracket or a comma is no item. -/
theorem evalItems_of_not_operand (h : isOperand t = false) (context : Option Tree)
    (ts : List Tree) : evalItems s context (t :: ts) = evalItems s context ts := by
  have hspread : ¬t.is .spreadElement = true := by
    intro hspread
    rw [isOperand_of_spread hspread] at h
    cases h
  rw [evalItems, if_neg hspread, h, if_neg Bool.false_ne_true]

/-- A bracket or a comma in the first tree alone. -/
theorem SiblingsAlike.drop (hlabel : isCollection label = true) (hc : isOperand t = false)
    (h : SiblingsAlike source source' symbols label ts ts') :
    SiblingsAlike source source' symbols label (t :: ts) ts' := by
  refine .of_collection hlabel (fun hobject before => ?_) fun harray context context' => ?_
  · rw [evalMembers_of_not_operand hc]
    exact h.members hobject before
  · rw [evalItems_of_not_operand hc]
    exact h.items harray context context'

/-- A bracket or a comma in the second tree alone. -/
theorem SiblingsAlike.add (hlabel : isCollection label = true) (hc : isOperand t' = false)
    (h : SiblingsAlike source source' symbols label ts ts') :
    SiblingsAlike source source' symbols label ts (t' :: ts') := by
  refine .of_collection hlabel (fun hobject before => ?_) fun harray context context' => ?_
  · rw [evalMembers_of_not_operand hc]
    exact h.members hobject before
  · rw [evalItems_of_not_operand hc]
    exact h.items harray context context'

/-- A literal that is spread gives what its children give in its place. -/
theorem SiblingsAlike.splice {k : Kind} {inner : List Tree}
    (hlabel : isCollection (.kind k) = true) (hc : Spreads t k inner)
    (h : SiblingsAlike source source' symbols (.kind k) (inner ++ ts) ts') :
    SiblingsAlike source source' symbols (.kind k) (t :: ts) ts' := by
  refine .of_collection hlabel (fun hobject before => ?_) fun harray context context' => ?_
  · obtain rfl : k = .object := Label.kind.inj hobject
    rw [evalMembers_of_spreads hc]
    exact h.members hobject before
  · obtain rfl : k = .array := Label.kind.inj harray
    rw [evalItems_of_spreads hc]
    exact h.items harray context context'

/-! ## A single node -/

section Node

variable {field : Option Field} {start start' stop stop' : Nat} {missing missing' : Bool}

/-- The value of a node, by its kind. A node that is read off its text has the same text in both
trees (`htext`); of any other one the children answer, and the pieces of a template (`hpieces`). -/
theorem alike_eval_node
    (htext : readsText label field = true →
      (Syntax.Tree.node label field start stop missing ts).text source
        = (Syntax.Tree.node label field start' stop' missing' ts').text source')
    (hpieces : label = .kind .templateString → pieceTexts source (stop - 1) (start + 1) ts
      = pieceTexts source' (stop' - 1) (start' + 1) ts')
    (h : SiblingsAlike source source' symbols label ts ts') :
    Alike (eval ⟨source, symbols⟩ context (.node label field start stop missing ts))
      (eval ⟨source', symbols⟩ context' (.node label field start' stop' missing' ts')) := by
  -- both nodes have one label, so both evaluations take the same branch
  rw [eval.eq_def, eval.eq_def]
  simp only
  split
  · exact (h.members rfl []).bind fun _ => .refl _
  · exact (h.items rfl context context').bind fun _ => .refl _
  · rw [stringValue, stringValue, htext rfl]
    exact .refl _
  · exact (h.parts rfl _ _ _ _ _ _ (hpieces rfl)).bind fun _ => .refl _
  · rw [htext rfl]
    exact .refl _
  · exact .refl _
  · exact .refl _
  · exact .refl _
  · exact .refl _
  · rw [htext rfl]
    split
    · exact .refl _
    · exact alike_lookup (htext rfl)
  · exact h.first rfl context context'
  · rw [h.symbol rfl]
    split
    · exact .refl _
    · refine (h.part rfl context context' .argument).bind fun v => alike_operateUnary _ _ _ v
  · -- the left side is the same, so the same side is chosen
    rw [h.symbol rfl]
    split
    · refine (h.part rfl context context' .left).bind fun left => ?_
      split
      · exact .refl _
      · exact h.part rfl context context' .right
    · split
      · exact .refuse _ _
      · refine (h.part rfl context context' .left).bind fun left => ?_
        refine (h.part rfl context context' .right).bind fun right => ?_
        exact alike_operate _ _ _ _ _ _ _ left right
  · rw [htext rfl]
    exact .refl _
  · rw [htext rfl]
    exact .refl _
  · rw [htext rfl]
    exact .refl _
  · exact .refuse _ _

/-- The key that a node stands for, read off its text or computed. -/
theorem alike_evalKeyOf_node
    (htext : readsText label field = true →
      (Syntax.Tree.node label field start stop missing ts).text source
        = (Syntax.Tree.node label field start' stop' missing' ts').text source')
    (hfield : isKeyPart field = true) (h : SiblingsAlike source source' symbols label ts ts') :
    Alike (evalKeyOf ⟨source, symbols⟩ context (.node label field start stop missing ts))
      (evalKeyOf ⟨source', symbols⟩ context' (.node label field start' stop' missing' ts')) := by
  -- a key that is not computed is read off the text of the node
  have hread : label ≠ .kind .computedPropertyName →
      (Syntax.Tree.node label field start stop missing ts).text source
        = (Syntax.Tree.node label field start' stop' missing' ts').text source' := by
    intro hcomputed
    refine htext ?_
    rw [readsText, hfield, decide_eq_true hcomputed, Bool.and_self, Bool.or_true]
  rw [evalKeyOf.eq_def, evalKeyOf.eq_def]
  simp only
  split
  · rw [stringValue, stringValue, hread (by decide)]
    exact .refl _
  · rw [hread (by decide)]
    exact .refl _
  · exact (h.first rfl context context').bind fun _ => .refl _
  next hcomputed =>
    rw [hread hcomputed]
    exact .refl _

/-- What a node writes as a member. -/
theorem alike_evalMember_node
    (htext : readsText label field = true →
      (Syntax.Tree.node label field start stop missing ts).text source
        = (Syntax.Tree.node label field start' stop' missing' ts').text source')
    (h : SiblingsAlike source source' symbols label ts ts') (before : Members) :
    Alike (evalMember ⟨source, symbols⟩ before (.node label field start stop missing ts))
      (evalMember ⟨source', symbols⟩ before (.node label field start' stop' missing' ts')) := by
  rw [evalMember.eq_def, evalMember.eq_def]
  simp only
  split
  · refine (h.key rfl _ _ .key rfl).bind fun key => ?_
    exact (h.part rfl _ _ .value).bind fun value => .refl _
  · rw [htext rfl]
    exact (alike_lookup (htext rfl)).bind fun _ => .refl _
  · exact (h.first rfl none none).bind fun v => alike_spreadInto _ _ before v
  · rw [htext rfl]
    exact (h.key rfl none none .name rfl).bind fun _ => .refl _
  · exact .refuse _ _

end Node

/-! ## A whole evaluation -/

mutual

/-- Nodes that correspond give the same. Induction on the relation, mutual with the children. -/
theorem nodesAlike_of_spliced (symbols : List (Text × Value)) {t t' : Tree} :
    Spliced source source' t t' → NodesAlike source source' symbols t t'
  | .node label field start start' stop stop' missing missing' htext hpieces h => by
    have hchildren := siblingsAlike_of_spliced symbols h
    refine ⟨fun context context' => alike_eval_node htext hpieces hchildren,
      fun hfield context context' => alike_evalKeyOf_node htext hfield hchildren,
      fun before => alike_evalMember_node htext hchildren before,
      fun hlabel context context' => ?_⟩
    rw [evalInside, evalInside]
    exact hchildren.first hlabel context context'

/-- Children that correspond give the same, one case for each way in which the lists may differ. -/
theorem siblingsAlike_of_spliced (symbols : List (Text × Value)) {label : Label}
    {ts ts' : List Tree} : SplicedAll source source' label ts ts' →
      SiblingsAlike source source' symbols label ts ts'
  | .nil label => .nil source source' symbols label
  | .keep hc h => .keep hc (nodesAlike_of_spliced symbols hc) (siblingsAlike_of_spliced symbols h)
  | .drop hlabel hc h => .drop hlabel hc (siblingsAlike_of_spliced symbols h)
  | .add hlabel hc h => .add hlabel hc (siblingsAlike_of_spliced symbols h)
  | .splice hlabel hc h => .splice hlabel hc (siblingsAlike_of_spliced symbols h)

end

end Steps

/-- **Objects are sequences of writes, and spreads stand for what is inside.** An object literal has
a value exactly when its writes have one: each key once, in the order of the first writes, with the
value of the last one. And a literal has the same value, or none, when at any depth the members of
objects and the items of lists are written in the place of their spreads. -/
theorem literals_are_sequences (source : Bytes) (symbols : List (Text × Value)) :
    (∀ context field start stop missing children v,
      eval ⟨source, symbols⟩ context (.node (.kind .object) field start stop missing children)
          = .ok v
        ↔ ∃ ws ms, writes ⟨source, symbols⟩ children = .ok ws ∧ Members.Collapsed ws ms
          ∧ v = .object ms)
    ∧ ∀ source' t t' context context', Spliced source source' t t' →
        Alike (eval ⟨source, symbols⟩ context t) (eval ⟨source', symbols⟩ context' t') :=
  ⟨fun _ _ _ _ _ _ _ => eval_object_iff,
    fun _ _ _ context context' h => (nodesAlike_of_spliced symbols h).value context context'⟩

/-- An object with a list, both written through spreads. -/
def spreadSource : List Char :=
  ['(', '{', '.', '.', '.', '{', 'a', ':', '[', '.', '.', '.', '[', '1', ']', ']', '}', '}', ')']

/-- The same object without spreads. -/
def plainSource : List Char := ['(', '{', 'a', ':', '[', '1', ']', '}', ')']

/-- The list in `spreadSource`. -/
def spreadList : Tree :=
  .node (.kind .array) (some .value) 8 16 false
    [.ofToken "[" 8 9,
      .ofKind .spreadElement 9 15 [.ofToken "..." 9 12, .ofKind .array 12 15
        [.ofToken "[" 12 13, .ofKind .number 13 14 [], .ofToken "]" 14 15]],
      .ofToken "]" 15 16]

/-- The object in `spreadSource`. -/
def spreadObject : Tree :=
  .ofKind .object 1 18
    [.ofToken "\x7b" 1 2,
      .ofKind .spreadElement 2 17 [.ofToken "..." 2 5, .ofKind .object 5 17
        [.ofToken "\x7b" 5 6,
          .ofKind .pair 6 16 [.node (.kind .propertyIdentifier) (some .key) 6 7 false [],
            .ofToken ":" 7 8, spreadList],
          .ofToken "\x7d" 16 17]],
      .ofToken "\x7d" 17 18]

/-- The list in `plainSource`. -/
def plainItems : Tree :=
  .node (.kind .array) (some .value) 4 7 false
    [.ofToken "[" 4 5, .ofKind .number 5 6 [], .ofToken "]" 6 7]

/-- The object in `plainSource`. -/
def plainObject : Tree :=
  .ofKind .object 1 8
    [.ofToken "\x7b" 1 2,
      .ofKind .pair 2 7 [.node (.kind .propertyIdentifier) (some .key) 2 3 false [],
        .ofToken ":" 3 4, plainItems],
      .ofToken "\x7d" 7 8]

/-- A leaf with the same bytes in both sources. -/
theorem Spliced.leaf {source source' : Bytes} {label : Label} {field : Option Field}
    {start start' stop stop' : Nat} (hlabel : label ≠ .kind .templateString)
    (h : slice source start stop = slice source' start' stop') :
    Spliced source source' (.node label field start stop false [])
      (.node label field start' stop' false []) := by
  refine .node _ _ _ _ _ _ _ _ (fun _ => ?_) (fun htemplate => absurd htemplate hlabel) (.nil _)
  exact congrArg (fun bytes => Text.ofChars (Utf8.decodeLossy bytes)) h

/-- The item of the one list stands in the place of the spread of the other one. -/
theorem spliced_items : Spliced (Utf8.encode spreadSource) (Utf8.encode plainSource) spreadList
    plainItems := by
  refine .node _ _ _ _ _ _ _ _ (fun h => absurd h (by decide)) nofun ?_
  refine .drop rfl rfl (.splice rfl ⟨rfl, none, 12, 15, false, rfl⟩ ?_)
  refine .keep (.leaf nofun (by decide +kernel)) ?_
  refine .keep (.leaf nofun (by decide +kernel)) ?_
  refine .keep (.leaf nofun (by decide +kernel)) ?_
  exact .drop rfl rfl (.nil _)

/-- The members and items of the one object stand in the place of the spreads of the other one. -/
theorem spliced_plainObject :
    Spliced (Utf8.encode spreadSource) (Utf8.encode plainSource) spreadObject plainObject := by
  refine .node _ _ _ _ _ _ _ _ (fun h => absurd h (by decide)) nofun ?_
  refine .drop rfl rfl (.splice rfl ⟨rfl, none, 5, 17, false, rfl⟩ ?_)
  refine .keep (.leaf nofun (by decide +kernel)) (.keep ?_ ?_)
  · refine .node _ _ _ _ _ _ _ _ (fun h => absurd h (by decide)) nofun ?_
    refine .keep (.leaf nofun (by decide +kernel)) ?_
    refine .keep (.leaf nofun (by decide +kernel)) ?_
    exact .keep spliced_items (.nil _)
  · refine .keep (.leaf nofun (by decide +kernel)) ?_
    exact .drop rfl rfl (.nil _)

/-- The objects of two scripts, which have the same value with and without spreads. -/
theorem literals_are_sequences_plainObject :
    let shape : Tree → Label × Option Field × Nat × Nat × Nat :=
      fun t => (t.label, t.field, t.start, t.stop, t.children.length)
    let objectIn : List Char → Option Tree :=
      fun chars => (Dialect.javascript.parse chars).nodes.find? (·.is .object)
    (objectIn spreadSource).map (·.nodes.map shape) = some (spreadObject.nodes.map shape)
      ∧ (objectIn plainSource).map (·.nodes.map shape) = some (plainObject.nodes.map shape)
      ∧ (eval ⟨Utf8.encode spreadSource, []⟩ none spreadObject).toOption.isSome = true
      ∧ Alike (eval ⟨Utf8.encode spreadSource, []⟩ none spreadObject)
        (eval ⟨Utf8.encode plainSource, []⟩ none plainObject) := by
  refine ⟨?_, ?_, ?_, ?_⟩
  · decide +kernel
  · decide +kernel
  · decide +kernel
  · exact (literals_are_sequences _ []).2 _ _ _ none none spliced_plainObject

end OptionTypes.Evaluation
