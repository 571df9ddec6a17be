import OptionTypes.Proofs.Evaluation.Failure
import OptionTypes.Proofs.Grammar.Cursor
import OptionTypes.Syntax.Program

/-!
# What readers give

A tree is intact if each of its nodes has all that it is evaluated by, and it has no comments yet:
those are put in after reading. Every rule of the grammar gives intact trees, given that the goals
below it do; a rule that reads an expression gives an operand besides, since some nodes are
evaluated by the operand inside.

* `Yields` says what every result of a reader is like, with one lemma for each way to combine
  readers.
* `Goal.Post` says what the trees of a goal are like, and `Grammar.Plain` that a grammar without
  types keeps to it.

A rule that goes on in the same way after each of several alternatives has the rest of it as a local
definition. The proofs about such a rule begin with what that rest gives (`hfinish`), and then take
the alternatives one by one.
-/

namespace OptionTypes.Syntax

open Evaluation (isComplete isOperand partsOf holdsOperand)

/-! ## Intact trees -/

/-- Whether a node of a kind may have any children, and is no comment. -/
def isFree (k : Kind) : Bool := (partsOf k).isEmpty && !holdsOperand k && decide (k ≠ .comment)

/-- The same of a label. -/
def isFreeLabel : Label → Bool
  | .kind k => isFree k
  | _ => true

/-- A tree without comments each node of which has all that it is evaluated by. -/
def Intact (t : Tree) : Prop := ∀ u ∈ t.nodes, isComplete u = true ∧ u.isComment = false

/-- Several such trees. -/
def AllIntact (ts : List Tree) : Prop := ∀ t ∈ ts, Intact t

/-- Such a tree that may be an operand. -/
structure IntactOperand (t : Tree) : Prop where
  intact : Intact t
  isOperand : isOperand t = true

/-- A tree is intact if its root is complete and no comment, and the trees below it are intact: the
form in which rules build it. -/
theorem intact_iff {t : Tree} :
    Intact t ↔ (isComplete t = true ∧ t.isComment = false) ∧ AllIntact t.children :=
  Tree.forall_mem_nodes_iff

@[simp] theorem allIntact_nil : AllIntact [] := nofun

@[simp] theorem allIntact_cons {t : Tree} {ts : List Tree} :
    AllIntact (t :: ts) ↔ Intact t ∧ AllIntact ts := List.forall_mem_cons

@[simp] theorem allIntact_append {ts us : List Tree} :
    AllIntact (ts ++ us) ↔ AllIntact ts ∧ AllIntact us := List.forall_mem_append

@[simp] theorem isComplete_withField (f : Field) (t : Tree) :
    isComplete (t.withField f) = isComplete t := by
  cases t
  rfl

@[simp] theorem isComment_withField (f : Field) (t : Tree) :
    (t.withField f).isComment = t.isComment := by
  cases t
  rfl

@[simp] theorem field_withField (f : Field) (t : Tree) : (t.withField f).field = some f := by
  cases t
  rfl

@[simp] theorem children_withField (f : Field) (t : Tree) :
    (t.withField f).children = t.children := by
  cases t
  rfl

/-- The mark of a place says nothing about the node itself. -/
@[simp] theorem intact_withField {f : Field} {t : Tree} : Intact (t.withField f) ↔ Intact t := by
  rw [intact_iff, intact_iff, isComplete_withField, isComment_withField, children_withField]

@[simp] theorem allIntact_map_withField {f : Field} {ts : List Tree} :
    AllIntact (ts.map fun t => t.withField f) ↔ AllIntact ts := by
  simp [AllIntact]

/-- A node that may have any children is intact if they are. -/
theorem intact_of_isFreeLabel {t : Tree} (hfree : isFreeLabel t.label = true)
    (h : AllIntact t.children) : Intact t := by
  have hself : isComplete t = true ∧ t.isComment = false := by
    cases t with
    | node label field start stop missing children =>
      cases label with
      | kind k =>
        have hkind : isFree k = true := hfree
        simp only [isFree, Bool.and_eq_true, Bool.not_eq_true', List.isEmpty_iff,
          decide_eq_true_eq] at hkind
        obtain ⟨⟨hparts, hholds⟩, hcomment⟩ := hkind
        refine ⟨?_, ?_⟩
        · simp only [isComplete, Tree.label, hparts, hholds, List.all_nil, Bool.not_false,
            Bool.true_or, Bool.and_self]
        · refine decide_eq_false fun hlabel => hcomment ?_
          exact Label.kind.inj hlabel
      | token text => exact ⟨rfl, rfl⟩
      | fault => exact ⟨rfl, rfl⟩
  exact intact_iff.mpr ⟨hself, h⟩

/-- A node that is given another kind stays intact if that kind has no demands; its children are
those it had. -/
theorem Intact.withKind {t : Tree} {k : Kind} (hfree : isFree k = true) (h : Intact t) :
    Intact (t.withKind k) := by
  have hbelow := (intact_iff.mp h).2
  cases t with
  | node label field start stop missing children => exact intact_of_isFreeLabel hfree hbelow

/-- A node of a kind without demands is intact over intact children. -/
theorem intact_branch {k : Kind} {ts : List Tree} (hfree : isFree k = true) (h : AllIntact ts) :
    Intact (Reader.branch k ts) := intact_of_isFreeLabel hfree h

theorem intact_branchTo {k : Kind} {ts : List Tree} {stop : Nat} (hfree : isFree k = true)
    (h : AllIntact ts) : Intact (Reader.branchTo k ts stop) := intact_of_isFreeLabel hfree h

/-- Such a node is an operand too, since it is no comment. -/
theorem operand_branch {k : Kind} {ts : List Tree} (hfree : isFree k = true) (h : AllIntact ts) :
    IntactOperand (Reader.branch k ts) where
  intact := intact_branch hfree h
  isOperand := by
    have hcomment : k ≠ .comment := by
      rintro rfl
      cases hfree
    have hlabel : (Reader.branch k ts).isComment = false :=
      decide_eq_false fun heq => hcomment (Label.kind.inj heq)
    rw [Evaluation.isOperand, hlabel]
    rfl

/-- A node that must have some parts is intact if it has them. -/
theorem operand_of_parts {k : Kind} {ts : List Tree} (hholds : holdsOperand k = false)
    (hcomment : (Reader.branch k ts).isComment = false)
    (hparts : ((partsOf k).all fun f => ts.any fun c => c.field = some f) = true)
    (h : AllIntact ts) : IntactOperand (Reader.branch k ts) where
  intact := by
    have hcomplete : isComplete (Reader.branch k ts) = true := by
      show (((partsOf k).all fun f => ts.any fun c => c.field = some f)
        && (!holdsOperand k || ts.any Evaluation.isOperand)) = true
      rw [hparts, hholds]
      rfl
    exact intact_iff.mpr ⟨⟨hcomplete, hcomment⟩, h⟩
  isOperand := by
    rw [Evaluation.isOperand, hcomment]
    rfl

/-- A node that stands for the operand inside is intact if it has one. -/
theorem operand_of_holds {k : Kind} {ts : List Tree} (hparts : partsOf k = [])
    (hcomment : (Reader.branch k ts).isComment = false) (hop : ∃ t ∈ ts, isOperand t = true)
    (h : AllIntact ts) : IntactOperand (Reader.branch k ts) where
  intact := by
    have hany : ts.any isOperand = true := List.any_eq_true.mpr hop
    have hcomplete : isComplete (Reader.branch k ts) = true := by
      show (((partsOf k).all fun f => ts.any fun c => c.field = some f)
        && (!holdsOperand k || ts.any Evaluation.isOperand)) = true
      rw [hparts, hany, Bool.or_true]
      rfl
    exact intact_iff.mpr ⟨⟨hcomplete, hcomment⟩, h⟩
  isOperand := by
    rw [Evaluation.isOperand, hcomment]
    rfl

/-- Three dots and an operand. -/
theorem operand_spread {dots t : Tree} (hdots : Intact dots) (ht : IntactOperand t) :
    IntactOperand (Reader.branch .spreadElement [dots, t]) := by
  refine operand_of_holds rfl rfl ⟨t, by simp, ht.isOperand⟩ ?_
  simp [hdots, ht.intact]

/-- A node that stands for the operand between its first child and its last. -/
theorem operand_between {k : Kind} {opening closing : Tree} {inside : List Tree}
    (hparts : partsOf k = []) (hcomment : ∀ ts, (Reader.branch k ts).isComment = false)
    (hopening : Intact opening) (hclosing : Intact closing) (hinside : AllIntact inside)
    (hop : ∃ t ∈ inside, isOperand t = true) :
    IntactOperand (Reader.branch k (opening :: inside ++ [closing])) := by
  obtain ⟨t, ht, hoperand⟩ := hop
  refine operand_of_holds hparts (hcomment _) ⟨t, by simp [ht], hoperand⟩ ?_
  simp [hopening, hinside, hclosing]

/-! ## Results of readers -/

/-- Whatever a reader gives has a property, and the cursor after it is as tidy as the one before. -/
def Yields {α : Type} (P : α → Prop) (r : Reader α) : Prop :=
  ∀ c x d, r c = .ok (x, d) → P x ∧ (c.Tidy → d.Tidy)

/-- A reader whose result does not matter: it looks ahead, or passes comments. -/
class Keeps {α : Type} (r : Reader α) : Prop where
  tidy : ∀ c x d, r c = .ok (x, d) → c.Tidy → d.Tidy

section Combinators

variable {α β : Type} {P Q : α → Prop} {R : β → Prop}

/-- What is given without reading has the property if the value has it. -/
theorem yields_pure {x : α} (h : P x) : Yields P (pure x) := by
  intro c y d hy
  cases hy
  exact ⟨h, id⟩

/-- A reader that fails gives nothing that would have to have the property. -/
theorem yields_fail : Yields P Reader.fail := nofun

/-- A reader whose results have a property gives results with any weaker one. -/
theorem Yields.mono {r : Reader α} (hr : Yields Q r) (h : ∀ x, Q x → P x) : Yields P r := by
  intro c x d hx
  obtain ⟨hpost, htidy⟩ := hr c x d hx
  exact ⟨h x hpost, htidy⟩

/-- The second reader may use what the first one gives. The cursor stays tidy through both. -/
theorem Yields.bind {r : Reader α} {f : α → Reader β} (hr : Yields P r)
    (hf : ∀ x, P x → Yields R (f x)) : Yields R (r >>= f) := by
  intro c y e h
  have hrun : (r c >>= fun p => f p.1 p.2) = .ok (y, e) := h
  obtain ⟨⟨x, d⟩, hx, hy⟩ := Outcome.bind_eq_ok_iff.mp hrun
  obtain ⟨hpost, htidy⟩ := hr c x d hx
  obtain ⟨hpost', htidy'⟩ := hf x hpost d y e hy
  exact ⟨hpost', fun hc => htidy' (htidy hc)⟩

/-- What does not depend on a result needs nothing about it. -/
theorem Yields.next {r : Reader α} [hr : Keeps r] {f : α → Reader β}
    (hf : ∀ x, Yields R (f x)) : Yields R (r >>= f) := by
  have hany : Yields (fun _ => True) r := fun c x d h => ⟨trivial, hr.tidy c x d h⟩
  exact hany.bind fun x _ => hf x

/-- A choice between two readers gives what both of them give. -/
theorem Yields.ite {c : Prop} [Decidable c] {r r' : Reader α} (hr : Yields P r)
    (hr' : Yields P r') : Yields P (if c then r else r') := by
  split
  · exact hr
  · exact hr'

/-- The other branch is never taken. -/
theorem Yields.skip {c : Prop} [Decidable c] {r r' : Reader α} (hc : ¬c) (hr' : Yields P r') :
    Yields P (if c then r else r') := by
  rw [if_neg hc]
  exact hr'

/-- Of two readers one is tried after the other has failed, from the same cursor. -/
theorem Yields.either {r r' : Reader α} (hr : Yields P r) (hr' : Yields P r') :
    Yields P (Reader.either r r') := by
  intro c x d h
  unfold Reader.either at h
  split at h
  next p hp =>
    cases h
    -- the first one has read
    exact hr c x d hp
  next =>
    split at h
    next p hp =>
      cases h
      -- the first one has failed, and the second one began where the first did
      exact hr' c x d hp
    next => cases h

instance : Keeps (pure x : Reader α) := ⟨fun c y d h hc => by cases h; exact hc⟩

instance {r : Reader α} {f : α → Reader β} [hr : Keeps r] [hf : ∀ x, Keeps (f x)] :
    Keeps (r >>= f) where
  tidy := by
    intro c y e h hc
    have hrun : (r c >>= fun p => f p.1 p.2) = .ok (y, e) := h
    obtain ⟨⟨x, d⟩, hx, hy⟩ := Outcome.bind_eq_ok_iff.mp hrun
    exact (hf x).tidy d y e hy (hr.tidy c x d hx hc)

instance {c : Prop} [Decidable c] {r r' : Reader α} [hr : Keeps r] [hr' : Keeps r'] :
    Keeps (if c then r else r') := by
  split
  · exact hr
  · exact hr'

instance {r : Reader α} : Keeps r.succeeds where
  tidy := by
    intro c x d h hc
    unfold Reader.succeeds at h
    split at h
    next =>
      cases h
      exact hc
    next =>
      cases h
      exact hc

end Combinators

/-! ## Looking ahead -/

instance : Keeps Reader.ahead := ⟨fun c x d h hc => by cases h; exact hc⟩

instance : Keeps Reader.behind := ⟨fun c x d h hc => by cases h; exact hc⟩

instance : Keeps Reader.offset := ⟨fun c x d h hc => by cases h; exact hc⟩

instance (s : Semicolon.Setting) : Keeps (Reader.endsHere s) :=
  ⟨fun c x d h hc => by cases h; exact hc⟩

instance (m : String) : Keeps (Reader.atMark m) := by
  unfold Reader.atMark
  infer_instance

instance (w : String) : Keeps (Reader.atWord w) := by
  unfold Reader.atWord
  infer_instance

instance : Keeps Reader.atAnyWord := by
  unfold Reader.atAnyWord
  infer_instance

instance : Keeps Pattern.atDestructuring := by
  unfold Pattern.atDestructuring
  infer_instance

instance (G : Grammar) : Keeps (Callable.atSignature G) := by
  unfold Callable.atSignature
  infer_instance

instance (G : Grammar) (x : Context) : Keeps (G.endsHere x) := by
  unfold Grammar.endsHere
  infer_instance

instance (G : Grammar) (w : String) : Keeps (Module.atTypeOnly G w) := by
  unfold Module.atTypeOnly
  infer_instance

/-- The place of a missing semicolon comes after some comments. -/
instance (s : Semicolon.Setting) : Keeps (Reader.passMissing s) where
  tidy := by
    intro c x d h hc
    unfold Reader.passMissing at h
    split at h
    next p hp =>
      cases h
      exact hc.of_place? hp
    next =>
      cases h
      exact hc

/-- One tree as a list of trees. -/
theorem Yields.single {r : Reader Tree} (hr : Yields Intact r) :
    Yields AllIntact (do return [← r]) :=
  hr.bind fun _ ht => yields_pure (allIntact_cons.mpr ⟨ht, allIntact_nil⟩)

/-- A tree and the trees after it. -/
theorem Yields.cons {r : Reader Tree} {rs : Reader (List Tree)} (hr : Yields Intact r)
    (hrs : Yields AllIntact rs) : Yields AllIntact (do return (← r) :: (← rs)) :=
  hr.bind fun _ ht => hrs.bind fun _ hts => yields_pure (allIntact_cons.mpr ⟨ht, hts⟩)

/-- A tree that is marked as a part of another one. -/
theorem Yields.withField {r : Reader Tree} (hr : Yields Intact r) (f : Field) :
    Yields Intact (do return (← r).withField f) :=
  hr.bind fun _ ht => yields_pure (intact_withField.mpr ht)

/-- An operand is intact. -/
theorem Yields.intact {r : Reader Tree} (hr : Yields IntactOperand r) : Yields Intact r :=
  hr.mono fun _ ht => ht.intact

/-! ## Leaves -/

/-- A leaf has no children; the cursor behind it has passed some blanks and then its text. -/
theorem yields_leaf {label : Label} (hfree : isFreeLabel label = true) (n : Nat) :
    Yields Intact (Reader.leaf label n) := by
  intro c t d h
  cases h
  exact ⟨intact_of_isFreeLabel hfree allIntact_nil, fun hc => hc.skip.advance n⟩

/-- A leaf that begins at once, with no blanks before it. -/
theorem yields_leafHere {label : Label} (hfree : isFreeLabel label = true) (n : Nat) :
    Yields Intact (Reader.leafHere label n) := by
  intro c t d h
  cases h
  exact ⟨intact_of_isFreeLabel hfree allIntact_nil, fun hc => hc.advance n⟩

/-- A leaf of a kind is an operand. -/
theorem yields_leaf_kind {k : Kind} (hfree : isFree k = true) (n : Nat) :
    Yields IntactOperand (Reader.leaf (.kind k) n) := by
  intro c t d h
  cases h
  have hcomment : k ≠ .comment := by
    rintro rfl
    cases hfree
  refine ⟨⟨intact_of_isFreeLabel hfree allIntact_nil, ?_⟩, fun hc => hc.skip.advance n⟩
  have hlabel : decide (Label.kind k = .kind .comment) = false :=
    decide_eq_false fun heq => hcomment (Label.kind.inj heq)
  show (true && !decide (Label.kind k = .kind .comment)) = true
  rw [hlabel]
  rfl

/-- A mark is a leaf, or is not there. -/
theorem yields_mark (m : String) : Yields Intact (Reader.mark m) := by
  unfold Reader.mark
  exact .next fun _ => .ite (yields_leaf rfl _) yields_fail

/-- A keyword is a leaf, or is not there. -/
theorem yields_keyword (w : String) : Yields Intact (Reader.keyword w) := by
  unfold Reader.keyword
  exact .next fun _ => .ite (yields_leaf rfl _) yields_fail

theorem yields_part (m : String) : Yields Intact (Reader.part m) := by
  unfold Reader.part
  exact .next fun _ => .ite (yields_leaf rfl _) yields_fail

theorem yields_mark? (m : String) : Yields AllIntact (Reader.mark? m) := by
  unfold Reader.mark?
  exact .next fun _ => .ite (yields_mark m).single (yields_pure allIntact_nil)

theorem yields_keyword? (w : String) : Yields AllIntact (Reader.keyword? w) := by
  unfold Reader.keyword?
  exact .next fun _ => .ite (yields_keyword w).single (yields_pure allIntact_nil)

/-- A word that is a name is an operand of the kind asked for. -/
theorem yields_anyWord {k : Kind} (hfree : isFree k = true) :
    Yields IntactOperand (Reader.anyWord k) := by
  unfold Reader.anyWord
  exact .next fun _ => .ite yields_fail (yields_leaf_kind hfree _)

/-! ## Ends of statements -/

/-- The end of a statement is a semicolon, or nothing where none is needed. -/
theorem yields_semicolon (s : Semicolon.Setting) : Yields AllIntact (Reader.semicolon s) := by
  unfold Reader.semicolon
  exact .next fun _ => .ite (yields_pure allIntact_nil) (yields_mark ";").single

/-- A statement with its end is intact if its parts are. -/
theorem yields_statement {k : Kind} (hfree : isFree k = true) (s : Semicolon.Setting)
    {ts : List Tree} (h : AllIntact ts) : Yields Intact (Reader.statement k s ts) := by
  unfold Reader.statement
  refine (yields_semicolon s).bind fun last hlast => .next fun stop => yields_pure ?_
  exact intact_branchTo hfree (allIntact_append.mpr ⟨h, hlast⟩)

/-! ## Rules with two readings

Two rules read from one cursor in two ways and then choose. They are not built from readers by the
combinators above, but whatever they give was read by one of the two, from the cursor where the rule
began. -/

/-- Parentheses are an expression, or the parameters of an arrow. Without types no colon is looked
for behind them. -/
theorem parenthesesOrArrow_eq_ok {G : Grammar} (hG : G.typed = false) {x : Context} {c : Cursor}
    {r : Tree × Cursor} (h : Expression.parenthesesOrArrow G x c = .ok r) :
    Expression.parentheses G c = .ok r ∨ Callable.arrow G x [] c = .ok r := by
  unfold Expression.parenthesesOrArrow at h
  simp only [hG, Bool.false_and, Bool.false_eq_true, if_false] at h
  split at h
  next =>
    split at h
    next harrow =>
      cases h
      exact .inr harrow
    next => cases h
  next hinside =>
    split at h
    · exact .inr h
    · cases h
      exact .inl hinside

/-- Braces are a block, or an object that begins an expression. -/
theorem braces_eq_ok {G : Grammar} {c : Cursor} {r : Tree × Cursor}
    (h : Statement.braces G c = .ok r) :
    Callable.block G false c = .ok r ∨ Statement.expression G c = .ok r := by
  unfold Statement.braces at h
  split at h
  next =>
    split at h
    next hvalue =>
      cases h
      exact .inr hvalue
    next => cases h
  next hblock =>
    extract_lets labeled at h
    split at h
    next =>
      split at h
      next hvalue =>
        cases h
        exact .inr hvalue
      next =>
        cases h
        exact .inl hblock
    next =>
      cases h
      exact .inl hblock

/-! ## Goals -/

/-- Whether a sequence is one of a script with types. -/
def Items.isTyped : Items → Bool
  | typeParameters | typeArguments | enumMembers => true
  | _ => false

/-- What a goal needs: it is one of a script without types, and what it goes on from is an
operand. -/
def Goal.Pre : Goal → Prop
  | .items sequence => sequence.isTyped = false
  | .type _ | .typeOn _ _ | .typeSuffixes _ _ | .typeList _ | .heritage | .balanced => False
  | .climbOn _ _ base | .suffixes _ _ base | .dotted base => IntactOperand base
  | _ => True

/-- What each tree of a goal is like. -/
def Goal.PostTree (t : Tree) : Goal → Prop
  | .expression _ | .climb _ _ | .climbOn _ _ _ | .operand _ | .constructed _ | .suffixes _ _ _
  | .element | .dotted _ => IntactOperand t
  | _ => Intact t

/-- What the trees of a goal are like: an expression has an operand among them. -/
def Goal.Post (g : Goal) (ts : List Tree) : Prop :=
  (∀ t ∈ ts, g.PostTree t) ∧ ∀ x, g = .expressions x → ∃ t ∈ ts, isOperand t = true

/-- A grammar without types whose goals give what they should. -/
structure Grammar.Plain (G : Grammar) : Prop where
  untyped : G.typed = false
  sub : ∀ g : Goal, g.Pre → Yields g.Post (G.sub g)

namespace Grammar.Plain

variable {G : Grammar} (hG : G.Plain)
include hG

/-- The one tree of a goal. -/
theorem one (g : Goal) (hg : g.Pre) : Yields g.PostTree (G.one g) := by
  unfold Grammar.one
  refine (hG.sub g hg).bind fun ts hts => ?_
  split
  · exact yields_pure (hts.1 _ (List.mem_singleton.mpr rfl))
  · exact yields_fail

/-- What is read with types only is not read. -/
theorem ite {α : Type} {P : α → Prop} {r r' : Reader α} (h : Yields P r') :
    Yields P (if G.typed = true then r else r') :=
  .skip (by simp [hG.untyped]) h

/-- The same under a further condition. -/
theorem ite_and {α : Type} {P : α → Prop} {b : Bool} {r r' : Reader α} (h : Yields P r') :
    Yields P (if (G.typed && b) = true then r else r') :=
  .skip (by simp [hG.untyped]) h

/-- The trees of a goal that gives intact ones. -/
theorem all (g : Goal) (hg : g.Pre) (h : ∀ t, g.PostTree t → Intact t) :
    Yields AllIntact (G.sub g) :=
  (hG.sub g hg).mono fun _ hts t ht => h t (hts.1 t ht)

/-- The trees of an expression, with an operand among them. -/
theorem expressions (x : Context) :
    Yields (fun ts => AllIntact ts ∧ ∃ t ∈ ts, isOperand t = true) (G.sub (.expressions x)) :=
  (hG.sub (.expressions x) trivial).mono fun _ hts => ⟨hts.1, hts.2 x rfl⟩

/-- The trees of a sequence of items that is read without types. -/
theorem items (sequence : Items) (h : sequence.isTyped = false) :
    Yields AllIntact (G.sub (.items sequence)) := hG.all (.items sequence) h fun _ ht => ht

end Grammar.Plain

/-- A sequence of items is intact if each item is. -/
theorem yields_itemsOf {G : Grammar} (hG : G.Plain) {sequence : Items} {item : Reader Tree}
    (htyped : sequence.isTyped = false) (hitem : Yields Intact item) :
    Yields AllIntact (itemsOf G sequence item) := by
  have hrest : Yields AllIntact (G.sub (.items sequence)) := hG.items sequence htyped
  unfold itemsOf
  refine .next fun cs => .ite (yields_pure allIntact_nil) (.ite (.ite ?_ yields_fail) ?_)
  · exact (yields_mark ",").cons hrest
  · refine hitem.bind fun first hfirst => .next fun cs => .ite ?_ (.ite ?_ yields_fail)
    · refine (yields_mark ",").bind fun comma hcomma => hrest.bind fun ts hts => yields_pure ?_
      simp only [allIntact_cons]
      exact ⟨hfirst, hcomma, hts⟩
    · exact yields_pure (by simpa using hfirst)

end OptionTypes.Syntax
