import OptionTypes.Proofs.Grammar.Row
import OptionTypes.Proofs.Grammar.Yield

/-!
# Readers that continue a row

A rule is a sequence of readers, and what it has read so far stands in a row up to the cursor. So a
rule is taken apart from its first reader on, and the trees it has read are carried along: each
reader adds its own at the end, until a node is put around all of them.

* `Lays` says of a reader that, after some trees, it continues the row. It has one lemma for each
  way to combine readers: `Lays.next` adds what a reader gives, `Lays.after` puts trees in the place
  of those before.
* `Stays` says that a reader only looks; the readers that do are found by instances.
* `lays_branch` and its variants are the ends of rules, where a node takes the place of its
  children.
* `Grammar.Orderly` says of a grammar without types that its goals continue a row.
-/

namespace OptionTypes.Syntax

/-! ## What a reader adds -/

/-- After some trees a reader gives a row of trees, all of those before it included. -/
def Lays {α : Type} (source : List Char) (before : List Tree) (f : α → List Tree) (r : Reader α) :
    Prop :=
  ∀ lo d x e, d.On source → Row (Edge source d) lo before d.position → r d = .ok (x, e) →
    d.Reaches source e ∧ Row (Edge source e) lo (f x) e.position

/-- The same of a reader of one tree. -/
abbrev LaysOne (source : List Char) (before : List Tree) (r : Reader Tree) : Prop :=
  Lays source before (fun t => [t]) r

/-- The same of a reader of several trees. -/
abbrev LaysAll (source : List Char) (before : List Tree) (r : Reader (List Tree)) : Prop :=
  Lays source before (fun ts => ts) r

/-- A reader that only looks. -/
class Stays {α : Type} (r : Reader α) : Prop where
  stays : ∀ c x d, r c = .ok (x, d) → d = c

section Lays

variable {source : List Char} {α β : Type} {before mid : List Tree} {f : α → List Tree}
  {g : β → List Tree} {r r' : Reader α}

/-- A reader that reads nothing gives trees that take the place of those before it. -/
theorem lays_pure {x : α} (h : Folds before (f x)) : Lays source before f (pure x) := by
  intro lo d y e hd hrow hy
  cases hy
  exact ⟨hd.refl, h _ _ _ hrow⟩

theorem lays_fail : Lays source before f Reader.fail := fun _ _ _ _ _ _ h => nomatch h

/-- The row grows from reader to reader: what the first one leaves is what the second one goes on
from. -/
theorem Lays.bind {k : α → Reader β} (hr : Lays source before f r)
    (hk : ∀ x, Lays source (f x) g (k x)) : Lays source before g (r >>= k) := by
  intro lo d y e hd hrow h
  obtain ⟨x, d', hx, hy⟩ := bind_eq_ok h
  obtain ⟨hfirst, hrow'⟩ := hr lo d x d' hd hrow hx
  obtain ⟨hsecond, hrow''⟩ := hk x lo d' y e hfirst.on hrow' hy
  exact ⟨hfirst.trans hsecond, hrow''⟩

/-- Whatever stands further ahead is of no account. -/
theorem Lays.frame (hr : Lays source mid f r) :
    Lays source (before ++ mid) (fun x => before ++ f x) r := by
  intro lo d x e hd hrow hx
  obtain ⟨n, hbefore, hmid⟩ := row_append.mp hrow
  obtain ⟨hreaches, hrow'⟩ := hr n d x e hd hmid hx
  exact ⟨hreaches, row_append.mpr ⟨n, hbefore.mono fun _ h => h.later hreaches, hrow'⟩⟩

/-- **What is read next stands behind what was read before.** -/
theorem Lays.given {P : α → Prop} {k : α → Reader β} (hr : Lays source [] f r) (hp : Gives P r)
    (hk : ∀ x, P x → Lays source (before ++ f x) g (k x)) : Lays source before g (r >>= k) := by
  have hframe : Lays source (before ++ []) (fun x => before ++ f x) r := hr.frame
  rw [List.append_nil] at hframe
  intro lo d y e hd hrow h
  obtain ⟨x, d', hx, hy⟩ := bind_eq_ok h
  obtain ⟨hfirst, hrow'⟩ := hframe lo d x d' hd hrow hx
  obtain ⟨hsecond, hrow''⟩ := hk x (hp d x d' hx) lo d' y e hfirst.on hrow' hy
  exact ⟨hfirst.trans hsecond, hrow''⟩

/-- A part of a rule that does not look at what stands before it: its trees are put behind the
others. -/
theorem Lays.next {k : α → Reader β} (hr : Lays source [] f r)
    (hk : ∀ x, Lays source (before ++ f x) g (k x)) : Lays source before g (r >>= k) :=
  hr.given gives_any fun x _ => hk x

/-- Looking changes nothing. -/
theorem Lays.look {k : α → Reader β} [hr : Stays r] (hk : ∀ x, Lays source before g (k x)) :
    Lays source before g (r >>= k) := by
  intro lo d y e hd hrow h
  obtain ⟨x, d', hx, hy⟩ := bind_eq_ok h
  obtain rfl := hr.stays d x d' hx
  exact hk x lo d' y e hd hrow hy

/-- What stands before may be replaced first, as when a node is put around it. -/
theorem Lays.after (hr : Lays source mid f r) (h : Folds before mid) :
    Lays source before f r :=
  fun lo d x e hd hrow hx => hr lo d x e hd (h _ _ _ hrow) hx

/-- A choice between two readers lays out what both of them do. -/
theorem Lays.ite {c : Prop} [Decidable c] (hr : Lays source before f r)
    (hr' : Lays source before f r') : Lays source before f (if c then r else r') := by
  split
  · exact hr
  · exact hr'

/-- A reader that is tried after another one has failed begins where the other began. -/
theorem Lays.either (hr : Lays source before f r) (hr' : Lays source before f r') :
    Lays source before f (Reader.either r r') := by
  intro lo d x e hd hrow h
  unfold Reader.either at h
  split at h
  next p hp =>
    cases h
    exact hr lo d x e hd hrow hp
  next =>
    split at h
    next p hp =>
      cases h
      exact hr' lo d x e hd hrow hp
    next => cases h

end Lays

/-! ## Looking ahead -/

section Stays

variable {α β : Type}

instance (x : α) : Stays (pure x : Reader α) := ⟨fun c y d h => by cases h; rfl⟩

instance {r : Reader α} {k : α → Reader β} [hr : Stays r] [hk : ∀ x, Stays (k x)] :
    Stays (r >>= k) where
  stays c y e h := by
    obtain ⟨x, d, hx, hy⟩ := bind_eq_ok h
    obtain rfl := hr.stays c x d hx
    exact (hk x).stays d y e hy

instance {c : Prop} [Decidable c] {r r' : Reader α} [hr : Stays r] [hr' : Stays r'] :
    Stays (if c then r else r') := by
  split
  · exact hr
  · exact hr'

instance (r : Reader α) : Stays r.succeeds where
  stays c x d h := by
    unfold Reader.succeeds at h
    split at h
    next =>
      cases h
      rfl
    next =>
      cases h
      rfl

instance : Stays Reader.ahead := ⟨fun c x d h => by cases h; rfl⟩

instance : Stays Reader.behind := ⟨fun c x d h => by cases h; rfl⟩

instance (s : Semicolon.Setting) : Stays (Reader.endsHere s) := ⟨fun c x d h => by cases h; rfl⟩

instance (m : String) : Stays (Reader.atMark m) := by
  unfold Reader.atMark
  infer_instance

instance (w : String) : Stays (Reader.atWord w) := by
  unfold Reader.atWord
  infer_instance

instance : Stays Reader.atAnyWord := by
  unfold Reader.atAnyWord
  infer_instance

instance : Stays Pattern.atDestructuring := by
  unfold Pattern.atDestructuring
  infer_instance

instance (G : Grammar) : Stays (Callable.atSignature G) := by
  unfold Callable.atSignature
  infer_instance

instance (G : Grammar) (x : Context) : Stays (G.endsHere x) := by
  unfold Grammar.endsHere
  infer_instance

instance (G : Grammar) (w : String) : Stays (Module.atTypeOnly G w) := by
  unfold Module.atTypeOnly
  infer_instance

end Stays

/-! ## Tokens -/

section Tokens

variable {source : List Char} {before ts : List Tree} {label : Label} {k : Kind}

/-- A leaf up to a later cursor. -/
theorem Row.leaf {c d : Cursor} {lo : Nat} (hc : c.On source) (hd : c.Reaches source d)
    (h : lo ≤ c.position) (field : Option Field) (missing : Bool) :
    Row (Edge source d) lo [.node label field c.position d.position missing []] d.position := by
  refine row_singleton.mpr ⟨h, laid_iff.mpr ⟨?_, hd.on.edge, .nil hd.le⟩, Nat.le_refl _⟩
  exact hc.edge.later hd

/-- A leaf begins where the cursor stands and ends where it stands then. -/
theorem lays_leafHere (n : Nat) : LaysOne source [] (Reader.leafHere label n) := by
  intro lo d t e hd hrow h
  cases h
  have hreaches := hd.advance n
  exact ⟨hreaches, Row.leaf hd hreaches hrow.le none false⟩

/-- A leaf behind some blanks and comments. The blanks are room in the row, and the comments are
known to the cursor. -/
theorem lays_leaf (n : Nat) : LaysOne source [] (Reader.leaf label n) := by
  intro lo d t e hd hrow h
  cases h
  have hskip := hd.skip
  have hreaches := hskip.on.advance n
  exact ⟨hskip.trans hreaches,
    Row.leaf hskip.on hreaches (Nat.le_trans hrow.le hskip.le) none false⟩

theorem lays_mark (m : String) : LaysOne source [] (Reader.mark m) := by
  unfold Reader.mark
  exact .look fun _ => .ite (lays_leaf _) lays_fail

theorem lays_keyword (w : String) : LaysOne source [] (Reader.keyword w) := by
  unfold Reader.keyword
  exact .look fun _ => .ite (lays_leaf _) lays_fail

theorem lays_part (m : String) : LaysOne source [] (Reader.part m) := by
  unfold Reader.part
  exact .look fun _ => .ite (lays_leaf _) lays_fail

/-- A word that is a name is a leaf. -/
theorem lays_anyWord (k : Kind) : LaysOne source [] (Reader.anyWord k) := by
  unfold Reader.anyWord
  exact .look fun _ => .ite lays_fail (lays_leaf _)

/-- A tree as a list of trees. -/
theorem LaysOne.single {r : Reader Tree} (hr : LaysOne source before r) :
    LaysAll source before (do return [← r]) := hr.bind fun t => lays_pure (.refl [t])

/-- A tree with others behind it. -/
theorem LaysOne.cons {r : Reader Tree} {rs : Reader (List Tree)} (hr : LaysOne source [] r)
    (hrs : LaysAll source [] rs) : LaysAll source [] (do return (← r) :: (← rs)) :=
  hr.bind fun t => hrs.next fun ts => lays_pure (.refl (t :: ts))

/-- The mark of a place changes no offset. -/
theorem LaysOne.withField {r : Reader Tree} (hr : LaysOne source before r) (f : Field) :
    LaysOne source before (do return (← r).withField f) :=
  hr.bind fun t => lays_pure (folds_of_shape (by simp))

theorem lays_mark? (m : String) : LaysAll source [] (Reader.mark? m) := by
  unfold Reader.mark?
  exact .look fun _ => .ite (lays_mark m).single (lays_pure (.refl []))

theorem lays_keyword? (w : String) : LaysAll source [] (Reader.keyword? w) := by
  unfold Reader.keyword?
  exact .look fun _ => .ite (lays_keyword w).single (lays_pure (.refl []))

/-! ## Nodes -/

/-- **A node spans what it is made of.** The trees under it are those read, up to their marks. -/
theorem lays_branch (h : ts.map Tree.shape = before.map Tree.shape) (hne : ts ≠ []) :
    LaysOne source before (pure (Reader.branch k ts)) :=
  lays_pure (folds_branch (folds_of_shape h) hne)

/-- A node that plays a part. -/
theorem lays_branchAs {f : Field} (h : ts.map Tree.shape = before.map Tree.shape) (hne : ts ≠ []) :
    LaysOne source before (pure ((Reader.branch k ts).withField f)) :=
  lays_pure (folds_branchAs (folds_of_shape h) hne)

/-- The place of a missing semicolon comes after some comments. -/
theorem lays_passMissing (s : Semicolon.Setting) :
    Lays source before (fun _ => before) (Reader.passMissing s) := by
  intro lo d b e hd hrow h
  have hreaches : d.Reaches source e := by
    unfold Reader.passMissing at h
    split at h
    next p hp =>
      cases h
      exact hd.pause (List.mem_of_find?_eq_some hp)
    next =>
      cases h
      exact hd.refl
  refine ⟨hreaches, ?_⟩
  exact (hrow.mono fun _ hn => hn.later hreaches).weaken (Nat.le_refl _) hreaches.le

/-- A node that reaches up to where the cursor stands. -/
theorem lays_branchTo (h : Folds before ts) :
    LaysOne source before (do return Reader.branchTo k ts (← Reader.offset)) := by
  intro lo d t e hd hrow ht
  cases ht
  refine ⟨hd.refl, ?_⟩
  replace hrow := h _ _ _ hrow
  cases hrow with
  | nil hle => exact Row.leaf hd hd.refl hle none false
  | @cons _ _ first rest hle hspan hfirst hrest =>
    refine row_singleton.mpr ⟨hle, laid_iff.mpr ⟨?_, hd.edge, ?_⟩, Nat.le_refl _⟩
    · exact (laid_iff.mp hfirst).1
    · exact .cons (Nat.le_refl _) hspan hfirst hrest

/-- A node that stands for something missing where the cursor stands. -/
theorem lays_missing (label : Label) (field : Option Field) :
    Lays source [] (fun n => [.node label field n n true []]) Reader.offset := by
  intro lo d n e hd hrow h
  cases h
  exact ⟨hd.refl, Row.leaf hd hd.refl hrow.le field true⟩

/-- The end of a statement is a semicolon, or the place where a missing one belongs. -/
theorem lays_semicolon (s : Semicolon.Setting) : LaysAll source [] (Reader.semicolon s) := by
  unfold Reader.semicolon
  refine (lays_passMissing s).bind fun _ => .ite (lays_pure (.refl [])) (lays_mark ";").single

/-- A statement reaches up to its end, also where no semicolon stands there. -/
theorem lays_statement (s : Semicolon.Setting) (h : ts.map Tree.shape = before.map Tree.shape) :
    LaysOne source before (Reader.statement k s ts) := by
  unfold Reader.statement
  exact (lays_semicolon s).next fun last => lays_branchTo ((folds_of_shape h).append (.refl last))

end Tokens

/-! ## Goals -/

/-- The trees that a goal goes on from. -/
def Goal.before : Goal → List Tree
  | .climbOn _ _ base | .suffixes _ _ base | .dotted base => [base]
  | _ => []

/-- Whether a goal is one of a script with types. -/
def Goal.isTyped : Goal → Bool
  | .items sequence => sequence.isTyped
  | .type _ | .typeOn _ _ | .typeSuffixes _ _ | .typeList _ | .heritage | .balanced => true
  | _ => false

/-- A grammar without types whose goals continue a row. -/
structure Grammar.Orderly (source : List Char) (G : Grammar) : Prop where
  untyped : G.typed = false
  sub : ∀ g : Goal, g.isTyped = false → LaysAll source g.before (G.sub g)

namespace Grammar.Orderly

variable {source : List Char} {G : Grammar} {α : Type} {before : List Tree} {f : α → List Tree}
  {r r' : Reader α} (hG : G.Orderly source)
include hG

/-- The one tree of a goal. -/
theorem one (g : Goal) (hg : g.isTyped = false) : LaysOne source g.before (G.one g) := by
  unfold Grammar.one
  refine (hG.sub g hg).bind fun ts => ?_
  split
  · exact lays_pure (.refl _)
  · exact lays_fail

/-- What is read with types only is not read. -/
theorem ite (h : Lays source before f r') :
    Lays source before f (if G.typed = true then r else r') := by
  rw [hG.untyped]
  exact h

/-- The same under a further condition. -/
theorem ite_and {b : Bool} (h : Lays source before f r') :
    Lays source before f (if (G.typed && b) = true then r else r') := by
  rw [hG.untyped, Bool.false_and]
  exact h

end Grammar.Orderly

/-- A sequence of items with commas between them. -/
theorem lays_itemsOf {source : List Char} {G : Grammar} (hG : G.Orderly source) {sequence : Items}
    {item : Reader Tree} (htyped : sequence.isTyped = false) (hitem : LaysOne source [] item) :
    LaysAll source [] (itemsOf G sequence item) := by
  have hrest : LaysAll source [] (G.sub (.items sequence)) := hG.sub (.items sequence) htyped
  unfold itemsOf
  refine .look fun cs => .ite (lays_pure (.refl [])) (.ite (.ite ?_ lays_fail) ?_)
  · exact (lays_mark ",").cons hrest
  · refine hitem.bind fun first => .look fun cs => .ite ?_ (.ite ?_ lays_fail)
    · exact (lays_mark ",").next fun comma => hrest.next fun ts => lays_pure (.refl _)
    · exact lays_pure (.refl _)

end OptionTypes.Syntax
