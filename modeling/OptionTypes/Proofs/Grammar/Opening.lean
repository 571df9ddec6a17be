import OptionTypes.Proofs.Grammar.Place

/-!
# Where a tree begins

A tree begins at the first token of what it is read from: the blanks and comments before that token
are not part of it, and have no bearing on it.

* `Opening` and `HeadAt` say that a tree, or the first one of several trees, begins at an offset.
* `Opens` says of a reader that it passes blanks and comments first, and that its result begins at
  the token after them.
* `Peeks` says that a reader only looks at that token, `Leads` that it reads something there or
  nothing at all, and `Gives` what every result of a reader is like.

A rule opens with its first token, and the rest of it gives a tree that begins with that token:
`Opens.bind` takes a rule apart in this way.
-/

namespace OptionTypes.Syntax

/-! ## Trees that begin at an offset -/

/-- Whether a label may be that of a statement: the line that says which program runs a source is
none. -/
def isProper (label : Label) : Bool := decide (label ≠ .kind .hashBangLine)

/-- A tree that may be a statement and begins at an offset. -/
structure Opening (n : Nat) (t : Tree) : Prop where
  start : t.start = n
  proper : isProper t.label = true

/-- Trees the first one of which begins at an offset. -/
def HeadAt (n : Nat) (ts : List Tree) : Prop := ts.head?.map Tree.start = some n

/-- One tree, which begins at an offset. -/
def OneAt (n : Nat) (ts : List Tree) : Prop := ∃ t, ts = [t] ∧ Opening n t

section Trees

variable {n : Nat} {t : Tree} {ts us : List Tree} {k : Kind}

/-- The part that a tree plays does not move it. -/
@[simp] theorem start_withField (f : Field) (t : Tree) : (t.withField f).start = t.start := by
  cases t
  rfl

/-- A tree that plays a part begins where it did. -/
theorem Opening.withField (h : Opening n t) (f : Field) : Opening n (t.withField f) := by
  cases t
  exact ⟨h.start, h.proper⟩

/-- A tree of another kind begins where it did. -/
theorem Opening.withKind (h : Opening n t) (hk : isProper (.kind k) = true) :
    Opening n (t.withKind k) := by
  cases t
  exact ⟨h.start, hk⟩

theorem Opening.head (h : Opening n t) : HeadAt n (t :: ts) := congrArg some h.start

/-- More trees behind others do not move their head. -/
theorem HeadAt.append (h : HeadAt n ts) : HeadAt n (ts ++ us) := by
  cases ts with
  | nil => cases h
  | cons t ts => exact h

/-- The part that a tree plays has no bearing on where it begins. -/
theorem headAt_append_withField {f : Field} :
    HeadAt n (ts ++ [t.withField f]) ↔ HeadAt n (ts ++ [t]) := by
  cases ts with
  | nil =>
    unfold HeadAt
    simp
  | cons u us => exact Iff.rfl

/-- One tree is a head. -/
theorem OneAt.head (h : OneAt n ts) : HeadAt n ts := by
  obtain ⟨t, rfl, ht⟩ := h
  exact ht.head

theorem oneAt_singleton (h : Opening n t) : OneAt n [t] := ⟨t, rfl, h⟩

/-- A tree begins with the first of its children. -/
theorem opening_branch (hk : isProper (.kind k) = true) (h : HeadAt n ts) :
    Opening n (Reader.branch k ts) where
  start := by
    have hstart : (Reader.branch k ts).start = (ts.head?.map Tree.start).getD 0 := rfl
    rw [hstart, h]
    rfl
  proper := hk

/-- So does a tree whose end is set apart. -/
theorem opening_branchTo {stop : Nat} (hk : isProper (.kind k) = true) (h : HeadAt n ts) :
    Opening n (Reader.branchTo k ts stop) where
  start := by
    have hstart : (Reader.branchTo k ts stop).start = (ts.head?.map Tree.start).getD stop := rfl
    rw [hstart, h]
    rfl
  proper := hk

end Trees

/-! ## What a reader gives -/

/-- Every result of a reader has a property. -/
def Gives {α : Type} (P : α → Prop) (r : Reader α) : Prop := ∀ c x d, r c = .ok (x, d) → P x

section Gives

variable {α β : Type} {P : α → Prop} {Q : β → Prop} {r r' : Reader α}

/-- A sequence of two readers succeeds when the first one does and the second one goes on from
there. -/
theorem bind_eq_ok {f : α → Reader β} {c e : Cursor} {y : β} (h : (r >>= f) c = .ok (y, e)) :
    ∃ x d, r c = .ok (x, d) ∧ f x d = .ok (y, e) := by
  have hrun : (r c >>= fun p => f p.1 p.2) = .ok (y, e) := h
  obtain ⟨⟨x, d⟩, hx, hy⟩ := Outcome.bind_eq_ok_iff.mp hrun
  exact ⟨x, d, hx, hy⟩

/-- A tree that is there is what it is. -/
theorem gives_pure {x : α} (h : P x) : Gives P (pure x) := by
  intro c y d hy
  cases hy
  exact h

theorem gives_fail : Gives P Reader.fail := nofun

theorem gives_any : Gives (fun _ => True) r := fun _ _ _ _ => trivial

/-- The rule for sequences: the second reader may use what is known of the result of the first. -/
theorem Gives.bind {f : α → Reader β} (hr : Gives P r) (hf : ∀ x, P x → Gives Q (f x)) :
    Gives Q (r >>= f) := by
  intro c y e h
  obtain ⟨x, d, hx, hy⟩ := bind_eq_ok h
  exact hf x (hr c x d hx) d y e hy

/-- What does not depend on a result needs nothing about it. -/
theorem Gives.next {f : α → Reader β} (hf : ∀ x, Gives Q (f x)) : Gives Q (r >>= f) := by
  intro c y e h
  obtain ⟨x, d, -, hy⟩ := bind_eq_ok h
  exact hf x d y e hy

/-- What both alternatives give. -/
theorem Gives.ite {c : Prop} [Decidable c] (hr : Gives P r) (hr' : Gives P r') :
    Gives P (if c then r else r') := by
  split
  · exact hr
  · exact hr'

/-- What both readers give is what the first of them that succeeds gives. -/
theorem Gives.either (hr : Gives P r) (hr' : Gives P r') : Gives P (Reader.either r r') := by
  intro c x d h
  unfold Reader.either at h
  split at h
  next p hp =>
    cases h
    exact hr c x d hp
  next =>
    split at h
    next p hp =>
      cases h
      exact hr' c x d hp
    next => cases h

end Gives

/-! ## Readers that begin with the next token -/

/-- A reader that passes blanks and comments first, and whose result begins at the token after
them. -/
structure Opens {α : Type} (P : Nat → α → Prop) (r : Reader α) : Prop where
  skips : ∀ c, (r c).toOption = (r c.skip).toOption
  gives : ∀ c, ∀ x d, r c = .ok (x, d) → P c.skip.position x

/-- A reader that only looks at the next token. -/
class Peeks {α : Type} (r : Reader α) : Prop where
  stays : ∀ c, ∃ x, r c = .ok (x, c) ∧ r c.skip = .ok (x, c.skip)

/-- A reader of several trees that begins with the next token, or reads nothing. -/
structure Leads (r : Reader (List Tree)) : Prop where
  begins : ∀ c, (r c = .ok ([], c) ∧ r c.skip = .ok ([], c.skip))
    ∨ ((r c).toOption = (r c.skip).toOption ∧ ∀ ts d, r c = .ok (ts, d) →
      HeadAt c.skip.position ts)

section Opens

variable {α β : Type} {P : Nat → α → Prop} {Q : Nat → β → Prop} {r r' : Reader α}

/-- A sequence does not depend on blanks and comments before it if its first reader does not. -/
theorem bind_skips {f : α → Reader β} {c : Cursor}
    (h : (r c).toOption = (r c.skip).toOption) :
    ((r >>= f) c).toOption = ((r >>= f) c.skip).toOption := by
  show (r c >>= fun p => f p.1 p.2).toOption = (r c.skip >>= fun p => f p.1 p.2).toOption
  generalize r c = out at h ⊢
  generalize r c.skip = out' at h ⊢
  cases out with
  | ok p =>
    obtain rfl := Outcome.toOption_eq_some_iff.mp h.symm
    rfl
  | error stuck =>
    cases out' with
    | ok p => cases h
    | error stuck' => rfl

theorem opens_fail : Opens P Reader.fail := ⟨fun _ => rfl, fun _ => nofun⟩

/-- **A rule begins with its first reader**, and the rest of it keeps that beginning. -/
theorem Opens.bind {f : α → Reader β} (hr : Opens P r)
    (hf : ∀ n x, P n x → Gives (Q n) (f x)) : Opens Q (r >>= f) where
  skips c := bind_skips (hr.skips c)
  gives c y e h := by
    obtain ⟨x, d, hx, hy⟩ := bind_eq_ok h
    exact hf c.skip.position x (hr.gives c x d hx) d y e hy

/-- Looking at the next token first changes nothing. -/
theorem Opens.peek {f : α → Reader β} [hr : Peeks r] (hf : ∀ x, Opens Q (f x)) :
    Opens Q (r >>= f) where
  skips c := by
    obtain ⟨x, hx, hx'⟩ := hr.stays c
    show (r c >>= fun p => f p.1 p.2).toOption = (r c.skip >>= fun p => f p.1 p.2).toOption
    rw [hx, hx']
    exact (hf x).skips c
  gives c y e h := by
    obtain ⟨x, hx, -⟩ := hr.stays c
    obtain ⟨x', d, hx', hy⟩ := bind_eq_ok h
    cases hx.symm.trans hx'
    exact (hf x).gives c y e hy

/-- Both alternatives begin with the next token. -/
theorem Opens.ite {c : Prop} [Decidable c] (hr : Opens P r) (hr' : Opens P r') :
    Opens P (if c then r else r') := by
  split
  · exact hr
  · exact hr'

/-- A reader whose outcome is that of one of two others, by a choice between their outcomes. -/
theorem Opens.choice {a b : Reader α}
    (choose : Option (α × Cursor) → Option (α × Cursor) → Option (α × Cursor))
    (hchoose : ∀ x y, choose x y = x ∨ choose x y = y)
    (hr : ∀ c, (r c).toOption = choose (a c).toOption (b c).toOption)
    (ha : Opens P a) (hb : Opens P b) : Opens P r where
  skips c := by rw [hr, hr, ha.skips c, hb.skips c]
  gives c x d h := by
    have hsome : choose (a c).toOption (b c).toOption = some (x, d) :=
      (hr c).symm.trans (Outcome.toOption_eq_some_iff.mpr h)
    rcases hchoose (a c).toOption (b c).toOption with hx | hy
    · exact ha.gives c x d (Outcome.toOption_eq_some_iff.mp (hx.symm.trans hsome))
    · exact hb.gives c x d (Outcome.toOption_eq_some_iff.mp (hy.symm.trans hsome))

/-- The first of two readers that succeeds begins with the next token, if both do. -/
theorem Opens.either (hr : Opens P r) (hr' : Opens P r') : Opens P (Reader.either r r') := by
  refine .choice Option.or (fun x y => ?_) (fun c => ?_) hr hr'
  · cases x with
    | none => exact .inr rfl
    | some p => exact .inl rfl
  · unfold Reader.either
    cases r c with
    | ok p => rfl
    | error stuck =>
      cases r' c with
      | ok p => rfl
      | error stuck' => rfl

/-- What may come first, and what has to come after it. -/
theorem Leads.bind {r : Reader (List Tree)} {f : List Tree → Reader β} (hr : Leads r)
    (hnone : Opens Q (f [])) (hsome : ∀ n ts, HeadAt n ts → Gives (Q n) (f ts)) :
    Opens Q (r >>= f) where
  skips c := by
    rcases hr.begins c with ⟨hstays, hstays'⟩ | ⟨hskips, -⟩
    · show (r c >>= fun p => f p.1 p.2).toOption = (r c.skip >>= fun p => f p.1 p.2).toOption
      rw [hstays, hstays']
      exact hnone.skips c
    · exact bind_skips hskips
  gives c y e h := by
    obtain ⟨ts, d, hts, hy⟩ := bind_eq_ok h
    rcases hr.begins c with ⟨hstays, -⟩ | ⟨-, hhead⟩
    · cases hstays.symm.trans hts
      exact hnone.gives c y e hy
    · exact hsome c.skip.position ts (hhead ts d hts) d y e hy

theorem leads_nil : Leads (pure []) := ⟨fun _ => .inl ⟨rfl, rfl⟩⟩

/-- What begins with the next token also reads there or nothing. -/
theorem Opens.leads {r : Reader (List Tree)} (hr : Opens HeadAt r) : Leads r :=
  ⟨fun c => .inr ⟨hr.skips c, fun ts d hts => hr.gives c ts d hts⟩⟩

/-- Looking at the next token first changes nothing, whatever is made of it. -/
theorem Leads.peek {r : Reader α} {f : α → Reader (List Tree)} [hr : Peeks r]
    (hf : ∀ x, Leads (f x)) : Leads (r >>= f) where
  begins c := by
    obtain ⟨x, hx, hx'⟩ := hr.stays c
    have hrun : ∀ d, r d = .ok (x, d) → (r >>= f) d = f x d := by
      intro d hd
      show (r d >>= fun p => f p.1 p.2) = f x d
      rw [hd]
      rfl
    rw [hrun c hx, hrun c.skip hx']
    exact (hf x).begins c

/-- Both alternatives read at the next token or nothing. -/
theorem Leads.ite {c : Prop} [Decidable c] {r r' : Reader (List Tree)} (hr : Leads r)
    (hr' : Leads r') : Leads (if c then r else r') := by
  split
  · exact hr
  · exact hr'

end Opens

/-! ## Looking at the next token -/

section Peeks

variable {α β : Type} {r : Reader α}

instance (x : α) : Peeks (pure x : Reader α) := ⟨fun _ => ⟨x, rfl, rfl⟩⟩

instance {f : α → Reader β} [hr : Peeks r] [hf : ∀ x, Peeks (f x)] : Peeks (r >>= f) where
  stays c := by
    obtain ⟨x, hx, hx'⟩ := hr.stays c
    obtain ⟨y, hy, hy'⟩ := (hf x).stays c
    refine ⟨y, ?_, ?_⟩
    · show (r c >>= fun p => f p.1 p.2) = .ok (y, c)
      rw [hx]
      exact hy
    · show (r c.skip >>= fun p => f p.1 p.2) = .ok (y, c.skip)
      rw [hx']
      exact hy'

instance : Peeks Reader.ahead where
  stays c := by
    unfold Reader.ahead
    rw [Cursor.skip_skip]
    exact ⟨_, rfl, rfl⟩

instance (m : String) : Peeks (Reader.atMark m) := by
  unfold Reader.atMark
  infer_instance

instance (w : String) : Peeks (Reader.atWord w) := by
  unfold Reader.atWord
  infer_instance

instance : Peeks Pattern.atDestructuring := by
  unfold Pattern.atDestructuring
  infer_instance

/-- Trying out a reader that begins with the next token. -/
theorem Opens.peeks {P : Nat → α → Prop} (hr : Opens P r) : Peeks (Reader.succeeds r) where
  stays c := by
    have hskips := hr.skips c
    unfold Reader.succeeds
    generalize r c = out at hskips ⊢
    generalize r c.skip = out' at hskips ⊢
    cases out with
    | ok p =>
      obtain rfl := Outcome.toOption_eq_some_iff.mp hskips.symm
      exact ⟨true, rfl, rfl⟩
    | error stuck =>
      cases out' with
      | ok p => cases hskips
      | error stuck' => exact ⟨false, rfl, rfl⟩

/-- Whether a reader succeeds that begins with the next token. -/
theorem Opens.test {P : Nat → α → Prop} {Q : Nat → β → Prop} {f : Bool → Reader β}
    (hr : Opens P r) (hf : ∀ b, Opens Q (f b)) : Opens Q (Reader.succeeds r >>= f) :=
  have := hr.peeks
  .peek hf

end Peeks

/-! ## Tokens -/

/-- A leaf begins where blanks and comments end. -/
theorem opens_leaf {label : Label} (h : isProper label = true) (n : Nat) :
    Opens Opening (Reader.leaf label n) where
  skips c := by
    unfold Reader.leaf
    rw [Cursor.skip_skip]
  gives c t d ht := by
    cases ht
    exact ⟨rfl, h⟩

/-- A mark begins with the next token, or is not there. -/
theorem opens_mark (m : String) : Opens Opening (Reader.mark m) := by
  unfold Reader.mark
  exact .peek fun _ => .ite (opens_leaf rfl _) opens_fail

/-- A word of the language begins with the next token, or is not there. -/
theorem opens_keyword (w : String) : Opens Opening (Reader.keyword w) := by
  unfold Reader.keyword
  exact .peek fun _ => .ite (opens_leaf rfl _) opens_fail

theorem opens_part (m : String) : Opens Opening (Reader.part m) := by
  unfold Reader.part
  exact .peek fun _ => .ite (opens_leaf rfl _) opens_fail

theorem opens_anyWord {k : Kind} (hk : isProper (.kind k) = true) :
    Opens Opening (Reader.anyWord k) := by
  unfold Reader.anyWord
  exact .peek fun _ => .ite opens_fail (opens_leaf hk _)

/-- A word that may be missing. -/
theorem leads_keyword? (w : String) : Leads (Reader.keyword? w) := by
  unfold Reader.keyword?
  refine .peek fun _ => .ite (Opens.leads ?_) leads_nil
  exact (opens_keyword w).bind fun n word hword => gives_pure hword.head

/-! ## Nodes -/

section Nodes

variable {n : Nat} {k : Kind} {ts : List Tree}

/-- A tree begins with the first of its children. -/
theorem gives_branch (hk : isProper (.kind k) = true) (h : HeadAt n ts) :
    Gives (Opening n) (pure (Reader.branch k ts)) := gives_pure (opening_branch hk h)

/-- A statement begins with the first of its parts; its end may be a semicolon that is not there. -/
theorem gives_statement (hk : isProper (.kind k) = true) (s : Semicolon.Setting)
    (h : HeadAt n ts) : Gives (Opening n) (Reader.statement k s ts) := by
  unfold Reader.statement
  exact .next fun last => .next fun stop => gives_pure (opening_branchTo hk h.append)

end Nodes

/-- A reader of a tree that begins with trees that were read before it, or else with the next
token. -/
structure Extends (before : List Tree) (r : Reader Tree) : Prop where
  opens : before = [] → Opens Opening r
  gives : ∀ n, HeadAt n before → Gives (Opening n) r

section Extends

variable {before : List Tree}

/-- What is read next comes after what was read before. -/
theorem Opens.extendAll {r : Reader (List Tree)} {f : List Tree → Reader Tree}
    (hr : Opens HeadAt r) (hf : ∀ n ts, HeadAt n (before ++ ts) → Gives (Opening n) (f ts)) :
    Extends before (r >>= f) where
  opens := by
    rintro rfl
    exact hr.bind hf
  gives n h := .next fun ts => hf n ts h.append

/-- One more tree behind those that were read before. -/
theorem Opens.extend {r : Reader Tree} {f : Tree → Reader Tree} (hr : Opens Opening r)
    (hf : ∀ n t, HeadAt n (before ++ [t]) → Gives (Opening n) (f t)) :
    Extends before (r >>= f) where
  opens := by
    rintro rfl
    exact hr.bind fun n t ht => hf n t ht.head
  gives n h := .next fun t => hf n t h.append

/-- Looking at the next token first changes nothing. -/
theorem Extends.peek {α : Type} {r : Reader α} {f : α → Reader Tree} [Peeks r]
    (hf : ∀ x, Extends before (f x)) : Extends before (r >>= f) where
  opens hnone := .peek fun x => (hf x).opens hnone
  gives n h := .next fun x => (hf x).gives n h

theorem Extends.ite {c : Prop} [Decidable c] {r r' : Reader Tree} (hr : Extends before r)
    (hr' : Extends before r') : Extends before (if c then r else r') := by
  split
  · exact hr
  · exact hr'

/-- What may come first, and a reader that goes on behind it. -/
theorem Leads.extend {r : Reader (List Tree)} {f : List Tree → Reader Tree} (hr : Leads r)
    (hf : ∀ ts, Extends ts (f ts)) : Opens Opening (r >>= f) :=
  hr.bind ((hf []).opens rfl) fun n ts h => (hf ts).gives n h

end Extends

/-! ## Goals -/

/-- Whether a goal begins with the next token and gives one tree. -/
def Goal.isLeading : Goal → Bool
  | .statement | .expressions _ | .expression _ | .climb _ _ | .operand _ | .element => true
  | _ => false

/-- The tree that a goal goes on from. -/
def Goal.base? : Goal → Option Tree
  | .climbOn _ _ base | .suffixes _ _ base => some base
  | _ => none

/-- A grammar without types whose goals begin where they should. -/
structure Grammar.Leading (G : Grammar) : Prop where
  untyped : G.typed = false
  leading : ∀ g : Goal, g.isLeading = true → Opens OneAt (G.sub g)
  onward : ∀ (g : Goal) (base : Tree) (n : Nat), g.base? = some base → Opening n base →
    Gives (OneAt n) (G.sub g)
  decorators : Leads (G.sub .decorators)

namespace Grammar.Leading

variable {G : Grammar} (hG : G.Leading)
include hG

/-- The one tree of a goal that begins with the next token. -/
theorem one (g : Goal) (hg : g.isLeading = true) : Opens Opening (G.one g) := by
  unfold Grammar.one
  refine (hG.leading g hg).bind fun n ts hts => ?_
  obtain ⟨t, rfl, ht⟩ := hts
  exact gives_pure ht

/-- The one tree of a goal that goes on from another one. -/
theorem oneFrom (g : Goal) {base : Tree} {n : Nat} (hg : g.base? = some base)
    (hbase : Opening n base) : Gives (Opening n) (G.one g) := by
  unfold Grammar.one
  refine (hG.onward g base n hg hbase).bind fun ts hts => ?_
  obtain ⟨t, rfl, ht⟩ := hts
  exact gives_pure ht

/-- What is read with types only is not read. -/
theorem opens_ite {α : Type} {P : Nat → α → Prop} {r r' : Reader α} (h : Opens P r') :
    Opens P (if G.typed = true then r else r') := by
  rw [hG.untyped]
  exact h

/-- Without types only the other alternative matters. -/
theorem gives_ite {α : Type} {P : α → Prop} {r r' : Reader α} (h : Gives P r') :
    Gives P (if G.typed = true then r else r') := by
  rw [hG.untyped]
  exact h

/-- The same under a further condition. -/
theorem gives_ite_and {α : Type} {P : α → Prop} {b : Bool} {r r' : Reader α} (h : Gives P r') :
    Gives P (if (G.typed && b) = true then r else r') := by
  rw [hG.untyped, Bool.false_and]
  exact h

end Grammar.Leading

end OptionTypes.Syntax
