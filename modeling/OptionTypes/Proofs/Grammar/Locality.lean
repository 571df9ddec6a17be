import OptionTypes.Proofs.Grammar.Place

/-!
# Readers are local

Two runs of a reader from one place of a source have the same result and end at one place.
-/

namespace OptionTypes.Syntax

variable {α β : Type}

/-- Two outcomes of reading in a source that are the same but for the comments that were passed. -/
inductive SameOutcome (source : List Char) :
    Except Stuck (α × Cursor) → Except Stuck (α × Cursor) → Prop where
  | ok (x : α) {d d' : Cursor} (h : d.SamePlace source d') :
      SameOutcome source (.ok (x, d)) (.ok (x, d'))
  | error (stuck : Stuck) : SameOutcome source (.error stuck) (.error stuck)

/-- A reader that does the same from the same place. -/
class Local (r : Reader α) : Prop where
  same : ∀ {source : List Char} {c c' : Cursor}, c.SamePlace source c' →
    SameOutcome source (r c) (r c')

/-! ## Readers made of readers -/

section Combinators

variable {r r' : Reader α}

instance (x : α) : Local (pure x : Reader α) := ⟨fun h => .ok x h⟩

theorem Local.next {f : α → Reader β} [hr : Local r] (hf : ∀ x, Local (f x)) :
    Local (r >>= f) where
  same {source c c'} h := by
    have hfirst := hr.same h
    show SameOutcome source (r c >>= fun p => f p.1 p.2) (r c' >>= fun p => f p.1 p.2)
    generalize r c = out at hfirst ⊢
    generalize r c' = out' at hfirst ⊢
    cases hfirst with
    | ok x hplace => exact (hf x).same hplace
    | error stuck => exact .error stuck

instance {f : α → Reader β} [Local r] [hf : ∀ x, Local (f x)] : Local (r >>= f) := .next hf

theorem Local.ite {c : Prop} [Decidable c] (hr : Local r) (hr' : Local r') :
    Local (if c then r else r') := by
  split
  · exact hr
  · exact hr'

instance {c : Prop} [Decidable c] [hr : Local r] [hr' : Local r'] :
    Local (if c then r else r') := .ite hr hr'

instance : Local (Reader.fail : Reader α) where
  same h := by
    unfold Reader.fail
    rw [h.position, h.skip.position]
    exact .error _

instance [hr : Local r] [hr' : Local r'] : Local (Reader.either r r') where
  same {source c c'} h := by
    have hfirst := hr.same h
    have hsecond := hr'.same h
    unfold Reader.either
    generalize r c = out at hfirst ⊢
    generalize r c' = out' at hfirst ⊢
    cases hfirst with
    | ok x hplace => exact .ok x hplace
    | error stuck =>
      -- the second reader starts from the same place as the first one
      generalize r' c = out at hsecond ⊢
      generalize r' c' = out' at hsecond ⊢
      cases hsecond with
      | ok x hplace => exact .ok x hplace
      | error stuck' => exact .error _

instance [hr : Local r] : Local (Reader.attempt r) where
  same {source c c'} h := by
    have hfirst := hr.same h
    unfold Reader.attempt
    generalize r c = out at hfirst ⊢
    generalize r c' = out' at hfirst ⊢
    cases hfirst with
    | ok x hplace => exact .ok (some x) hplace
    | error stuck => exact .ok none h

instance [hr : Local r] : Local (Reader.succeeds r) where
  same {source c c'} h := by
    have hfirst := hr.same h
    unfold Reader.succeeds
    generalize r c = out at hfirst ⊢
    generalize r c' = out' at hfirst ⊢
    cases hfirst with
    | ok x hplace => exact .ok true h
    | error stuck => exact .ok false h

end Combinators

/-! ## Readers that look and move -/

instance : Local Reader.ahead where
  same {source c c'} h := by
    unfold Reader.ahead
    rw [h.skip.rest]
    exact .ok _ h

instance : Local Reader.behind where
  same {source c c'} h := by
    unfold Reader.behind
    rw [h.rest]
    exact .ok _ h

instance : Local Reader.offset where
  same {source c c'} h := by
    unfold Reader.offset
    rw [h.position]
    exact .ok _ h

instance (label : Label) (n : Nat) : Local (Reader.leaf label n) where
  same {source c c'} h := by
    have hmoved := h.skip.advance n
    unfold Reader.leaf
    simp only [h.skip.position, hmoved.position]
    exact .ok _ hmoved

instance (label : Label) (n : Nat) : Local (Reader.leafHere label n) where
  same {source c c'} h := by
    have hmoved := h.advance n
    unfold Reader.leafHere
    simp only [h.position, hmoved.position]
    exact .ok _ hmoved

instance (s : Semicolon.Setting) : Local (Reader.endsHere s) where
  same {source c c'} h := by
    have hplace := h.place? s
    unfold Reader.endsHere
    generalize Semicolon.place? s c = place at hplace ⊢
    generalize Semicolon.place? s c' = place' at hplace ⊢
    cases hplace with
    | none => exact .ok _ h
    | some _ => exact .ok _ h

instance (s : Semicolon.Setting) : Local (Reader.passMissing s) where
  same {source c c'} h := by
    have hplace := h.place? s
    unfold Reader.passMissing
    generalize Semicolon.place? s c = place at hplace ⊢
    generalize Semicolon.place? s c' = place' at hplace ⊢
    cases hplace with
    | none => exact .ok _ h
    | some hpassed => exact .ok _ hpassed

instance (m : String) : Local (Reader.atMark m) := by
  unfold Reader.atMark
  infer_instance

instance (w : String) : Local (Reader.atWord w) := by
  unfold Reader.atWord
  infer_instance

instance : Local Reader.atAnyWord := by
  unfold Reader.atAnyWord
  infer_instance

instance (m : String) : Local (Reader.mark m) := by
  unfold Reader.mark
  infer_instance

instance (w : String) : Local (Reader.keyword w) := by
  unfold Reader.keyword
  infer_instance

instance (m : String) : Local (Reader.part m) := by
  unfold Reader.part
  infer_instance

instance (m : String) : Local (Reader.mark? m) := by
  unfold Reader.mark?
  infer_instance

instance (w : String) : Local (Reader.keyword? w) := by
  unfold Reader.keyword?
  infer_instance

instance (k : Kind) : Local (Reader.anyWord k) := by
  unfold Reader.anyWord
  infer_instance

instance (s : Semicolon.Setting) : Local (Reader.semicolon s) := by
  unfold Reader.semicolon
  infer_instance

instance (k : Kind) (s : Semicolon.Setting) (ts : List Tree) :
    Local (Reader.statement k s ts) := by
  unfold Reader.statement
  infer_instance

/-! ## Goals -/

/-- A grammar whose goals are read locally. -/
class Grammar.Local (G : Grammar) : Prop where
  sub : ∀ g : Goal, Syntax.Local (G.sub g)

variable {G : Grammar} [hG : G.Local]

instance (g : Goal) : Local (G.sub g) := hG.sub g

instance (g : Goal) : Local (G.one g) := by
  unfold Grammar.one
  refine .next fun ts => ?_
  split
  · infer_instance
  · infer_instance

instance (x : Context) : Local (G.endsHere x) := by
  unfold Grammar.endsHere
  infer_instance

instance (sequence : Items) (item : Reader Tree) [Local item] :
    Local (itemsOf G sequence item) := by
  unfold itemsOf
  infer_instance

end OptionTypes.Syntax
