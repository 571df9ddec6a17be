import Mathlib.Data.List.Basic
import Mathlib.Data.List.Induction
import Mathlib.Tactic.Common
import OptionTypes.Value

/-!
# Writing the members of an object

An object is what a sequence of writes leaves: every key stands where it was first written, with the
value that was last written under it. Members that are written into another object count as the
sequence of writes that made them.

* `Key.same_iff`: keys name the same member when they agree in a normal form.
* `Members.Collapsed` is what a sequence of writes leaves, and `collapsed_iff` says that writing the
  members one after the other gives just that.
* `Members.insertAll_insertAll`: it does not matter whether writes are collapsed on the way.
-/

namespace OptionTypes

/-! ## Keys -/

namespace Key

/-- A key in the form in which keys are compared. -/
def canonical : Key → Key
  | .bool b => .number (.int (if b then 1 else 0))
  | .number n => .number n.normal
  | k => k

/-- Keys name the same member when they are the same key but for the spelling of numbers. -/
theorem same_iff {a b : Key} : a.same b = true ↔ a.canonical = b.canonical := by
  cases a <;> cases b <;> simp [same, number?, canonical]

variable {a b c : Key}

theorem same_refl (a : Key) : a.same a = true := same_iff.mpr rfl

theorem same_comm : a.same b = b.same a :=
  Bool.eq_iff_iff.mpr (same_iff.trans (eq_comm.trans same_iff.symm))

/-- Keys that name the same member can stand for each other. -/
theorem same_congr_left (h : a.same b = true) (c : Key) : a.same c = b.same c := by
  rw [Bool.eq_iff_iff, same_iff, same_iff, same_iff.mp h]

/-- The same on the other side. -/
theorem same_congr_right (h : a.same b = true) (c : Key) : c.same a = c.same b := by
  rw [same_comm, same_congr_left h, same_comm]

end Key

namespace Members

variable {k k' : Key} {ms ms' new ws : Members}

/-! ## One write -/

theorem insert_cons (k₀ : Key) (v₀ : Value) (k : Key) (v : Value) (ms : Members) :
    insert k v ((k₀, v₀) :: ms)
      = if k₀.same k then (k₀, v) :: ms else (k₀, v₀) :: insert k v ms := rfl

theorem get?_cons (k₀ : Key) (v₀ : Value) (k : Key) (ms : Members) :
    get? k ((k₀, v₀) :: ms) = if k₀.same k then some v₀ else get? k ms := rfl

/-- A member that is written has its value, and all others keep theirs. -/
theorem get?_insert (k : Key) (v : Value) (ms : Members) (k' : Key) :
    get? k' (insert k v ms) = if k.same k' then some v else get? k' ms := by
  induction ms with
  | nil => rfl
  | cons first ms ih =>
    obtain ⟨k₀, v₀⟩ := first
    rw [insert_cons]
    -- the value is replaced at the first key that is the same, and the search stops there as well
    by_cases h : k₀.same k = true
    · rw [if_pos h, get?_cons, get?_cons, Key.same_congr_left h]
      split
      · rfl
      · rfl
    · rw [if_neg h, get?_cons, get?_cons, ih]
      by_cases h₀ : k₀.same k' = true
      · rw [if_pos h₀, if_pos h₀, if_neg]
        intro hk
        exact h ((Key.same_congr_right hk k₀).trans h₀)
      · rw [if_neg h₀, if_neg h₀]

/-- Whether a key is written among members. -/
def Holds (k : Key) (ms : Members) : Prop := ∃ m ∈ ms, m.1.same k = true

theorem holds_cons {k₀ : Key} {v₀ : Value} :
    Holds k ((k₀, v₀) :: ms) ↔ k₀.same k = true ∨ Holds k ms := by
  simp [Holds]

/-- A key that is there keeps its place, and a new one comes last. -/
theorem keys_insert_of_holds (h : Holds k ms) (v : Value) :
    (insert k v ms).map Prod.fst = ms.map Prod.fst := by
  induction ms with
  | nil =>
    obtain ⟨m, hm, -⟩ := h
    cases hm
  | cons first ms ih =>
    obtain ⟨k₀, v₀⟩ := first
    rw [insert_cons]
    split
    next => rfl
    next hne =>
      rw [List.map_cons, List.map_cons, ih ((holds_cons.mp h).resolve_left hne)]

/-- A key that is not there yet comes last. -/
theorem keys_insert_of_not_holds (h : ¬Holds k ms) (v : Value) :
    (insert k v ms).map Prod.fst = ms.map Prod.fst ++ [k] := by
  induction ms with
  | nil => rfl
  | cons first ms ih =>
    obtain ⟨k₀, v₀⟩ := first
    rw [holds_cons, not_or] at h
    rw [insert_cons, if_neg h.1, List.map_cons, ih h.2]
    rfl

/-- Whether no two members have the same key. -/
def Distinct (ms : Members) : Prop := ms.Pairwise fun a b => a.1.same b.1 = false

instance (ms : Members) : Decidable (Distinct ms) :=
  inferInstanceAs (Decidable (ms.Pairwise fun a b => a.1.same b.1 = false))

/-- What is there after a write is what was there and what is written. -/
theorem holds_insert (k : Key) (v : Value) (ms : Members) (k' : Key) :
    Holds k' (insert k v ms) ↔ k.same k' = true ∨ Holds k' ms := by
  induction ms with
  | nil => exact holds_cons
  | cons first ms ih =>
    obtain ⟨k₀, v₀⟩ := first
    rw [insert_cons]
    split
    next h =>
      rw [holds_cons, holds_cons, Key.same_congr_left h, ← or_assoc, or_self]
    next => rw [holds_cons, holds_cons, ih, or_left_comm]

/-- Keys are distinct if the first one is not there again. -/
theorem distinct_cons {k₀ : Key} {v₀ : Value} :
    Distinct ((k₀, v₀) :: ms) ↔ ¬Holds k₀ ms ∧ Distinct ms := by
  unfold Distinct Holds
  rw [List.pairwise_cons]
  refine and_congr_left fun _ => ?_
  constructor
  · rintro h ⟨m, hm, hsame⟩
    have hne := h m hm
    rw [Key.same_comm, hsame] at hne
    cases hne
  · intro h m hm
    rw [Key.same_comm, Bool.eq_false_iff]
    exact fun hsame => h ⟨m, hm, hsame⟩

/-- A write keeps keys distinct: it adds a key only where no such key is. -/
theorem Distinct.insert (h : Distinct ms) (k : Key) (v : Value) : Distinct (insert k v ms) := by
  induction ms with
  | nil => exact List.pairwise_singleton _ _
  | cons first ms ih =>
    obtain ⟨k₀, v₀⟩ := first
    obtain ⟨hfirst, hrest⟩ := distinct_cons.mp h
    rw [insert_cons]
    split
    next => exact distinct_cons.mpr ⟨hfirst, hrest⟩
    next hne =>
      refine distinct_cons.mpr ⟨?_, ih hrest⟩
      rw [holds_insert, Key.same_comm]
      exact fun hor => hor.elim hne hfirst

/-! ## A sequence of writes -/

@[simp] theorem insertAll_nil (ms : Members) : ms.insertAll [] = ms := rfl

theorem insertAll_cons (ms : Members) (k : Key) (v : Value) (ws : Members) :
    ms.insertAll ((k, v) :: ws) = (insert k v ms).insertAll ws := rfl

/-- Writes one after the other. -/
theorem insertAll_append (ms ws ws' : Members) :
    ms.insertAll (ws ++ ws') = (ms.insertAll ws).insertAll ws' := List.foldl_append

/-- The keys in the order in which each of them comes first. -/
def firsts : List Key → List Key
  | [] => []
  | k :: ks => k :: (firsts ks).filter fun k' => !k.same k'

/-- The value of the last write under a key. -/
def lastWrite (k : Key) (ws : Members) : Option Value :=
  (ws.reverse.find? fun w => w.1.same k).map Prod.snd

/-- What a sequence of writes leaves. -/
structure Collapsed (ws ms : Members) : Prop where
  /-- Every key is there only once, -/
  distinct : Distinct ms
  /-- in the order of the first writes, -/
  order : ms.map Prod.fst = firsts (ws.map Prod.fst)
  /-- with the value of the last write. -/
  values : ∀ k, get? k ms = lastWrite k ws

/-- Keys stay distinct through any sequence of writes. -/
theorem Distinct.insertAll (h : Distinct ms) (ws : Members) : Distinct (ms.insertAll ws) := by
  induction ws generalizing ms with
  | nil => exact h
  | cons w ws ih => exact ih (h.insert w.1 w.2)

/-- A member has the value written last, or the one it had if none is written. Induction on the
writes, of which the last one is what counts. -/
theorem get?_insertAll (ms ws : Members) (k : Key) :
    get? k (ms.insertAll ws) = (lastWrite k ws).or (get? k ms) := by
  induction ws generalizing ms with
  | nil => rfl
  | cons w ws ih =>
    obtain ⟨k₀, v₀⟩ := w
    rw [insertAll_cons, ih, get?_insert, lastWrite, lastWrite, List.reverse_cons, List.find?_append]
    cases ws.reverse.find? fun w => w.1.same k with
    | some last => rfl
    | none =>
      by_cases h : k₀.same k = true
      · simp [h]
      · simp [h]

/-- A key that came before does not come first. -/
theorem filter_firsts (k₀ : Key) (h : k₀.same k = true) (ks rest : List Key) :
    (firsts (ks ++ k :: rest)).filter (fun k' => !k₀.same k')
      = (firsts (ks ++ rest)).filter fun k' => !k₀.same k' := by
  induction ks with
  | nil =>
    -- a key that is the same as `k` is dropped on both sides, whichever of the two is asked
    have hsame : (fun k' => !k.same k') = fun k' => !k₀.same k' := by
      funext k'
      rw [Key.same_congr_left h]
    rw [List.nil_append, List.nil_append, firsts, hsame, List.filter_cons_of_neg (by simp [h]),
      List.filter_filter]
    simp only [Bool.and_self]
  | cons k₁ ks ih =>
    have hswap : ∀ ks : List Key,
        (ks.filter fun k' => !k₁.same k').filter (fun k' => !k₀.same k')
          = (ks.filter fun k' => !k₀.same k').filter fun k' => !k₁.same k' := by
      intro ks
      simp only [List.filter_filter, Bool.and_comm]
    rw [List.cons_append, List.cons_append, firsts, firsts, List.filter_cons, List.filter_cons,
      hswap, ih, hswap]

/-- A key that is there already does not come up again. -/
theorem firsts_of_mem {ks : List Key} (h : ∃ k₀ ∈ ks, k₀.same k = true) (rest : List Key) :
    firsts (ks ++ k :: rest) = firsts (ks ++ rest) := by
  induction ks with
  | nil =>
    obtain ⟨k₀, hk₀, -⟩ := h
    cases hk₀
  | cons k₀ ks ih =>
    rw [List.cons_append, List.cons_append, firsts, firsts]
    rw [List.exists_mem_cons_iff] at h
    cases h with
    | inl hhead => rw [filter_firsts k₀ hhead]
    | inr hrest => rw [ih hrest]

theorem holds_iff : Holds k ms ↔ ∃ k₀ ∈ ms.map Prod.fst, k₀.same k = true := by
  simp [Holds]

/-- Of distinct keys each one comes first. -/
theorem firsts_of_distinct (h : Distinct ms) : firsts (ms.map Prod.fst) = ms.map Prod.fst := by
  induction ms with
  | nil => rfl
  | cons first ms ih =>
    obtain ⟨k₀, v₀⟩ := first
    obtain ⟨hfirst, hrest⟩ := distinct_cons.mp h
    rw [List.map_cons, firsts, ih hrest]
    refine congrArg (k₀ :: ·) (List.filter_eq_self.mpr fun k' hk' => ?_)
    rw [Bool.not_eq_true', Bool.eq_false_iff, Key.same_comm]
    exact fun hsame => hfirst (holds_iff.mpr ⟨k', hk', hsame⟩)

/-- The keys in the end are those that were there and then the new ones, in the order in which they
are first written. -/
theorem keys_insertAll (h : Distinct ms) (ws : Members) :
    (ms.insertAll ws).map Prod.fst = firsts (ms.map Prod.fst ++ ws.map Prod.fst) := by
  induction ws generalizing ms with
  | nil => rw [insertAll_nil, List.map_nil, List.append_nil, firsts_of_distinct h]
  | cons w ws ih =>
    obtain ⟨k, v⟩ := w
    rw [insertAll_cons, ih (h.insert k v), List.map_cons]
    by_cases hheld : Holds k ms
    · rw [keys_insert_of_holds hheld, firsts_of_mem (holds_iff.mp hheld)]
    · rw [keys_insert_of_not_holds hheld, List.append_assoc]
      rfl

theorem get?_of_not_holds (h : ¬Holds k ms) : get? k ms = none := by
  induction ms with
  | nil => rfl
  | cons first ms ih =>
    obtain ⟨k₀, v₀⟩ := first
    rw [holds_cons, not_or] at h
    rw [get?_cons, if_neg h.1, ih h.2]

theorem isSome_get?_iff : (get? k ms).isSome = true ↔ Holds k ms := by
  induction ms with
  | nil => simp [get?, Holds]
  | cons first ms ih =>
    obtain ⟨k₀, v₀⟩ := first
    rw [holds_cons, get?_cons, ← ih]
    split
    next h => simp [h]
    next h => simp [h]

/-- A value that is found is that of some member. -/
theorem exists_mem_of_get? {v : Value} (h : get? k ms = some v) : ∃ k₀, (k₀, v) ∈ ms := by
  induction ms with
  | nil => cases h
  | cons first ms ih =>
    obtain ⟨k₀, v₀⟩ := first
    rw [get?_cons] at h
    split at h
    next =>
      obtain rfl := Option.some.inj h
      exact ⟨k₀, List.mem_cons_self⟩
    next =>
      obtain ⟨k₁, hmem⟩ := ih h
      exact ⟨k₁, List.mem_cons_of_mem _ hmem⟩

/-- Members with the same keys and the same values are the same. -/
theorem eq_of_get? (h : Distinct ms) (h' : Distinct ms')
    (hkeys : ms.map Prod.fst = ms'.map Prod.fst) (hvalues : ∀ k, get? k ms = get? k ms') :
    ms = ms' := by
  induction ms generalizing ms' with
  | nil => exact (List.map_eq_nil_iff.mp hkeys.symm).symm
  | cons first ms ih =>
    obtain ⟨k₀, v₀⟩ := first
    cases ms' with
    | nil => cases hkeys
    | cons first' ms' =>
      obtain ⟨k₁, v₁⟩ := first'
      rw [List.map_cons, List.map_cons, List.cons.injEq] at hkeys
      obtain ⟨rfl, hkeys⟩ := hkeys
      obtain ⟨hfirst, hrest⟩ := distinct_cons.mp h
      obtain ⟨hfirst', hrest'⟩ := distinct_cons.mp h'
      have hv : v₀ = v₁ := by
        have h₀ := hvalues k₀
        rw [get?_cons, get?_cons, if_pos (Key.same_refl _), if_pos (Key.same_refl _)] at h₀
        exact Option.some.inj h₀
      have htail : ∀ k, get? k ms = get? k ms' := by
        intro k
        by_cases hk : k₀.same k = true
        · -- the key of the first members is that of no later one
          have hlater : ∀ {ms : Members}, ¬Holds k₀ ms → ¬Holds k ms := by
            rintro ms hms ⟨m, hm, hsame⟩
            exact hms ⟨m, hm, (Key.same_congr_right hk m.1).trans hsame⟩
          rw [get?_of_not_holds (hlater hfirst), get?_of_not_holds (hlater hfirst')]
        · have hboth := hvalues k
          rw [get?_cons, get?_cons, if_neg hk, if_neg hk] at hboth
          exact hboth
      rw [hv, ih hrest hrest' hkeys htail]

/-- **What a sequence of writes leaves**, and nothing else is that. -/
theorem collapsed_iff : Collapsed ws ms ↔ Members.insertAll [] ws = ms := by
  have hdistinct : Distinct (Members.insertAll [] ws) := Distinct.insertAll List.Pairwise.nil ws
  have horder : (Members.insertAll [] ws).map Prod.fst = firsts (ws.map Prod.fst) :=
    keys_insertAll List.Pairwise.nil ws
  have hvalues : ∀ k, get? k (Members.insertAll [] ws) = lastWrite k ws := by
    intro k
    rw [get?_insertAll]
    exact Option.or_none
  constructor
  · intro h
    refine eq_of_get? hdistinct h.distinct (horder.trans h.order.symm) fun k => ?_
    rw [hvalues, h.values]
  · rintro rfl
    exact ⟨hdistinct, horder, hvalues⟩

/-! ## Writes within writes -/

/-- A write is as good earlier as later when its key is there already and is not written between. -/
theorem insert_insert_comm (hne : k.same k' = false) (hheld : Holds k ms) (v v' : Value) :
    insert k v (insert k' v' ms) = insert k' v' (insert k v ms) := by
  induction ms with
  | nil =>
    obtain ⟨m, hm, -⟩ := hheld
    cases hm
  | cons first ms ih =>
    obtain ⟨k₀, v₀⟩ := first
    rw [insert_cons, insert_cons]
    -- the earlier of the two members is replaced first, and the other behind it
    by_cases hk : k₀.same k = true
    · have hk' : ¬k₀.same k' = true := by
        rw [Key.same_congr_left hk, hne]
        exact Bool.false_ne_true
      rw [if_neg hk', if_pos hk, insert_cons, insert_cons, if_pos hk, if_neg hk']
    · rw [if_neg hk]
      by_cases hk' : k₀.same k' = true
      · rw [if_pos hk', insert_cons, insert_cons, if_neg hk, if_pos hk']
      · rw [if_neg hk', insert_cons, insert_cons, if_neg hk, if_neg hk',
          ih ((holds_cons.mp hheld).resolve_left hk)]

/-- Of two writes to one member the second one counts. -/
theorem insert_insert_self (hsame : k.same k' = true) (v v' : Value) (ms : Members) :
    insert k' v' (insert k v ms) = insert k v' ms := by
  induction ms with
  | nil =>
    rw [insert, insert_cons, if_pos hsame]
    rfl
  | cons first ms ih =>
    obtain ⟨k₀, v₀⟩ := first
    rw [insert_cons, insert_cons]
    by_cases hk : k₀.same k = true
    · rw [if_pos hk, if_pos hk, insert_cons, if_pos ((Key.same_congr_right hsame k₀).symm.trans hk)]
    · have hk' : ¬k₀.same k' = true := by
        rw [← Key.same_congr_right hsame]
        exact hk
      rw [if_neg hk, if_neg hk, insert_cons, if_neg hk', ih]

/-- A write to a member that is there, and that no later write concerns, may as well come last. -/
theorem insertAll_insert_of_holds (hnew : ¬Holds k ws) (hheld : Holds k ms) (v : Value) :
    (insert k v ms).insertAll ws = insert k v (ms.insertAll ws) := by
  induction ws generalizing ms with
  | nil => rfl
  | cons w ws ih =>
    obtain ⟨k', v'⟩ := w
    rw [holds_cons, not_or, Key.same_comm, Bool.not_eq_true] at hnew
    have hheld' : Holds k (insert k' v' ms) := (holds_insert k' v' ms k).mpr (.inr hheld)
    rw [insertAll_cons, insertAll_cons, ← insert_insert_comm hnew.1 hheld, ih hnew.2 hheld']

/-- A write among new members is the last write to the members they are put into. -/
theorem insertAll_insert (h : Distinct new) (before : Members) (k : Key) (v : Value) :
    before.insertAll (insert k v new) = insert k v (before.insertAll new) := by
  induction new generalizing before with
  | nil => rfl
  -- a write that meets the first of the new members replaces its write, any other one comes later
  | cons first new ih =>
    obtain ⟨k₀, v₀⟩ := first
    obtain ⟨hfirst, hrest⟩ := distinct_cons.mp h
    rw [insert_cons]
    split
    next hsame =>
      have hheld : Holds k (insert k₀ v₀ before) := (holds_insert k₀ v₀ before k).mpr (.inl hsame)
      have hnew : ¬Holds k new := by
        rintro ⟨m, hm, hk⟩
        exact hfirst ⟨m, hm, (Key.same_congr_right hsame m.1).trans hk⟩
      rw [insertAll_cons, insertAll_cons, ← insertAll_insert_of_holds hnew hheld,
        insert_insert_self hsame]
    next => rw [insertAll_cons, insertAll_cons, ih hrest]

/-- Writes into written members may be made at once. Induction on the later writes, from the last
one. -/
theorem insertAll_insertAll_of_distinct (h : Distinct new) (before ws : Members) :
    before.insertAll (new.insertAll ws) = (before.insertAll new).insertAll ws := by
  induction ws using List.reverseRecOn with
  | nil => rfl
  | append_singleton ws w ih =>
    rw [insertAll_append, insertAll_append, ← ih]
    exact insertAll_insert (h.insertAll ws) before w.1 w.2

/-- **Writes may be collapsed on the way.** What a sequence of writes leaves can be written in its
place. -/
theorem insertAll_insertAll (before ws : Members) :
    before.insertAll (Members.insertAll [] ws) = before.insertAll ws :=
  insertAll_insertAll_of_distinct List.Pairwise.nil before ws

/-! ## Writing what is there -/

/-- Writing a member with the value it has changes nothing. -/
theorem insert_eq_self (h : Distinct ms) {k : Key} {v : Value} (hmem : (k, v) ∈ ms) :
    insert k v ms = ms := by
  induction ms with
  | nil => cases hmem
  | cons first ms ih =>
    obtain ⟨k₀, v₀⟩ := first
    obtain ⟨hfirst, hrest⟩ := distinct_cons.mp h
    rw [insert_cons]
    rcases List.mem_cons.mp hmem with heq | hmem
    · obtain ⟨rfl, rfl⟩ := Prod.mk.inj heq
      rw [if_pos (Key.same_refl k)]
    · rw [if_neg, ih hrest hmem]
      rw [Key.same_comm]
      exact fun hsame => hfirst ⟨(k, v), hmem, hsame⟩

/-- Writing members that are there changes nothing. -/
theorem insertAll_eq_self (h : Distinct ms) (hsub : ∀ w ∈ ws, w ∈ ms) : ms.insertAll ws = ms := by
  induction ws with
  | nil => rfl
  | cons w ws ih =>
    obtain ⟨hw, hws⟩ := List.forall_mem_cons.mp hsub
    rw [insertAll_cons, insert_eq_self h hw, ih hws]

theorem forall_mem_insert {P : Value → Prop} (h : ∀ m ∈ ms, P m.2) (k : Key) {v : Value}
    (hv : P v) : ∀ m ∈ insert k v ms, P m.2 := by
  induction ms with
  | nil => exact List.forall_mem_singleton.mpr hv
  | cons first ms ih =>
    obtain ⟨k₀, v₀⟩ := first
    obtain ⟨hfirst, hrest⟩ := List.forall_mem_cons.mp h
    rw [insert_cons]
    split
    next => exact List.forall_mem_cons.mpr ⟨hv, hrest⟩
    next => exact List.forall_mem_cons.mpr ⟨hfirst, ih hrest⟩

/-- What holds of all values that are there and of all that are written holds of all in the end. -/
theorem forall_mem_insertAll {P : Value → Prop} (h : ∀ m ∈ ms, P m.2) (hws : ∀ w ∈ ws, P w.2) :
    ∀ m ∈ ms.insertAll ws, P m.2 := by
  induction ws generalizing ms with
  | nil => exact h
  | cons w ws ih =>
    obtain ⟨hw, hws⟩ := List.forall_mem_cons.mp hws
    exact ih (forall_mem_insert h w.1 hw) hws

/-- A write brings in no key but its own. -/
theorem fst_mem_of_mem_insert {m : Key × Value} {k : Key} {v : Value}
    (h : m ∈ insert k v ms) : m.1 = k ∨ m.1 ∈ ms.map Prod.fst := by
  have hmem : m.1 ∈ (insert k v ms).map Prod.fst := List.mem_map_of_mem h
  by_cases hheld : Holds k ms
  · rw [keys_insert_of_holds hheld] at hmem
    exact .inr hmem
  · rw [keys_insert_of_not_holds hheld, List.mem_append, List.mem_singleton] at hmem
    exact hmem.symm

/-- No keys are there in the end but those that were there and those that were written. -/
theorem fst_mem_of_mem_insertAll {m : Key × Value} (h : m ∈ ms.insertAll ws) :
    m.1 ∈ ms.map Prod.fst ∨ m.1 ∈ ws.map Prod.fst := by
  induction ws generalizing ms with
  | nil => exact .inl (List.mem_map_of_mem h)
  | cons w ws ih =>
    rw [List.map_cons, List.mem_cons]
    rcases ih h with hheld | hlater
    · obtain ⟨m', hm', heq⟩ := List.mem_map.mp hheld
      rw [← heq]
      rcases fst_mem_of_mem_insert hm' with hfirst | hold
      · exact .inr (.inl hfirst)
      · exact .inl hold
    · exact .inr (.inr hlater)

end Members

end OptionTypes
