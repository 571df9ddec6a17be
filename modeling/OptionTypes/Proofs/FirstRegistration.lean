import OptionTypes.Proofs.Outcome
import OptionTypes.Proofs.Preorder
import OptionTypes.Registration

/-!
# The first registration counts

A script may register a command several times: one after the other, in a chain of calls, within the
arguments of another registration, in any mixture. The schema that counts is the one of the call
whose arguments come first in the order of the document.

A registration has a `Site`: the path to the call and the place of the arguments in it. The sites
of a chain are in order from the innermost call on, since the callee of a call stands before its
arguments, and the sites within arguments come after those arguments.

* `Registers` says what makes a call with its arguments register a command.
* `firstSchema?_eq_some_iff`: among visits in order, the first one that registers counts.
* `schema?_eq_first`: what counts in a whole script.
-/

namespace OptionTypes.Registration

open Syntax

/-! ## Registrations -/

/-- A call that calls a member named `command`. -/
def CallsMethod (source : Bytes) (call : Tree) : Prop :=
  call.is .callExpression = true
    ∧ ∃ callee, call.child? .callee = some callee ∧ callee.is .memberExpression = true
      ∧ ∃ name, callee.child? .property = some name ∧ name.is .propertyIdentifier = true
        ∧ name.text source = "command"

/-- The name that the arguments of a call give, where it is a string and enough arguments follow:
the call may register a command of that name. -/
structure Candidate (source : Bytes) (call arguments name : Tree) : Prop where
  calls : CallsMethod source call
  isList : arguments.is .arguments = true
  first : arguments.operands[0]? = some name
  isString : name.is .string = true
  enough : 3 < arguments.operands.length

/-- A call registers a command with a schema, its fourth argument. -/
structure Registers (source : Bytes) (command : Text) (call arguments schema : Tree) : Prop where
  calls : CallsMethod source call
  isList : arguments.is .arguments = true
  named : ∃ name, arguments.operands[0]? = some name ∧ name.is .string = true
    ∧ Evaluation.stringValue source name = .ok command
  fourth : arguments.operands[3]? = some schema
  isObject : schema.is .object = true

/-- Where the arguments of a call are: the path to the call, and their place in it. -/
structure Site where
  call : List Nat
  place : Nat

/-- The path to the arguments. -/
def Site.path (s : Site) : List Nat := s.call ++ [s.place]

/-- A call and arguments of it at a site of a tree. -/
def Site.Holds (root : Tree) (s : Site) (call arguments : Tree) : Prop :=
  root.at? true s.call = some call ∧ call.namedChildren[s.place]? = some arguments

/-- A script registers a command with a schema at a site. -/
def RegistersAt (script : Script) (command : Text) (s : Site) (schema : Tree) : Prop :=
  ∃ call arguments, s.Holds script.root call arguments
    ∧ Registers script.source command call arguments schema

/-- A script registers a command with a schema at a site and nowhere before. -/
def RegistersFirstAt (script : Script) (command : Text) (s : Site) (schema : Tree) : Prop :=
  RegistersAt script command s schema
    ∧ ∀ other schema', RegistersAt script command other schema' → ¬other.path < s.path

/-- The call of a site lies in the callee of the call of another site. The callee stands before the
arguments. -/
def InCallee (root : Tree) (inner outer : Site) : Prop :=
  ∃ call callee c rest, root.at? true outer.call = some call
    ∧ call.child? .callee = some callee ∧ call.namedChildren[c]? = some callee ∧ c < outer.place
    ∧ inner.call = outer.call ++ c :: rest

/-- The call of a site lies in the arguments at another site. -/
def InArguments (inner outer : Site) : Prop := ∃ rest, inner.call = outer.path ++ rest

/-- Of two sites one within the other, the one that comes first: the inner one if it is in the
callee, the outer one if the inner one is in the arguments. -/
def Leads (root : Tree) (first second : Site) : Prop :=
  InCallee root first second ∨ InArguments second first

/-! ## What a visit registers -/

/-- A call registers a command if its callee is a property with the name for that. -/
theorem registers_iff {source : Bytes} {call : Tree} (hcall : call.is .callExpression = true) :
    registers source call = true ↔ CallsMethod source call := by
  rw [CallsMethod, registers]
  -- a call without a callee registers nothing, and neither does a callee without a property
  cases call.child? .callee with
  | none => simp
  | some callee =>
    cases hproperty : callee.child? .property with
    | none => simp [hproperty]
    | some name =>
      simp only [hcall, hproperty, Bool.and_eq_true, decide_eq_true_eq, true_and,
        Option.some.injEq, exists_eq_left']
      rfl

/-- A call registers what its arguments say, once its callee is the right one. -/
theorem schemaOf?_eq (source : Bytes) (command : Text) (call arguments : Tree) :
    schemaOf? source command call arguments =
      if registers source call then
        match arguments.operands[0]?, arguments.operands[3]? with
        | some name, some schema =>
          if name.is .string then
            (Evaluation.stringValue source name).map fun text =>
              if text = command ∧ schema.is .object = true then some schema else none
          else .ok none
        | _, _ => .ok none
      else .ok none := by
  simp only [schemaOf?, schemaPlace, List.head?_eq_getElem?]
  -- the checks in their order, each of which may end the search for this call
  cases registers source call with
  | false => rfl
  | true =>
    cases arguments.operands[0]? with
    | none => rfl
    | some name =>
      cases arguments.operands[3]? with
      | none => rfl
      | some schema =>
        cases hstring : name.is .string with
        | false =>
          simp only [hstring]
          rfl
        | true =>
          simp only [hstring]
          cases Evaluation.stringValue source name with
          | error e => rfl
          | ok text =>
            by_cases hname : text = command
            · simp only [Except.map, hname, true_and]
              exact if_neg (not_not_intro rfl)
            · simp only [Except.map, hname, false_and, if_false]
              exact if_pos hname

theorem Candidate.exists_fourth {source : Bytes} {call arguments name : Tree}
    (h : Candidate source call arguments name) :
    ∃ schema, arguments.operands[3]? = some schema :=
  ⟨_, List.getElem?_eq_getElem h.enough⟩

/-- A registration is a candidate whose name is the command's. -/
theorem Registers.exists_candidate {source : Bytes} {command : Text} {call arguments schema : Tree}
    (h : Registers source command call arguments schema) :
    ∃ name, Candidate source call arguments name
      ∧ Evaluation.stringValue source name = .ok command := by
  obtain ⟨name, hfirst, hstring, htext⟩ := h.named
  have henough : 3 < arguments.operands.length := (List.getElem?_eq_some_iff.mp h.fourth).1
  exact ⟨name, ⟨h.calls, h.isList, hfirst, hstring, henough⟩, htext⟩

/-- What a candidate registers depends on its name and on its fourth argument. -/
theorem schemaAt?_of_candidate {source : Bytes} {command : Text} {v : Visit}
    {call name schema : Tree} (hparent : v.parent = some call)
    (h : Candidate source call v.tree name) (hfourth : v.tree.operands[3]? = some schema) :
    schemaAt? source command v = (Evaluation.stringValue source name).map fun text =>
      if text = command ∧ schema.is .object = true then some schema else none := by
  simp only [schemaAt?, hparent, h.isList, h.calls.1, Bool.and_self, if_true]
  rw [schemaOf?_eq, if_pos ((registers_iff h.calls.1).mpr h.calls), h.first, hfourth]
  exact if_pos h.isString

/-- What is no candidate registers nothing. -/
theorem schemaAt?_of_not_candidate {source : Bytes} {command : Text} {v : Visit}
    (h : ¬∃ call name, v.parent = some call ∧ Candidate source call v.tree name) :
    schemaAt? source command v = .ok none := by
  rw [schemaAt?]
  cases hparent : v.parent with
  | none => rfl
  | some call =>
    simp only
    -- one condition after the other; where one fails nothing is registered
    split
    next hkinds =>
      rw [Bool.and_eq_true] at hkinds
      rw [schemaOf?_eq]
      split
      next hcalls =>
        split
        next name schema hfirst hfourth =>
          refine if_neg fun hstring => h ⟨call, name, hparent, ?_⟩
          exact ⟨(registers_iff hkinds.2).mp hcalls, hkinds.1, hfirst, hstring,
            (List.getElem?_eq_some_iff.mp hfourth).1⟩
        next => rfl
      next => rfl
    next => rfl

/-- **A visit registers what the call of its parent registers.** -/
theorem schemaAt?_eq_some_iff {source : Bytes} {command : Text} {v : Visit} {schema : Tree} :
    schemaAt? source command v = .ok (some schema)
      ↔ ∃ call, v.parent = some call ∧ Registers source command call v.tree schema := by
  constructor
  · intro h
    -- a visit that is no candidate gives nothing
    by_cases hcandidates : ∃ call name, v.parent = some call ∧ Candidate source call v.tree name
    · obtain ⟨call, name, hparent, hcandidate⟩ := hcandidates
      obtain ⟨fourth, hfourth⟩ := hcandidate.exists_fourth
      rw [schemaAt?_of_candidate hparent hcandidate hfourth] at h
      obtain ⟨text, htext, hresult⟩ := Outcome.map_eq_ok_iff.mp h
      split at hresult
      next hboth =>
        obtain ⟨rfl, hobject⟩ := hboth
        cases hresult
        exact ⟨call, hparent, hcandidate.calls, hcandidate.isList,
          ⟨name, hcandidate.first, hcandidate.isString, htext⟩, hfourth, hobject⟩
      next => cases hresult
    · rw [schemaAt?_of_not_candidate hcandidates] at h
      cases h
  · rintro ⟨call, hparent, hregisters⟩
    obtain ⟨name, hcandidate, htext⟩ := hregisters.exists_candidate
    rw [schemaAt?_of_candidate hparent hcandidate hregisters.fourth, htext]
    exact congrArg Except.ok (if_pos ⟨rfl, hregisters.isObject⟩)

/-- Only a name that cannot be decoded keeps a visit from being looked at. -/
theorem exists_of_schemaAt?_eq_error {source : Bytes} {command : Text} {v : Visit}
    {e : Escape.Error} (h : schemaAt? source command v = .error e) :
    ∃ call name, v.parent = some call ∧ Candidate source call v.tree name
      ∧ Evaluation.stringValue source name = .error e := by
  by_cases hcandidates : ∃ call name, v.parent = some call ∧ Candidate source call v.tree name
  · obtain ⟨call, name, hparent, hcandidate⟩ := hcandidates
    obtain ⟨fourth, hfourth⟩ := hcandidate.exists_fourth
    rw [schemaAt?_of_candidate hparent hcandidate hfourth] at h
    exact ⟨call, name, hparent, hcandidate, Outcome.map_eq_error_iff.mp h⟩
  · rw [schemaAt?_of_not_candidate hcandidates] at h
    cases h

/-- A visit is decided on if the name it may give can be decoded. -/
theorem exists_schemaAt?_eq_ok {source : Bytes} {command : Text} {v : Visit}
    (h : ∀ call name, v.parent = some call → Candidate source call v.tree name →
      ∃ text, Evaluation.stringValue source name = .ok text) :
    ∃ result, schemaAt? source command v = .ok result := by
  cases hresult : schemaAt? source command v with
  | ok result => exact ⟨result, rfl⟩
  | error e =>
    obtain ⟨call, name, hparent, hcandidate, he⟩ := exists_of_schemaAt?_eq_error hresult
    obtain ⟨text, htext⟩ := h call name hparent hcandidate
    rw [htext] at he
    cases he

/-! ## The first of several visits -/

/-- **Among visits in order the first one that registers counts.** Induction on the visits; those
before the one looked at register nothing. -/
theorem firstSchema?_eq_some_iff {source : Bytes} {command : Text}
    {xs : List (List Nat × Visit)} {schema : Tree} (horder : xs.Pairwise fun x y => x.1 < y.1)
    (hread : ∀ x ∈ xs, ∃ result, schemaAt? source command x.2 = .ok result) :
    firstSchema? source command (xs.map Prod.snd) = .ok (some schema)
      ↔ ∃ x ∈ xs, schemaAt? source command x.2 = .ok (some schema)
        ∧ ∀ y ∈ xs, ∀ schema', schemaAt? source command y.2 = .ok (some schema') →
          ¬y.1 < x.1 := by
  induction xs with
  | nil => simp [firstSchema?]
  | cons x xs ih =>
    obtain ⟨hx, hrest⟩ := List.pairwise_cons.mp horder
    obtain ⟨result, hresult⟩ := hread x (List.mem_cons_self ..)
    have hnext := ih hrest fun y hy => hread y (List.mem_cons_of_mem _ hy)
    rw [List.map_cons, firstSchema?, hresult]
    cases result with
    | some found =>
      -- the first visit registers, and all others come after it
      constructor
      · intro h
        cases h
        refine ⟨x, List.mem_cons_self .., hresult, ?_⟩
        intro y hy schema' _
        rcases List.mem_cons.mp hy with rfl | hy
        · exact List.lt_irrefl _
        · exact List.lt_asymm (hx y hy)
      · rintro ⟨y, hy, hschema, hfirst⟩
        rcases List.mem_cons.mp hy with rfl | hy
        · rw [hresult] at hschema
          cases hschema
          rfl
        · exact absurd (hx y hy) (hfirst x (List.mem_cons_self ..) found hresult)
    | none =>
      -- the first visit registers nothing, so it is neither the one nor before it
      refine hnext.trans ?_
      constructor
      · rintro ⟨y, hy, hschema, hfirst⟩
        refine ⟨y, List.mem_cons_of_mem _ hy, hschema, ?_⟩
        intro z hz schema' hz'
        rcases List.mem_cons.mp hz with rfl | hz
        · rw [hresult] at hz'
          cases hz'
        · exact hfirst z hz schema' hz'
      · rintro ⟨y, hy, hschema, hfirst⟩
        rcases List.mem_cons.mp hy with rfl | hy
        · rw [hresult] at hschema
          cases hschema
        · exact ⟨y, hy, hschema, fun z hz => hfirst z (List.mem_cons_of_mem _ hz)⟩

/-- Nothing counts if no visit registers. -/
theorem firstSchema?_eq_none_iff {source : Bytes} {command : Text}
    {xs : List (List Nat × Visit)}
    (hread : ∀ x ∈ xs, ∃ result, schemaAt? source command x.2 = .ok result) :
    firstSchema? source command (xs.map Prod.snd) = .ok none
      ↔ ¬∃ x ∈ xs, ∃ schema, schemaAt? source command x.2 = .ok (some schema) := by
  induction xs with
  | nil => simp [firstSchema?]
  | cons x xs ih =>
    obtain ⟨result, hresult⟩ := hread x (List.mem_cons_self ..)
    rw [List.map_cons, firstSchema?, hresult]
    -- a visit that gives a schema ends the search, any other one leaves it to the visits behind it
    cases result with
    | some found =>
      constructor
      · intro h
        cases h
      · intro h
        exact absurd ⟨x, List.mem_cons_self .., found, hresult⟩ h
    | none =>
      refine (ih fun y hy => hread y (List.mem_cons_of_mem _ hy)).trans (not_congr ?_)
      constructor
      · rintro ⟨y, hy, h⟩
        exact ⟨y, List.mem_cons_of_mem _ hy, h⟩
      · rintro ⟨y, hy, schema, h⟩
        rcases List.mem_cons.mp hy with rfl | hy
        · rw [hresult] at h
          cases h
        · exact ⟨y, hy, schema, h⟩

/-! ## Sites and visits -/

/-- The arguments of a call are visited, with the call as their parent. -/
theorem Site.Holds.mem_visits {root : Tree} {s : Site} {call arguments : Tree}
    (h : s.Holds root call arguments) :
    (s.path, ⟨arguments, some call⟩) ∈ visits true none root :=
  concat_mem_visits_iff.mpr ⟨call, h.1, h.2, rfl⟩

/-- A visit of a node below another one is at a site. -/
theorem exists_holds {root call : Tree} {x : List Nat × Visit}
    (hx : x ∈ visits true none root) (hparent : x.2.parent = some call) :
    ∃ s : Site, x.1 = s.path ∧ s.Holds root call x.2.tree := by
  obtain ⟨path, v⟩ := x
  rcases List.eq_nil_or_concat path with rfl | ⟨before, place, rfl⟩
  · -- only the root is visited without a parent
    rw [nil_mem_visits_iff] at hx
    rw [hx] at hparent
    cases hparent
  · rw [List.concat_eq_append, concat_mem_visits_iff] at hx
    obtain ⟨t, ht, harguments, hparent'⟩ := hx
    cases hparent.symm.trans hparent'
    exact ⟨⟨before, place⟩, List.concat_eq_append .., ht, harguments⟩

/-- Where a script registers, a visit does. -/
theorem RegistersAt.exists_visit {script : Script} {command : Text} {s : Site} {schema : Tree}
    (h : RegistersAt script command s schema) :
    ∃ v, (s.path, v) ∈ visits true none script.root
      ∧ schemaAt? script.source command v = .ok (some schema) := by
  obtain ⟨call, arguments, hholds, hregisters⟩ := h
  exact ⟨⟨arguments, some call⟩, hholds.mem_visits,
    schemaAt?_eq_some_iff.mpr ⟨call, rfl, hregisters⟩⟩

/-- Where a visit registers, the script does. -/
theorem exists_registersAt {script : Script} {command : Text} {x : List Nat × Visit}
    {schema : Tree} (hx : x ∈ visits true none script.root)
    (hschema : schemaAt? script.source command x.2 = .ok (some schema)) :
    ∃ s : Site, x.1 = s.path ∧ RegistersAt script command s schema := by
  obtain ⟨call, hparent, hregisters⟩ := schemaAt?_eq_some_iff.mp hschema
  obtain ⟨s, hs, hholds⟩ := exists_holds hx hparent
  exact ⟨s, hs, call, x.2.tree, hholds, hregisters⟩

/-- Every name that a call of a script may register a command under can be decoded. -/
def NamesDecode (script : Script) : Prop :=
  ∀ (s : Site) (call arguments name : Tree), s.Holds script.root call arguments →
    Candidate script.source call arguments name →
      ∃ text, Evaluation.stringValue script.source name = .ok text

/-- Then every visit can be looked at. -/
theorem NamesDecode.forall_visits {script : Script} (h : NamesDecode script) (command : Text) :
    ∀ x ∈ visits true none script.root,
      ∃ result, schemaAt? script.source command x.2 = .ok result := by
  intro x hx
  apply exists_schemaAt?_eq_ok
  intro call name hparent hcandidate
  obtain ⟨s, -, hholds⟩ := exists_holds hx hparent
  exact h s call x.2.tree name hholds hcandidate

/-- Whether the names that calls of a script give can be decoded, by looking at all of them. -/
theorem namesDecode_of_all {script : Script}
    (h : ((walk true script.root).all fun v => v.tree.operands[0]?.all fun name =>
      (Evaluation.stringValue script.source name).isOk) = true) : NamesDecode script := by
  intro s call arguments name hholds hcandidate
  have hwalk : (⟨arguments, some call⟩ : Visit) ∈ walk true script.root := by
    rw [walk_eq]
    exact List.mem_map_of_mem hholds.mem_visits
  have hok := List.all_eq_true.mp h _ hwalk
  simp only [hcandidate.first, Option.all_some] at hok
  cases htext : Evaluation.stringValue script.source name with
  | error e =>
    rw [htext] at hok
    cases hok
  | ok text => exact ⟨text, rfl⟩

/-! ## Chains and nested calls -/

/-- A registration in the callee of another one comes first: a callee stands before its
arguments. -/
theorem InCallee.path_lt {root : Tree} {inner outer : Site} (h : InCallee root inner outer) :
    inner.path < outer.path := by
  obtain ⟨call, callee, c, rest, -, -, -, hbefore, hpath⟩ := h
  rw [Site.path, Site.path, hpath, List.append_assoc]
  -- the two paths part at the outer call, where the callee stands before the arguments
  exact List.append_left_lt (List.cons_lt_cons_iff.mpr (.inl hbefore))

/-- A registration within the arguments of another one comes after it: its path goes on from
theirs. -/
theorem InArguments.path_lt {inner outer : Site} (h : InArguments inner outer) :
    outer.path < inner.path := by
  obtain ⟨rest, hpath⟩ := h
  have hmore : [] < rest ++ [inner.place] := by
    cases rest with
    | nil => exact List.nil_lt_cons _ _
    | cons i rest => exact List.nil_lt_cons _ _
  have happend : outer.path ++ [] < outer.path ++ (rest ++ [inner.place]) :=
    List.append_left_lt hmore
  rw [List.append_nil, ← List.append_assoc, ← hpath] at happend
  exact happend

theorem Leads.path_lt {root : Tree} {first second : Site} (h : Leads root first second) :
    first.path < second.path := by
  rcases h with h | h
  · exact h.path_lt
  · exact h.path_lt

/-- **The first site of a chain comes before all others.** Induction on the length of the chain. -/
theorem path_lt_of_isChain {root : Tree} {first : Site} {sites : List Site}
    (h : List.IsChain (Leads root) (first :: sites)) :
    ∀ s ∈ sites, first.path < s.path := by
  induction sites generalizing first with
  | nil => simp
  | cons second sites ih =>
    obtain ⟨hleads, hchain⟩ := List.isChain_cons_cons.mp h
    intro s hs
    rcases List.mem_cons.mp hs with rfl | hs
    · exact hleads.path_lt
    · exact List.lt_trans hleads.path_lt (ih hchain s hs)

/-! ## The schema of a command -/

/-- What a script says about a command is its first registration. -/
theorem schema?_eq_some_iff {script : Script} {command : Text} {schema : Tree}
    (hnames : NamesDecode script) :
    schema? script command = .ok (some schema)
      ↔ ∃ s, RegistersFirstAt script command s schema := by
  rw [schema?, walk_eq, firstSchema?_eq_some_iff (pairwise_visits true none script.root)
    (hnames.forall_visits command)]
  constructor
  · rintro ⟨x, hx, hschema, hnone⟩
    obtain ⟨s, hs, hat⟩ := exists_registersAt hx hschema
    refine ⟨s, hat, ?_⟩
    intro other schema' hother
    obtain ⟨v, hv, hv'⟩ := hother.exists_visit
    rw [← hs]
    exact hnone _ hv schema' hv'
  · rintro ⟨s, hat, hnone⟩
    obtain ⟨v, hv, hschema⟩ := hat.exists_visit
    refine ⟨(s.path, v), hv, hschema, ?_⟩
    intro y hy schema' hy'
    obtain ⟨other, hpath, hother⟩ := exists_registersAt hy hy'
    rw [hpath]
    exact hnone other schema' hother

/-- A script says nothing about a command that it does not register. -/
theorem schema?_eq_none_iff {script : Script} {command : Text} (hnames : NamesDecode script) :
    schema? script command = .ok none ↔ ¬∃ s schema, RegistersAt script command s schema := by
  rw [schema?, walk_eq, firstSchema?_eq_none_iff (hnames.forall_visits command)]
  refine not_congr ⟨?_, ?_⟩
  · rintro ⟨x, hx, schema, hschema⟩
    obtain ⟨s, -, hat⟩ := exists_registersAt hx hschema
    exact ⟨s, schema, hat⟩
  · rintro ⟨s, schema, hat⟩
    obtain ⟨v, hv, hschema⟩ := hat.exists_visit
    exact ⟨(s.path, v), hv, schema, hschema⟩

/-- **The first registration in the order of the document counts.** There is none only if the script
does not register the command. Of registrations in a chain of calls, of any length, the innermost
counts, and of registrations within the arguments of others the outermost.

Visits come in the order of their paths, and each of them decides by itself whether it registers the
command (`schemaAt?_eq_some_iff`), so the first one that does is found. In a chain of calls the
inner call lies in the callee, which comes before the arguments. -/
theorem schema?_eq_first (script : Script) (command : Text) (hnames : NamesDecode script) :
    (∀ schema, schema? script command = .ok (some schema)
        ↔ ∃ s, RegistersFirstAt script command s schema)
      ∧ (schema? script command = .ok none
        ↔ ¬∃ s schema, RegistersAt script command s schema)
      ∧ (∀ first second schema schema', Leads script.root first second →
        RegistersAt script command first schema →
          ¬RegistersFirstAt script command second schema')
      ∧ ∀ first sites schema, List.IsChain (Leads script.root) (first :: sites) →
        RegistersAt script command first schema →
        (∀ s schema', RegistersAt script command s schema' → s ∈ first :: sites) →
          schema? script command = .ok (some schema) := by
  refine ⟨fun schema => schema?_eq_some_iff hnames, schema?_eq_none_iff hnames, ?_, ?_⟩
  · intro first second schema schema' hleads hat hfirst
    exact hfirst.2 first schema hat hleads.path_lt
  · intro first sites schema hchain hat hall
    refine (schema?_eq_some_iff hnames).mpr ⟨first, hat, ?_⟩
    intro s schema' hs
    rcases List.mem_cons.mp (hall s schema' hs) with rfl | hmem
    · exact List.lt_irrefl _
    · exact List.lt_asymm (path_lt_of_isChain hchain s hmem)

/-- A script that registers a command twice, in a chain of calls. -/
def chained : Script :=
  let chars := "a.command('r', b, c, \x7b\x7d).command('r', d, e, \x7b\x7d)".toList
  ⟨Utf8.encode chars, Dialect.javascript.parse chars⟩

/-- The inner call of the chain counts. -/
theorem schema?_chained_eq_first :
    NamesDecode chained
      ∧ ∃ s schema, RegistersFirstAt chained "r" s schema ∧ schema.start = 21 := by
  have hnames : NamesDecode chained := namesDecode_of_all (by decide +kernel)
  have hstart : (schema? chained "r").toOption.join.map Tree.start = some 21 := by decide +kernel
  obtain ⟨schema, hschema, hstart⟩ := Option.map_eq_some_iff.mp hstart
  have hfound : schema? chained "r" = .ok (some schema) := by
    cases hresult : schema? chained "r" with
    | error e =>
      rw [hresult] at hschema
      cases hschema
    | ok result =>
      rw [hresult] at hschema
      exact congrArg Except.ok hschema
  obtain ⟨s, hfirst⟩ := ((schema?_eq_first chained "r" hnames).1 schema).mp hfound
  exact ⟨hnames, s, schema, hfirst, hstart⟩

end OptionTypes.Registration
