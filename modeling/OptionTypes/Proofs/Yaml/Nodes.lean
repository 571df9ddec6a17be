import OptionTypes.Proofs.Outcome
import OptionTypes.Proofs.Yaml.Tokens
import OptionTypes.Yaml.Reader

/-!
# How YAML documents fail

Nodes are built from tokens, which are only ever passed. So a failure is that of a document that is
malformed, or a fault among the tokens. The value of a node fails where one of its scalars does, if
the document is not malformed.

* `Node.State.source`: the tokens as a list to consume. Every builder is consuming.
* `Node.Holds`: the scalars of a node.
* `Unread`: why a document has no value; `unread_of_read` is the result.
-/

namespace OptionTypes.Yaml

open Consumption

namespace Node

/-- The tokens of a document, of which a builder has some left. -/
def State.source : Source State Token Error where
  left := State.tokens
  Accounts := fun ts e => e = .malformed ∨ .fault e ∈ ts
  mono := fun hin h => h.imp_right fun hmem => hin.subset hmem

variable {α : Type}

instance consuming_fail : Consuming State.source (fail : Build α) := .failing fun _ => .inl rfl

/-- A fault is told when it is the next token. -/
instance : Consuming State.source peek where
  confined s := by
    unfold peek
    split
    next e rest h =>
      refine .error (.inr ?_)
      show .fault e ∈ s.tokens
      rw [h]
      exact List.mem_cons_self
    next => exact .ok _ (List.suffix_refl s.tokens)
    next => exact .ok _ (List.suffix_refl s.tokens)

instance : Consuming State.source pass := .change fun s => List.drop_suffix 1 s.tokens

instance (t : Token) : Consuming State.source (at? t) := by
  unfold at?
  infer_instance

instance (t : Token) : Consuming State.source (expect t) := by
  unfold expect
  infer_instance

instance (ts : List Token) : Consuming State.source (atAny ts) := by
  unfold atAny
  refine .andThen fun t? => ?_
  cases t? with
  | none => infer_instance
  | some t => infer_instance

instance (t : WrittenTag) : Consuming State.source (tagOf t) := by
  unfold tagOf
  split
  · infer_instance
  · refine .andThen fun s => ?_
    split
    · infer_instance
    · infer_instance

instance : Consuming State.source tag? := by
  unfold tag?
  refine .andThen fun t? => ?_
  split
  · infer_instance
  · infer_instance

instance : Consuming State.source anchor? := by
  unfold anchor?
  refine .andThen fun t? => ?_
  split
  · infer_instance
  · infer_instance

instance : Consuming State.source properties := by
  unfold properties
  refine .andThen fun name? => ?_
  cases name? with
  | some name => infer_instance
  | none =>
    refine .andThen fun tag? => ?_
    cases tag? with
    | some tag => infer_instance
    | none => infer_instance

instance (name : List Char) : Consuming State.source (reserve name) := by
  have hmodify : Consuming State.source (modify fun s : State =>
      { s with anchors := (name, none) :: s.anchors }) := .change fun s => List.suffix_refl s.tokens
  unfold reserve
  infer_instance

instance (name : List Char) (node : Node) : Consuming State.source (finish name node) :=
  .change fun s => List.suffix_refl s.tokens

instance (name : List Char) : Consuming State.source (named name) := by
  unfold named
  refine .andThen fun s => ?_
  split
  · infer_instance
  · infer_instance

/-- The builders with some rounds are consuming. -/
class BuildersConsume (n : Nat) : Prop where
  node : ∀ blocks unindented, Consuming State.source (node blocks unindented n)
  content : ∀ blocks unindented tag optional,
    Consuming State.source (content blocks unindented tag optional n)
  part : ∀ stops blocks unindented, Consuming State.source (part stops blocks unindented n)
  valuePart : ∀ stops blocks unindented,
    Consuming State.source (valuePart stops blocks unindented n)
  blockItems : Consuming State.source (blockItems n)
  unindentedItems : Consuming State.source (unindentedItems n)
  blockMembers : Consuming State.source (blockMembers n)
  flowItems : ∀ first, Consuming State.source (flowItems first n)
  flowItem : Consuming State.source (flowItem n)
  flowMembers : ∀ first, Consuming State.source (flowMembers first n)

namespace BuildersConsume

attribute [instance] node content part valuePart blockItems unindentedItems blockMembers flowItems
  flowItem flowMembers

variable {n : Nat} [BuildersConsume n]

/-- A node with properties or without is read from the tokens ahead. Each rule that calls the others
is given one level less, and so is each lemma here. -/
theorem node_succ (blocks unindented : Bool) :
    Consuming State.source (Node.node blocks unindented (n + 1)) := by
  unfold Node.node
  refine .andThen fun t? => ?_
  split
  · infer_instance
  · refine .andThen fun (name?, tag?) => ?_
    cases name? with
    | none => infer_instance
    | some name => infer_instance

/-- A node after its properties: a list or an object in one of five forms, a scalar, or nothing. -/
theorem content_succ (blocks unindented : Bool) (tag : Option (List Char)) (optional : Bool) :
    Consuming State.source (Node.content blocks unindented tag optional (n + 1)) := by
  unfold Node.content
  extract_lets listKind objectKind
  refine .andThen fun t? => ?_
  split
  · infer_instance
  · split
    · infer_instance
    · split
      · infer_instance
      · split
        · infer_instance
        · split
          · infer_instance
          · split
            · infer_instance
            · infer_instance

/-- An item that may be empty: it is if one of the given tokens follows. -/
theorem part_succ (stops : List Token) (blocks unindented : Bool) :
    Consuming State.source (Node.part stops blocks unindented (n + 1)) := by
  unfold Node.part
  infer_instance

/-- The value of a member, which may be empty too. -/
theorem valuePart_succ (stops : List Token) (blocks unindented : Bool) :
    Consuming State.source (Node.valuePart stops blocks unindented (n + 1)) := by
  unfold Node.valuePart
  infer_instance

/-- The items of a list in a block. -/
theorem blockItems_succ : Consuming State.source (Node.blockItems (n + 1)) := by
  unfold Node.blockItems
  infer_instance

theorem unindentedItems_succ : Consuming State.source (Node.unindentedItems (n + 1)) := by
  unfold Node.unindentedItems
  infer_instance

theorem blockMembers_succ : Consuming State.source (Node.blockMembers (n + 1)) := by
  unfold Node.blockMembers
  infer_instance

/-- The items of a list in brackets, with commas between them. -/
theorem flowItems_succ (first : Bool) : Consuming State.source (Node.flowItems first (n + 1)) := by
  unfold Node.flowItems
  refine .andThen fun closed => ?_
  split
  · infer_instance
  · extract_lets join
    have hjoin : ∀ u, Consuming State.source (join u) := fun u => inferInstance
    infer_instance

theorem flowItem_succ : Consuming State.source (Node.flowItem (n + 1)) := by
  unfold Node.flowItem
  infer_instance

/-- The members of an object in braces. -/
theorem flowMembers_succ (first : Bool) :
    Consuming State.source (Node.flowMembers first (n + 1)) := by
  unfold Node.flowMembers
  refine .andThen fun closed => ?_
  split
  · infer_instance
  · extract_lets join
    have hjoin : ∀ u, Consuming State.source (join u) := by
      refine fun u => .andThen fun closed => ?_
      split
      · infer_instance
      · exact .andThen fun keyed => inferInstance
    clear_value join
    infer_instance

end BuildersConsume

/-- Induction on the rounds, of which every builder leaves one less to the others. -/
instance buildersConsume : ∀ n, BuildersConsume n
  | 0 =>
    { node := fun _ _ => consuming_fail
      content := fun _ _ _ _ => consuming_fail
      part := fun _ _ _ => consuming_fail
      valuePart := fun _ _ _ => consuming_fail
      blockItems := consuming_fail
      unindentedItems := consuming_fail
      blockMembers := consuming_fail
      flowItems := fun _ => consuming_fail
      flowItem := consuming_fail
      flowMembers := fun _ => consuming_fail }
  | n + 1 =>
    have := buildersConsume n
    { node := BuildersConsume.node_succ
      content := BuildersConsume.content_succ
      part := BuildersConsume.part_succ
      valuePart := BuildersConsume.valuePart_succ
      blockItems := BuildersConsume.blockItems_succ
      unindentedItems := BuildersConsume.unindentedItems_succ
      blockMembers := BuildersConsume.blockMembers_succ
      flowItems := BuildersConsume.flowItems_succ
      flowItem := BuildersConsume.flowItem_succ
      flowMembers := BuildersConsume.flowMembers_succ }

instance (versioned : Bool) (handles : List (List Char × List Char)) (n : Nat) :
    Consuming State.source (directives versioned handles n) := by
  induction n generalizing versioned handles with
  | zero => exact consuming_fail
  | succ n ih =>
    unfold directives
    refine .andThen fun t? => ?_
    split
    next d =>
      cases d with
      | version major => infer_instance
      | handle handle expansion => infer_instance
      | other => infer_instance
    · infer_instance

instance (n : Nat) : Consuming State.source (passEnds n) := by
  induction n with
  | zero => exact consuming_fail
  | succ n ih =>
    unfold passEnds
    infer_instance

instance (rounds : Nat) : Consuming State.source (document rounds) := by
  unfold document
  refine .andThen fun t? => ?_
  extract_lets join
  have hjoin : ∀ root, Consuming State.source (join root) := fun root => inferInstance
  split
  -- what may precede the mark of a document, or its end
  case h_1 | h_2 | h_3 =>
    refine .andThen fun _ => .andThen fun next? => ?_
    split
    · infer_instance
    · refine .andThen fun handles => ?_
      have hhandles : Consuming State.source (modify fun s : State =>
          { s with handles := handles ++ standardHandles }) :=
        .change fun s => List.suffix_refl s.tokens
      refine .andThen fun _ => .andThen fun _ => .andThen fun next? => ?_
      split <;> infer_instance
  case h_4 => infer_instance

/-- Why tokens hold no document. -/
theorem error_of_ofTokens {ts : List Token} {e : Error} (h : ofTokens ts = .error e) :
    e = .malformed ∨ .fault e ∈ ts := by
  have hdocument := Outcome.map_eq_error_iff.mp h
  let start : State := ⟨ts, standardHandles, []⟩
  have hconfined : Confined State.source start.tokens (document (4 * ts.length + 8) start) :=
    Consuming.confined (S := State.source) start
  exact hconfined.fault hdocument

/-- Whether a node holds a scalar of a kind with a text, at any depth. -/
inductive Holds : Node → Kind → Text → Prop where
  | scalar (kind : Kind) (t : Text) : Holds (.scalar kind t) kind t
  | item {k : Kind} {items : List Node} {n : Node} {kind : Kind} {t : Text} (hn : n ∈ items)
      (h : Holds n kind t) : Holds (.list k items) kind t
  | key {k : Kind} {members : List (Node × Node)} {m : Node × Node} {kind : Kind} {t : Text}
      (hm : m ∈ members) (h : Holds m.1 kind t) : Holds (.object k members) kind t
  | value {k : Kind} {members : List (Node × Node)} {m : Node × Node} {kind : Kind} {t : Text}
      (hm : m ∈ members) (h : Holds m.2 kind t) : Holds (.object k members) kind t

/-- A text held by the other members is held by all. -/
theorem Holds.cons {k kind : Kind} {members : List (Node × Node)} {t : Text} (m : Node × Node)
    (h : Holds (.object k members) kind t) : Holds (.object k (m :: members)) kind t := by
  cases h with
  | key hm h => exact .key (List.mem_cons_of_mem m hm) h
  | value hm h => exact .value (List.mem_cons_of_mem m hm) h

/-- Why a node has no value: it is malformed, or one of its scalars has none. -/
def Blames (n : Node) (e : Error) : Prop :=
  e = .malformed ∨ ∃ kind t, n.Holds kind t ∧ scalarValue kind t = .error e

/-- A larger node is to blame for what a part of it is to blame for. -/
theorem Blames.mono {n n' : Node} {e : Error} (h : Blames n e)
    (hsub : ∀ {kind t}, n.Holds kind t → n'.Holds kind t) : Blames n' e := by
  rcases h with rfl | ⟨kind, t, hholds, hvalue⟩
  · exact .inl rfl
  · exact .inr ⟨kind, t, hsub hholds, hvalue⟩

end Node

open Node

/-! ## Values

Values and merged members are read by mutual recursion on nodes, so the lemmas recurse in the same
way. Each says that a failure is one of layout, or comes from a scalar in the node that has no
value. -/

/-- A key only fails for its kind. -/
theorem malformed_of_keyOf {v : Value} {e : Error} (h : keyOf v = .error e) : e = .malformed := by
  unfold keyOf at h
  split at h
  case h_6 =>
    cases h
    rfl
  all_goals cases h

mutual

/-- A node fails for itself, or for one of its items or members. -/
theorem blames_of_valueOf : ∀ (n : Node) {e : Error}, valueOf n = .error e → Blames n e
  | .scalar kind t, _, h => .inr ⟨kind, t, .scalar kind t, h⟩
  | .list kind items, e, h => by
    unfold valueOf at h
    split at h
    · rcases Outcome.bind_eq_error_iff.mp h with h | ⟨vs, -, h⟩
      · obtain ⟨n, hn, hblames⟩ := blames_of_valuesOf items h
        exact hblames.mono (.item hn)
      · cases h
    · cases h
      exact .inl rfl
  | .object kind members, e, h => by
    unfold valueOf at h
    split at h
    · rcases Outcome.bind_eq_error_iff.mp h with h | ⟨ms, -, h⟩
      · exact blames_of_membersOf kind members h
      · cases h
    · cases h
      exact .inl rfl

/-- Items fail for one of them. -/
theorem blames_of_valuesOf : ∀ (ns : List Node) {e : Error}, valuesOf ns = .error e →
    ∃ n ∈ ns, Blames n e
  | [], _, h => by cases h
  | n :: ns, e, h => by
    rcases Outcome.bind_eq_error_iff.mp h with h | ⟨v, -, h⟩
    · exact ⟨n, List.mem_cons_self, blames_of_valueOf n h⟩
    · rcases Outcome.bind_eq_error_iff.mp h with h | ⟨vs, -, h⟩
      · obtain ⟨n', hn', hblames⟩ := blames_of_valuesOf ns h
        exact ⟨n', List.mem_cons_of_mem n hn', hblames⟩
      · cases h

/-- The members of an object are to blame for what they are to blame for in a longer one. -/
theorem blames_of_membersOf (kind : Kind) : ∀ (ms : List (Node × Node)) {e : Error},
    membersOf ms = .error e → Blames (.object kind ms) e
  | [], _, h => by cases h
  | (k, v) :: ms, e, h => by
    have hkey : Blames k e → Blames (.object kind ((k, v) :: ms)) e :=
      fun h => h.mono (.key (m := (k, v)) List.mem_cons_self)
    have hvalue : Blames v e → Blames (.object kind ((k, v) :: ms)) e :=
      fun h => h.mono (.value (m := (k, v)) List.mem_cons_self)
    have hrest : membersOf ms = .error e → Blames (.object kind ((k, v) :: ms)) e :=
      fun h => (blames_of_membersOf kind ms h).mono (Holds.cons (k, v))
    unfold membersOf at h
    split at h
    · rcases Outcome.bind_eq_error_iff.mp h with h | ⟨first, -, h⟩
      · exact hvalue (blames_of_mergedOf v h)
      · rcases Outcome.bind_eq_error_iff.mp h with h | ⟨rest, -, h⟩
        · exact hrest h
        · cases h
    · extract_lets go at h
      have hgo : ∀ key, go key = .error e → Blames (.object kind ((k, v) :: ms)) e := by
        intro key h
        rcases Outcome.bind_eq_error_iff.mp h with h | ⟨value, -, h⟩
        · exact hvalue (blames_of_valueOf v h)
        · rcases Outcome.bind_eq_error_iff.mp h with h | ⟨rest, -, h⟩
          · exact hrest h
          · cases h
      -- whichever way the key is read
      split at h
      · exact hgo _ h
      · rcases Outcome.bind_eq_error_iff.mp h with h | ⟨w, -, h⟩
        · exact hkey (blames_of_valueOf k h)
        · rcases Outcome.bind_eq_error_iff.mp h with h | ⟨key, -, h⟩
          · exact .inl (malformed_of_keyOf h)
          · exact hgo key h

/-- What is merged is an object or a list of objects, and fails for one of their members. -/
theorem blames_of_mergedOf : ∀ (n : Node) {e : Error}, mergedOf n = .error e → Blames n e
  | .object kind members, e, h => by
    rcases Outcome.bind_eq_error_iff.mp h with h | ⟨ms, -, h⟩
    · exact blames_of_membersOf kind members h
    · cases h
  | .list kind items, e, h => by
    obtain ⟨n, hn, hblames⟩ := blames_of_mergedOfAll items h
    exact hblames.mono (.item hn)
  | .scalar _ _, _, h => by
    cases h
    exact .inl rfl

theorem blames_of_mergedOfAll : ∀ (ns : List Node) {e : Error}, mergedOfAll ns = .error e →
    ∃ n ∈ ns, Blames n e
  | [], _, h => by cases h
  | n :: ns, e, h => by
    rcases Outcome.bind_eq_error_iff.mp h with h | ⟨first, -, h⟩
    · exact ⟨n, List.mem_cons_self, blames_of_mappingMembers n h⟩
    · rcases Outcome.bind_eq_error_iff.mp h with h | ⟨rest, -, h⟩
      · obtain ⟨n', hn', hblames⟩ := blames_of_mergedOfAll ns h
        exact ⟨n', List.mem_cons_of_mem n hn', hblames⟩
      · cases h

/-- Only an object has members to merge. -/
theorem blames_of_mappingMembers : ∀ (n : Node) {e : Error}, mappingMembers n = .error e →
    Blames n e
  | .object kind members, e, h => by
    rcases Outcome.bind_eq_error_iff.mp h with h | ⟨ms, -, h⟩
    · exact blames_of_membersOf kind members h
    · cases h
  | .list _ _, _, h => by
    cases h
    exact .inl rfl
  | .scalar _ _, _, h => by
    cases h
    exact .inl rfl

end

/-- Why a document has no value: its characters account for the failure, or a scalar of its node
has no value. -/
inductive Unread (cs : List Char) (e : Error) : Prop where
  | scan (h : ScanFault cs e)
  | scalar {root : Node} {kind : Kind} {t : Text}
      (hroot : Node.ofTokens (tokens cs) = .ok (some root)) (hholds : root.Holds kind t)
      (hvalue : scalarValue kind t = .error e)

/-- **How a document fails.** -/
theorem unread_of_read {cs : List Char} {e : Error} (h : read cs = .error e) : Unread cs e := by
  rcases Outcome.bind_eq_error_iff.mp h with h | ⟨root?, hroot, h⟩
  · rcases error_of_ofTokens h with rfl | hmem
    · exact .scan .malformed
    · exact .scan (scanFault_of_mem_tokens hmem)
  · cases root? with
    | none => cases h
    | some root =>
      rcases blames_of_valueOf root h with rfl | ⟨kind, t, hholds, hvalue⟩
      · exact .scan .malformed
      · exact .scalar hroot hholds hvalue

end OptionTypes.Yaml
