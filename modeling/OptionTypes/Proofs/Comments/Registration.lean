import OptionTypes.Proofs.Comments.Evaluation
import OptionTypes.Proofs.FirstRegistration

/-!
# Comments play no part in a registration

A comment is visited by the search for a registration, and registers nothing. All other nodes are
visited in the same order as without it, and the name and the schema of a command are operands of
the call, which comments do not shift.

* `schema?_agree`: both trees have the schema of a command at corresponding nodes, or neither has.
* `extraction_of_uncommented`: so both give the same command.
-/

namespace OptionTypes.Registration

open Syntax Outcome

variable {source : Bytes} {command : Text} {root root' t t' : Tree}

/-- Schemas at corresponding nodes, or none in both trees. -/
def SameSchema (root root' : Tree) : Option Tree → Option Tree → Prop :=
  Option.Rel (Counterparts root root')

theorem stringValue_of_uncommented (h : Uncommented t t') :
    Evaluation.stringValue source t' = Evaluation.stringValue source t := by
  cases h
  rfl

/-- Whether a call registers something is told from its callee. -/
theorem registers_of_uncommented (h : Uncommented t t') :
    registers source t' = registers source t := by
  have hcallee := h.child? .callee
  unfold registers
  generalize t.child? .callee = x at hcallee ⊢
  generalize t'.child? .callee = x' at hcallee ⊢
  cases hcallee with
  | none => rfl
  | @some callee callee' hc =>
    have hname := hc.child? .property
    simp only [hc.is_eq]
    generalize callee.child? .property = y at hname ⊢
    generalize callee'.child? .property = y' at hname ⊢
    cases hname with
    | none => rfl
    | some hn => simp only [hn.is_eq, hn.text_eq]

/-- What a call registers is found among its operands, which comments do not shift. Both searches
find nothing, or schemas that stand for each other, or fail alike. -/
theorem schemaOf?_agree {arguments arguments' : Tree} (hcall : Uncommented t t')
    (harguments : Counterparts root root' arguments arguments') :
    Agree (SameSchema root root') (schemaOf? source command t arguments)
      (schemaOf? source command t' arguments') := by
  have hname := rel_getElem? harguments.uncommented.operands 0
  have hschema := rel_getElem? harguments.uncommented.operands schemaPlace
  rw [schemaOf?_eq, schemaOf?_eq, registers_of_uncommented hcall]
  unfold schemaPlace at hschema
  generalize arguments.operands[0]? = x at hname ⊢
  generalize arguments'.operands[0]? = x' at hname ⊢
  generalize arguments.operands[3]? = y at hschema ⊢
  generalize arguments'.operands[3]? = y' at hschema ⊢
  -- where one condition fails nothing is registered; only the decoding of the name can fail
  cases registers source t with
  | false => exact .ok .none
  | true =>
    cases hname with
    | none => exact .ok .none
    | some hn =>
      cases hschema with
      | none => exact .ok .none
      | @some schema schema' hs =>
        simp only [hn.uncommented.is_eq, hs.uncommented.is_eq,
          stringValue_of_uncommented hn.uncommented]
        split
        next =>
          split
          next =>
            cases Evaluation.stringValue source _ with
            | error e => exact .error e
            | ok text =>
              simp only [Except.map]
              split
              next => exact .ok (.some (harguments.child hs))
              next => exact .ok .none
          next => exact .ok .none
        next => exact .ok .none

/-- Visits of corresponding nodes register schemas at corresponding nodes. -/
theorem schemaAt?_agree {parent parent' : Option Tree}
    (hparent : Option.Rel Uncommented parent parent') (h : Counterparts root root' t t') :
    Agree (SameSchema root root') (schemaAt? source command ⟨t, parent⟩)
      (schemaAt? source command ⟨t', parent'⟩) := by
  unfold schemaAt?
  cases hparent with
  | none => exact .ok .none
  | some hcall =>
    simp only [h.uncommented.is_eq, hcall.is_eq]
    split
    next => exact schemaOf?_agree hcall h
    next => exact .ok .none

/-- A comment registers nothing. -/
theorem schemaAt?_of_isRemark (h : t.isRemark = true) (parent : Option Tree) :
    schemaAt? source command ⟨t, parent⟩ = .ok none := by
  have harguments : t.is .arguments = false := Tree.is_of_isRemark h (by decide)
  unfold schemaAt?
  cases parent with
  | none => rfl
  | some call => simp only [harguments, Bool.false_and, Bool.false_eq_true, if_false]

/-- One visit more in front of agreeing searches. -/
theorem firstSchema?_cons_agree {v v' : Visit} {rest rest' : List Visit}
    (h : Agree (SameSchema root root') (schemaAt? source command v) (schemaAt? source command v'))
    (hrest : Agree (SameSchema root root') (firstSchema? source command rest)
      (firstSchema? source command rest')) :
    Agree (SameSchema root root') (firstSchema? source command (v :: rest))
      (firstSchema? source command (v' :: rest')) := by
  rw [firstSchema?, firstSchema?]
  generalize schemaAt? source command v = found at h ⊢
  generalize schemaAt? source command v' = found' at h ⊢
  cases h with
  | error e => exact .error e
  | ok hfound =>
    cases hfound with
    | none => exact hrest
    | some hs => exact .ok (.some hs)

/-- The visits of a comment leave the search as it is. -/
theorem firstSchema?_visits_of_isRemark (h : t.isRemark = true) (parent : Option Tree)
    (rest : List Visit) :
    firstSchema? source command ((visits true parent t).map Prod.snd ++ rest)
      = firstSchema? source command rest := by
  rw [visits_eq, Tree.children_of_isRemark h, visitsAll, List.map_singleton, List.singleton_append,
    firstSchema?, schemaAt?_of_isRemark h]
  rfl

mutual

/-- **The search agrees on the visits below corresponding nodes.** Recursion on the tree; what the
search does afterwards is carried along, since it is reached only when nothing is found. -/
theorem firstSchema?_visits_agree {rest rest' : List Visit}
    (hrest : Agree (SameSchema root root') (firstSchema? source command rest)
      (firstSchema? source command rest')) :
    ∀ (t : Tree) {t' : Tree} {parent parent' : Option Tree}, Counterparts root root' t t' →
      Option.Rel Uncommented parent parent' →
        Agree (SameSchema root root')
          (firstSchema? source command ((visits true parent t).map Prod.snd ++ rest))
          (firstSchema? source command ((visits true parent' t').map Prod.snd ++ rest'))
  | .node label field start stop missing children, t', parent, parent', h, hparent => by
    rw [visits_eq, visits_eq, List.map_cons, List.map_cons, List.cons_append, List.cons_append]
    refine firstSchema?_cons_agree (schemaAt?_agree hparent h) ?_
    exact firstSchema?_visitsAll_agree hrest children 0 0 h.uncommented.children h.uncommented
      fun _ _ hc => h.child hc

theorem firstSchema?_visitsAll_agree {rest rest' : List Visit}
    (hrest : Agree (SameSchema root root') (firstSchema? source command rest)
      (firstSchema? source command rest')) :
    ∀ (ts : List Tree) {ts' : List Tree} {parent parent' : Tree} (i i' : Nat),
      UncommentedAll ts ts' → Uncommented parent parent' →
      (∀ c c', Among ts ts' c c' → Counterparts root root' c c') →
        Agree (SameSchema root root')
          (firstSchema? source command ((visitsAll true parent i ts).map Prod.snd ++ rest))
          (firstSchema? source command ((visitsAll true parent' i' ts').map Prod.snd ++ rest'))
  | [], ts', parent, parent', i, i', h, hparent, hbelow => by
    cases h
    exact hrest
  | t :: ts, ts', parent, parent', i, i', h, hparent, hbelow => by
    have hunder : ∀ j : Nat, Prod.snd ∘ under j = Prod.snd := fun _ => rfl
    cases h with
    | drop hc h =>
      -- the comment is visited as well, and registers nothing
      have hwalked : t.isWalked true = true := by
        rw [Tree.isWalked, Tree.isNamed, Tree.label_of_isRemark hc]
        rfl
      rw [visitsAll, if_pos hwalked, List.map_append, List.map_map, hunder, List.append_assoc,
        firstSchema?_visits_of_isRemark hc]
      exact firstSchema?_visitsAll_agree hrest ts _ _ h hparent
        fun _ _ hd => hbelow _ _ (.drop hc hd)
    | @keep _ t' _ ts' hc h =>
      -- either both nodes are visited or neither is; the places of what follows may differ
      have hnext := fun j j' => firstSchema?_visitsAll_agree hrest ts j j' h hparent
        fun _ _ hd => hbelow _ _ (.keep hc hd)
      have hwalked : t'.isWalked true = t.isWalked true := by
        rw [Tree.isWalked, Tree.isWalked, hc.isNamed_eq]
      rw [visitsAll, visitsAll, hwalked]
      split
      next =>
        rw [List.map_append, List.map_map, hunder, List.append_assoc, List.map_append,
          List.map_map, hunder, List.append_assoc]
        exact firstSchema?_visits_agree (hnext _ _) t (hbelow _ _ (.here hc h)) (.some hparent)
      next => exact hnext _ _

end

/-- **Both trees have the schema of a command at corresponding nodes, or neither has one.** -/
theorem schema?_agree (h : Uncommented t t') (source : Bytes) (command : Text) :
    Agree (SameSchema t t') (schema? ⟨source, t⟩ command)
      (schema? ⟨source, t'⟩ command) := by
  have hempty : Agree (SameSchema t t') (firstSchema? source command [])
      (firstSchema? source command []) := .ok .none
  have hvisits := firstSchema?_visits_agree hempty t (.root h) .none
  rw [List.append_nil, List.append_nil] at hvisits
  rw [schema?, schema?, walk_eq, walk_eq]
  exact hvisits

/-- Corresponding nodes have the same value, or fail in the same way. -/
theorem evaluate_of_counterparts {x x' : Tree} (h : Counterparts t t' x x') (source : Bytes)
    (symbols : List (Text × Value)) :
    Evaluation.evaluate source symbols x' = Evaluation.evaluate source symbols x :=
  Evaluation.eval_of_uncommented ⟨source, symbols⟩ x h.uncommented rfl

/-- **Comments do not change what is extracted.** The search finds the counterpart of the schema,
and its evaluation gives the same. -/
theorem extract_of_uncommented (h : Uncommented t t') (source : Bytes)
    (symbols : List (Text × Value)) (command : Text) :
    extract ⟨source, t'⟩ symbols command = extract ⟨source, t⟩ symbols command := by
  have hschema := schema?_agree h source command
  unfold extract
  generalize schema? ⟨source, t⟩ command = found at hschema ⊢
  generalize schema? ⟨source, t'⟩ command = found' at hschema ⊢
  cases hschema with
  | error e => rfl
  | ok hfound =>
    cases hfound with
    | none => rfl
    | some hs =>
      show (Evaluation.evaluate source symbols _ >>= _)
        = (Evaluation.evaluate source symbols _ >>= _)
      rw [evaluate_of_counterparts hs]

/-- **Comments are invisible to extraction.** Whichever of them are taken out, and wherever they
are, the schema of every command is found at the corresponding node, or not at all as before; every
node has the value that it had, or fails with the same message; and so a command that is extracted
stays the same.

The search walks both trees at the same time (`firstSchema?_visitsAll_agree`), and evaluation is
`eval_of_uncommented`, which holds at every pair of counterparts. -/
theorem extraction_of_uncommented (script : Script) (root : Tree)
    (h : Uncommented script.root root) :
    (∀ command, Agree (Option.Rel (Counterparts script.root root)) (schema? script command)
        (schema? ⟨script.source, root⟩ command))
      ∧ (∀ x x', Counterparts script.root root x x' → ∀ symbols,
        Evaluation.evaluate script.source symbols x'
          = Evaluation.evaluate script.source symbols x)
      ∧ ∀ symbols command,
        extract ⟨script.source, root⟩ symbols command = extract script symbols command := by
  refine ⟨?_, ?_, ?_⟩
  · intro command
    exact schema?_agree h script.source command
  · intro x x' hx symbols
    exact evaluate_of_counterparts hx script.source symbols
  · intro symbols command
    exact extract_of_uncommented h script.source symbols command

/-- A script with a comment in a callee, among arguments, in a schema and in parentheses. -/
def annotated : Script :=
  let chars := "p./* a */command('r', d, /* b */ h, \x7b /* c */ n: (/* d */ 1) \x7d)".toList
  ⟨Utf8.encode chars, Dialect.javascript.parse chars⟩

/-- Without its four comments the script has fewer nodes, and registers the corresponding schema. -/
theorem annotated_extraction_of_uncommented :
    annotated.root.bare.size + 4 = annotated.root.size
      ∧ ∃ schema schema', schema? annotated "r" = .ok (some schema)
        ∧ schema? ⟨annotated.source, annotated.root.bare⟩ "r" = .ok (some schema')
        ∧ Counterparts annotated.root annotated.root.bare schema schema'
        ∧ Evaluation.evaluate annotated.source [] schema'
          = Evaluation.evaluate annotated.source [] schema := by
  have hsize : annotated.root.bare.size + 4 = annotated.root.size := by decide +kernel
  have hfound : (schema? annotated "r").toOption.join.isSome = true := by decide +kernel
  obtain ⟨hschema, hvalue, -⟩ :=
    extraction_of_uncommented annotated annotated.root.bare (uncommented_bare annotated.root)
  obtain ⟨schema, schema', h, h', hcounterparts⟩ := (hschema "r").exists_some hfound
  exact ⟨hsize, schema, schema', h, h', hcounterparts, hvalue schema schema' hcounterparts []⟩

end OptionTypes.Registration
