import OptionTypes.Proofs.Escape
import OptionTypes.Proofs.FirstRegistration
import OptionTypes.Proofs.Grammar.Program
import OptionTypes.Run

/-!
# How an extraction fails

An extraction is meant to fail with a gap, which a run answers with an exit code of its own. Three
kinds of failures are none: an escape for a number beyond the last code point, a number literal that
cannot be read, and an integer too long to be written as text. A node that lacks a part is not among
them, since the tree of a script is complete.

* `Leak` is a failure without a gap, and what in the script causes it.
* `extract_outcome`: every extraction gives a command, a gap or a leak.
-/

namespace OptionTypes

open Syntax

/-! ## Values without a text -/

/-- An integer that the text of a value writes. -/
inductive Value.Writes : Value → Int → Prop where
  | number {m : Number} {n : Int} (h : m.normal = .int n) : Writes (.number m) n
  | item {items : List Value} {v : Value} {n : Int} (hv : v ∈ items) (h : Writes v n) :
      Writes (.list items) n

/-- A value the text of which would write an integer beyond the limit. -/
def Value.IsTooLong (v : Value) : Prop :=
  ∃ n, v.Writes n ∧ Reading.digitLimit < (Nat.toDigits 10 n.natAbs).length

namespace Value

/-- A number has no text only if it is an integer that is too long. -/
theorem tooLong_of_numberText {m : Number} {e : Reading.Error} (h : numberText m = .error e) :
    e = .tooLongToWrite ∧ (Value.number m).IsTooLong := by
  unfold numberText at h
  split at h
  next n hn =>
    unfold Reading.writeInteger at h
    extract_lets digits at h
    split at h
    next hlong =>
      cases h
      exact ⟨rfl, n, .number hn, hlong⟩
    next => cases h
  next => cases h

mutual

/-- **A value has no text only if an integer in it is too long.** -/
theorem tooLong_of_toText {e : Reading.Error} :
    ∀ v : Value, v.toText = .error e → e = .tooLongToWrite ∧ v.IsTooLong
  | null, h => nomatch h
  | bool b, h => nomatch h
  | number m, h => tooLong_of_numberText h
  | complex re im, h => nomatch h
  | text t, h => nomatch h
  | list items, h => by
    rw [toText] at h
    obtain ⟨he, v, hv, n, hn, hlong⟩ := tooLong_of_itemsToText items h
    exact ⟨he, n, .item hv hn, hlong⟩
  | object ms, h => nomatch h
  | function source, h => nomatch h
  | foreign type shown, h => nomatch h

/-- Items have no text only if one of them has none. Recursion along with that on a value, since
items are values. -/
theorem tooLong_of_itemsToText {e : Reading.Error} :
    ∀ items : List Value, itemsToText items = .error e →
      e = .tooLongToWrite ∧ ∃ v ∈ items, v.IsTooLong
  | [], h => nomatch h
  | item :: items, h => by
    -- whatever the first item gives, the others are written behind a comma
    have htail : ∀ head : Text,
        (if items.isEmpty then pure head
          else do return head ++ "," ++ (← itemsToText items)) = .error e →
        e = .tooLongToWrite ∧ ∃ v ∈ item :: items, v.IsTooLong := by
      intro head h
      split at h
      · cases h
      · rcases Outcome.bind_eq_error_iff.mp h with h | ⟨rest, -, h⟩
        · obtain ⟨he, v, hv, hlong⟩ := tooLong_of_itemsToText items h
          exact ⟨he, v, List.mem_cons_of_mem _ hv, hlong⟩
        · cases h
    rw [itemsToText] at h
    split at h
    · exact htail [] h
    · rcases Outcome.bind_eq_error_iff.mp h with h | ⟨head, -, h⟩
      · obtain ⟨he, hitem⟩ := tooLong_of_toText item h
        exact ⟨he, item, List.mem_cons_self .., hitem⟩
      · exact htail head h

end

end Value

namespace Registration

/-! ## Failures of the search -/

/-- A search fails at one of the visits it comes to. -/
theorem exists_of_firstSchema?_eq_error {source : Bytes} {command : Text} {vs : List Visit}
    {e : Escape.Error} (h : firstSchema? source command vs = .error e) :
    ∃ v ∈ vs, schemaAt? source command v = .error e := by
  induction vs with
  | nil => cases h
  | cons v vs ih =>
    rw [firstSchema?] at h
    rcases Outcome.bind_eq_error_iff.mp h with h | ⟨found, -, h⟩
    · exact ⟨v, List.mem_cons_self .., h⟩
    · cases found with
      | some schema => cases h
      | none =>
        obtain ⟨w, hw, hfail⟩ := ih h
        exact ⟨w, List.mem_cons_of_mem _ hw, hfail⟩

/-- A schema is found at one of the visits. -/
theorem exists_of_firstSchema?_eq_some {source : Bytes} {command : Text} {vs : List Visit}
    {schema : Tree} (h : firstSchema? source command vs = .ok (some schema)) :
    ∃ v ∈ vs, schemaAt? source command v = .ok (some schema) := by
  induction vs with
  | nil => cases h
  | cons v vs ih =>
    rw [firstSchema?] at h
    obtain ⟨found, hfound, h⟩ := Outcome.bind_eq_ok_iff.mp h
    cases found with
    | some schema' =>
      cases h
      exact ⟨v, List.mem_cons_self .., hfound⟩
    | none =>
      obtain ⟨w, hw, hschema⟩ := ih h
      exact ⟨w, List.mem_cons_of_mem _ hw, hschema⟩

/-- A search fails at a name that a call of the script gives. -/
theorem exists_candidate_of_schema?_eq_error {script : Script} {command : Text} {e : Escape.Error}
    (h : schema? script command = .error e) :
    ∃ s call arguments name, Site.Holds script.root s call arguments
      ∧ Candidate script.source call arguments name
      ∧ Evaluation.stringValue script.source name = .error e := by
  rw [schema?, walk_eq] at h
  obtain ⟨v, hv, hfail⟩ := exists_of_firstSchema?_eq_error h
  obtain ⟨x, hx, rfl⟩ := List.mem_map.mp hv
  obtain ⟨call, name, hparent, hcandidate, he⟩ := exists_of_schemaAt?_eq_error hfail
  obtain ⟨s, -, hholds⟩ := exists_holds hx hparent
  exact ⟨s, call, x.2.tree, name, hholds, hcandidate, he⟩

/-- A schema that is found is a node of the script. -/
theorem mem_nodes_of_schema?_eq_some {script : Script} {command : Text} {schema : Tree}
    (h : schema? script command = .ok (some schema)) : schema ∈ script.root.nodes := by
  rw [schema?, walk_eq] at h
  obtain ⟨v, hv, hschema⟩ := exists_of_firstSchema?_eq_some h
  obtain ⟨x, hx, rfl⟩ := List.mem_map.mp hv
  obtain ⟨s, -, call, arguments, ⟨hcall, harguments⟩, hregisters⟩ := exists_registersAt hx hschema
  have hbelow : ∀ {u t : Tree}, u ∈ t.namedChildren → u ∈ t.nodes := by
    intro u t hu
    exact Tree.mem_nodes_of_mem_children (List.mem_filter.mp hu).1 u.self_mem_nodes
  have hoperand : schema ∈ arguments.nodes := by
    exact hbelow (List.mem_filter.mp (List.mem_of_getElem? hregisters.fourth)).1
  have hlist : arguments ∈ call.nodes := hbelow (List.mem_of_getElem? harguments)
  have hin := Tree.nodes_subset_of_mem script.root (Tree.mem_nodes_of_at? hcall)
  exact hin (Tree.nodes_subset_of_mem call hlist hoperand)

/-! ## Failures of an extraction -/

/-- A failure without a gap, and what causes it: the name of some registration or a text in the
schema with an escape beyond the last code point, a number literal in the schema, or the value of a
node in the schema. -/
inductive Leak (script : Script) (symbols : List (Text × Value)) (command : Text) :
    Failure → Prop where
  | name {s : Site} {call arguments name : Tree} {e : Escape.Error}
      (hholds : s.Holds script.root call arguments)
      (hcandidate : Candidate script.source call arguments name)
      (h : Escape.Beyond (Evaluation.withoutMarks (name.text script.source)) e) :
      Leak script symbols command (.escape e)
  | body {schema u : Tree} {body : Text} {e : Escape.Error}
      (hschema : schema? script command = .ok (some schema)) (hu : u ∈ schema.nodes)
      (hbody : body ∈ Evaluation.bodies script.source u) (h : Escape.Beyond body e) :
      Leak script symbols command (.escape e)
  | literal {schema u : Tree} {e : Reading.Error}
      (hschema : schema? script command = .ok (some schema)) (hu : u ∈ schema.nodes)
      (hkind : u.is .number = true) (h : Literal.parse (u.text script.source) = .error e) :
      Leak script symbols command (.number e)
  | conversion {schema u : Tree} {context : Option Tree} {v : Value}
      (hschema : schema? script command = .ok (some schema)) (hu : u ∈ schema.nodes)
      (hv : Evaluation.eval ⟨script.source, symbols⟩ context u = .ok v) (h : v.IsTooLong) :
      Leak script symbols command (.number .tooLongToWrite)

/-- The script of a source in which nothing is at fault. -/
def scriptOf (cs : List Char) : Script := ⟨Utf8.encode cs, Dialect.javascript.parse cs⟩

/-- A script without faults is read. -/
theorem read_eq_ok {cs : List Char} (h : (firstFault? (scriptOf cs).root).isNone = true) :
    Script.read (Text.ofChars cs) = .ok (scriptOf cs) := by
  have hnone : firstFault? (Dialect.javascript.parse cs) = none := Option.isNone_iff_eq_none.mp h
  unfold Script.read
  rw [Utf8.charsOfText_ofChars]
  refine Outcome.bind_eq_ok_iff.mpr ⟨cs, rfl, ?_⟩
  extract_lets source root
  rw [show firstFault? root = none from hnone]
  rfl

/-- Every script is that of some characters, and nothing in it is at fault. -/
theorem eq_scriptOf_of_read {text : Text} {script : Script} (h : Script.read text = .ok script) :
    ∃ cs, text = Text.ofChars cs ∧ script = scriptOf cs
      ∧ firstFault? (Dialect.javascript.parse cs) = none := by
  unfold Script.read at h
  obtain ⟨cs, hcs, h⟩ := Outcome.bind_eq_ok_iff.mp h
  rw [Outcome.mapError_eq_ok_iff] at hcs
  extract_lets source root at h
  split at h
  next => cases h
  next hnone =>
    cases h
    exact ⟨cs, Utf8.eq_ofChars_of_charsOfText hcs, rfl, hnone⟩

/-- The tree of a script is well-formed. -/
theorem wellFormed_of_read {text : Text} {script : Script} (h : Script.read text = .ok script) :
    WellFormed script.root := by
  obtain ⟨cs, -, rfl, -⟩ := eq_scriptOf_of_read h
  exact wellFormed_parse cs

/-- An evaluation of the schema that fails without a gap leaks. -/
theorem leak_of_evaluate {script : Script} {symbols : List (Text × Value)} {command : Text}
    {schema : Tree} {f : Failure} (hroot : WellFormed script.root)
    (hschema : schema? script command = .ok (some schema))
    (h : Evaluation.evaluate script.source symbols schema = .error f) :
    (∃ g, f = .gap g) ∨ Leak script symbols command f := by
  cases Evaluation.origin_of_eval ⟨script.source, symbols⟩ schema h with
  | refused g _ => exact .inl ⟨g, rfl⟩
  | unknown u context _ _ _ => exact .inl ⟨_, rfl⟩
  | body u body e hu hbody hdecode =>
    exact .inr (.body hschema hu hbody (Escape.beyond_of_decode hdecode))
  | literal u e hu hkind hparse => exact .inr (.literal hschema hu hkind hparse)
  | conversion u context v e hu hv htext =>
    obtain ⟨rfl, hlong⟩ := Value.tooLong_of_toText v htext
    exact .inr (.conversion hschema hu hv hlong)
  | incomplete u hu hlack =>
    -- no node of a script lacks a part
    have hin := Tree.nodes_subset_of_mem script.root (mem_nodes_of_schema?_eq_some hschema)
    rw [(hroot u (hin hu)).1] at hlack
    cases hlack

/-- An extraction that fails finds a gap, or leaks: in the search, or in the evaluation of the
schema that it has found. -/
theorem leak_of_extract {script : Script} {symbols : List (Text × Value)} {command : Text}
    {f : Failure} (hroot : WellFormed script.root)
    (h : extract script symbols command = .error f) :
    (∃ g, f = .gap g) ∨ Leak script symbols command f := by
  unfold extract at h
  rcases Outcome.bind_eq_error_iff.mp h with h | ⟨found, hfound, h⟩
  · -- the search looks at the names of other registrations, too
    obtain ⟨e, he, rfl⟩ := Outcome.mapError_eq_error_iff.mp h
    obtain ⟨s, call, arguments, name, hholds, hcandidate, hname⟩ :=
      exists_candidate_of_schema?_eq_error he
    exact .inr (.name hholds hcandidate (Escape.beyond_of_decode hname))
  · have hschema := Outcome.mapError_eq_ok_iff.mp hfound
    cases found with
    | none => cases h
    | some schema =>
      rcases Outcome.bind_eq_error_iff.mp h with h | ⟨value, -, h⟩
      · exact leak_of_evaluate hroot hschema h
      · rcases Outcome.bind_eq_error_iff.mp h with h | ⟨options, -, h⟩
        · -- an option without the shape of a descriptor is a gap
          obtain ⟨g, -, rfl⟩ := Outcome.mapError_eq_error_iff.mp h
          exact .inl ⟨g, rfl⟩
        · cases h

/-- No leak has a diagnosis. -/
theorem diagnosis?_of_leak {script : Script} {symbols : List (Text × Value)} {command : Text}
    {f : Failure} (h : Leak script symbols command f) :
    (RunError.extraction f).diagnosis? = none := by
  cases h with
  | name => rfl
  | body => rfl
  | literal => rfl
  | conversion => rfl

/-- **How an extraction ends.** From any script, for any command and any symbols, there is a
command, or a gap, which a run answers with exit code 8, or a leak, which no run foresees.

The tree of a script is well-formed (`wellFormed_of_read`), so that no part is missing that an
evaluation looks for, and its failures are those of `leak_of_evaluate`: escapes beyond the last
character, and integers too long to be written or read. -/
theorem extract_outcome {text : Text} {script : Script} (hread : Script.read text = .ok script)
    (symbols : List (Text × Value)) (command : Text) :
    (∃ c, extract script symbols command = .ok c)
      ∨ (∃ g d, extract script symbols command = .error (.gap g)
        ∧ (RunError.extraction (.gap g)).diagnosis? = some d ∧ d.exitCode = 8)
      ∨ ∃ f, extract script symbols command = .error f ∧ Leak script symbols command f
        ∧ (RunError.extraction f).diagnosis? = none := by
  cases hresult : extract script symbols command with
  | ok c => exact .inl ⟨c, rfl⟩
  | error f =>
    rcases leak_of_extract (wellFormed_of_read hread) hresult with ⟨g, rfl⟩ | hleak
    · exact .inr (.inl ⟨g, _, rfl, rfl, rfl⟩)
    · exact .inr (.inr ⟨f, rfl, hleak, diagnosis?_of_leak hleak⟩)

/-- The escape that an extraction fails at, if it fails at one. -/
def escape? {α : Type} : Except Failure α → Option Escape.Error
  | .error (.escape e) => some e
  | _ => none

theorem eq_error_of_escape? {α : Type} {r : Except Failure α} {e : Escape.Error}
    (h : escape? r = some e) : r = .error (.escape e) := by
  unfold escape? at h
  split at h
  · rw [Option.some.inj h]
  · cases h

/-- A script with an escape in a schema that is beyond the last code point. -/
def leaking : List Char :=
  "p.command('r', d, h, \x7ba: \x7bdescribe: '\\u\x7b110000\x7d'\x7d\x7d);".toList

theorem read_leaking : Script.read (Text.ofChars leaking) = .ok (scriptOf leaking) :=
  read_eq_ok (by decide +kernel)

/-- Its registration is found, and cannot be evaluated. -/
theorem extract_leaking :
    extract (scriptOf leaking) [] "r" = .error (.escape .beyondUnicode) :=
  eq_error_of_escape? (by decide +kernel)

/-- The escape is a leak of the script. -/
theorem leaking_extract_outcome :
    Script.read (Text.ofChars leaking) = .ok (scriptOf leaking)
      ∧ Leak (scriptOf leaking) [] "r" (.escape .beyondUnicode) := by
  refine ⟨read_leaking, ?_⟩
  rcases extract_outcome read_leaking [] "r" with ⟨c, h⟩ | ⟨g, d, h, -⟩ | ⟨f, h, hleak, -⟩
  · rw [extract_leaking] at h
    cases h
  · rw [extract_leaking] at h
    cases h
  · rw [extract_leaking] at h
    cases h
    exact hleak

/-- Not every extraction gives a command or a gap. -/
theorem not_forall_extract_gives_command_or_gap :
    ¬∀ text script symbols command, Script.read text = .ok script →
      (∃ c, extract script symbols command = .ok c)
        ∨ ∃ g, extract script symbols command = .error (.gap g) := by
  intro h
  rcases h _ _ [] "r" read_leaking with ⟨c, hc⟩ | ⟨g, hg⟩
  · rw [extract_leaking] at hc
    cases hc
  · rw [extract_leaking] at hg
    cases hg

end Registration

end OptionTypes
