import OptionTypes.Config.Document
import OptionTypes.Proofs.Config.Layer

/-!
# What documents hold

A document in JSON or YAML holds plain values: none of them is a function, and no object has a key
twice, however deep it stands. A configuration out of a document is written as it is, and what is
found under a name is the only value there.

* `Value.FromDocument` is what holds of the value of a document.
* `Json.fromDocument_read`, `Yaml.fromDocument_read`: it does, whichever format the document is in.
* `Document.fromDocument_members`: the same for the members of a file.

Both formats are read by functions that call each other, one for values and one each for the items
and the members of a collection, so each proof is one induction over all of them at once: on the
fuel for JSON, on the node for YAML. Objects are built by writing one member after the other, which
keeps keys apart (`Members.Distinct.insert`).
-/

namespace OptionTypes

namespace Value

mutual

/-- Whether a value holds no function, and no object in it a key twice. -/
def FromDocument : Value → Prop
  | function _ => False
  | list items => AllFromDocument items
  | object ms => Members.Distinct ms ∧ MembersFromDocument ms
  | _ => True

/-- Whether the items of a list are such values. -/
def AllFromDocument : List Value → Prop
  | [] => True
  | v :: vs => FromDocument v ∧ AllFromDocument vs

/-- Whether the values of members are such values. -/
def MembersFromDocument : List (Key × Value) → Prop
  | [] => True
  | (_, v) :: ms => FromDocument v ∧ MembersFromDocument ms

end

/-- The values of members are told one by one. Induction on the members. -/
theorem membersFromDocument_iff {ms : Members} :
    MembersFromDocument ms ↔ ∀ m ∈ ms, FromDocument m.2 := by
  induction ms with
  | nil => simp [MembersFromDocument]
  | cons m ms ih =>
    obtain ⟨k, v⟩ := m
    rw [MembersFromDocument, ih, List.forall_mem_cons]

/-- An empty object is one that a document may hold. -/
theorem fromDocument_empty : FromDocument (.object []) := by
  rw [FromDocument]
  exact ⟨List.Pairwise.nil, trivial⟩

mutual

/-- What a document holds is free of functions. -/
theorem FromDocument.isData : ∀ {v : Value}, FromDocument v → v.isData = true
  | .list _, h => AllFromDocument.itemsAreData h
  | .object _, h => MembersFromDocument.membersAreData h.2
  | .null, _ | .bool _, _ | .number _, _ | .complex _ _, _ | .text _, _ | .foreign _ _, _ => rfl

/-- The items of a list from a document are free of functions. -/
theorem AllFromDocument.itemsAreData : ∀ {vs : List Value}, AllFromDocument vs →
    itemsAreData vs = true
  | [], _ => rfl
  | _ :: _, h => by
    rw [Value.itemsAreData, FromDocument.isData h.1, AllFromDocument.itemsAreData h.2]
    rfl

/-- The members of an object from a document are free of functions. -/
theorem MembersFromDocument.membersAreData : ∀ {ms : List (Key × Value)},
    MembersFromDocument ms → membersAreData ms = true
  | [], _ => rfl
  | (_, _) :: _, h => by
    rw [Value.membersAreData, FromDocument.isData h.1, MembersFromDocument.membersAreData h.2]
    rfl

end

end Value

open Value

/-! ## JSON -/

namespace Json

/-- The names and numbers of JSON are plain values. -/
theorem fromDocument_scalar {p q : Place} {v : Value} (h : scalar p = .ok (v, q)) :
    FromDocument v := by
  have hnames : ∀ n ∈ names, FromDocument n.2 := by
    simp [names, FromDocument]
  unfold scalar at h
  split at h
  next name w hfound =>
    cases h
    exact hnames _ (List.mem_of_find?_eq_some hfound)
  next =>
    split at h
    next => cases h
    next => cases h
    next n length _ =>
      cases h
      exact trivial

/-- What the readers with some fuel give. -/
structure GivesData (fuel : Nat) : Prop where
  value : ∀ {p v q}, valueAt fuel p = .ok (v, q) → FromDocument v
  items : ∀ {p vs q}, itemsAt fuel p = .ok (vs, q) → AllFromDocument vs
  members : ∀ {before p ms q}, Members.Distinct before → (∀ m ∈ before, FromDocument m.2) →
    membersAt fuel before p = .ok (ms, q) → Members.Distinct ms ∧ ∀ m ∈ ms, FromDocument m.2

variable {fuel : Nat}

/-- One level of a value: it is a scalar, or a collection whose parts are read with less fuel. -/
theorem GivesData.value_succ (h : GivesData fuel) {p q : Place} {v : Value}
    (hv : valueAt (fuel + 1) p = .ok (v, q)) : FromDocument v := by
  -- a text, a list, an object, or a word or number
  unfold valueAt at hv
  split at hv
  · obtain ⟨⟨t, r⟩, -, hpure⟩ := Outcome.bind_eq_ok_iff.mp hv
    cases hpure
    exact trivial
  · extract_lets r at hv
    split at hv
    · cases hv
      exact trivial
    · obtain ⟨⟨items, s⟩, hitems, hpure⟩ := Outcome.bind_eq_ok_iff.mp hv
      cases hpure
      exact h.items hitems
  · extract_lets r at hv
    split at hv
    · cases hv
      exact fromDocument_empty
    · obtain ⟨⟨members, s⟩, hmembers, hpure⟩ := Outcome.bind_eq_ok_iff.mp hv
      cases hpure
      obtain ⟨hdistinct, hall⟩ := h.members List.Pairwise.nil nofun hmembers
      exact ⟨hdistinct, membersFromDocument_iff.mpr hall⟩
  · exact fromDocument_scalar hv

/-- One item and those after it, each read with less fuel. -/
theorem GivesData.items_succ (h : GivesData fuel) {p q : Place} {vs : List Value}
    (hvs : itemsAt (fuel + 1) p = .ok (vs, q)) : AllFromDocument vs := by
  unfold itemsAt at hvs
  obtain ⟨⟨item, r⟩, hitem, hvs⟩ := Outcome.bind_eq_ok_iff.mp hvs
  have hfirst := h.value hitem
  simp only at hvs
  split at hvs
  · cases hvs
    exact ⟨hfirst, trivial⟩
  · obtain ⟨⟨items, s⟩, hitems, hpure⟩ := Outcome.bind_eq_ok_iff.mp hvs
    cases hpure
    exact ⟨hfirst, h.items hitems⟩
  · cases hvs

/-- One member and those after it. It is written into those before, which keeps keys apart: a key
that comes again takes the place of the first one. -/
theorem GivesData.members_succ (h : GivesData fuel) {before ms : Members} {p q : Place}
    (hdistinct : Members.Distinct before) (hall : ∀ m ∈ before, FromDocument m.2)
    (hms : membersAt (fuel + 1) before p = .ok (ms, q)) :
    Members.Distinct ms ∧ ∀ m ∈ ms, FromDocument m.2 := by
  unfold membersAt at hms
  split at hms
  · cases hms
  · obtain ⟨⟨name, r⟩, -, hms⟩ := Outcome.bind_eq_ok_iff.mp hms
    simp only at hms
    split at hms
    · cases hms
    · obtain ⟨⟨v, s⟩, hv, hms⟩ := Outcome.bind_eq_ok_iff.mp hms
      have hdistinct' := hdistinct.insert (.text name) v
      have hall' := Members.forall_mem_insert (P := FromDocument) hall (.text name) (h.value hv)
      simp only at hms
      split at hms
      · cases hms
        exact ⟨hdistinct', hall'⟩
      · exact h.members hdistinct' hall' hms
      · cases hms

/-- The readers give plain values. Induction on the fuel, which every part of a value takes from. -/
theorem givesData : ∀ fuel, GivesData fuel
  | 0 => ⟨nofun, nofun, nofun⟩
  | fuel + 1 =>
    have h := givesData fuel
    ⟨h.value_succ, h.items_succ, h.members_succ⟩

/-- What a JSON document holds, at whatever depth. -/
theorem fromDocument_read {document : Text} {v : Value} (h : read document = .ok v) :
    FromDocument v := by
  unfold read at h
  split at h
  · cases h
  · obtain ⟨⟨w, p⟩, hw, h⟩ := Outcome.bind_eq_ok_iff.mp h
    simp only at h
    split at h
    · cases h
      exact (givesData _).value hw
    · cases h

end Json

/-! ## YAML -/

namespace Yaml

/-- Whatever its kind, a scalar of YAML is a plain value. -/
theorem fromDocument_scalarValue {kind : Kind} {t : Text} {v : Value}
    (h : scalarValue kind t = .ok v) : FromDocument v := by
  -- every kind of scalar gives a leaf, if it gives anything
  unfold scalarValue at h
  split at h
  · cases h
    exact trivial
  · split at h
    · cases h
      exact trivial
    · cases h
  · obtain ⟨n, -, hpure⟩ := Outcome.bind_eq_ok_iff.mp h
    cases hpure
    exact trivial
  · obtain ⟨x, -, hpure⟩ := Outcome.bind_eq_ok_iff.mp h
    cases hpure
    exact trivial
  · split at h
    · cases h
    · split at h
      · cases h
      · cases h
        exact trivial
  · cases h
    exact trivial
  · cases h

mutual

/-- The value of a node, by its form. An object is built by writing its merged members and then its
own, which keeps keys apart. -/
theorem fromDocument_valueOf : ∀ (n : Node) {v : Value}, valueOf n = .ok v → FromDocument v
  | .scalar _ _, _, h => fromDocument_scalarValue h
  | .list kind items, v, h => by
    unfold valueOf at h
    split at h
    · obtain ⟨vs, hvs, hpure⟩ := Outcome.bind_eq_ok_iff.mp h
      cases hpure
      exact allFromDocument_valuesOf items hvs
    · cases h
  | .object kind members, v, h => by
    unfold valueOf at h
    split at h
    · obtain ⟨⟨merged, own⟩, hms, hpure⟩ := Outcome.bind_eq_ok_iff.mp h
      cases hpure
      have hall := fromDocument_membersOf members hms
      refine ⟨Members.Distinct.insertAll List.Pairwise.nil _, membersFromDocument_iff.mpr ?_⟩
      exact Members.forall_mem_insertAll (P := FromDocument) nofun hall
    · cases h

/-- The values of the items of a node. -/
theorem allFromDocument_valuesOf : ∀ (ns : List Node) {vs : List Value}, valuesOf ns = .ok vs →
    AllFromDocument vs
  | [], _, h => by
    cases h
    exact trivial
  | n :: ns, _, h => by
    obtain ⟨v, hv, h⟩ := Outcome.bind_eq_ok_iff.mp h
    obtain ⟨vs, hvs, hpure⟩ := Outcome.bind_eq_ok_iff.mp h
    cases hpure
    exact ⟨fromDocument_valueOf n hv, allFromDocument_valuesOf ns hvs⟩

/-- The members of a node, those that are merged into it and its own. -/
theorem fromDocument_membersOf : ∀ (ns : List (Node × Node)) {merged own : Members},
    membersOf ns = .ok (merged, own) → ∀ m ∈ merged ++ own, FromDocument m.2
  | [], _, _, h => by
    cases h
    exact nofun
  | (k, n) :: ns, merged, own, h => by
    unfold membersOf at h
    split at h
    · obtain ⟨first, hfirst, h⟩ := Outcome.bind_eq_ok_iff.mp h
      obtain ⟨⟨merged, own⟩, hrest, hpure⟩ := Outcome.bind_eq_ok_iff.mp h
      cases hpure
      rw [List.append_assoc]
      exact List.forall_mem_append.mpr
        ⟨fromDocument_mergedOf n hfirst, fromDocument_membersOf ns hrest⟩
    · extract_lets go at h
      have hgo : ∀ key, go key = .ok (merged, own) → ∀ m ∈ merged ++ own, FromDocument m.2 := by
        intro key h
        obtain ⟨value, hvalue, h⟩ := Outcome.bind_eq_ok_iff.mp h
        obtain ⟨⟨merged, own⟩, hrest, hpure⟩ := Outcome.bind_eq_ok_iff.mp h
        cases hpure
        obtain ⟨hmerged, hown⟩ := List.forall_mem_append.mp (fromDocument_membersOf ns hrest)
        have hfirst := fromDocument_valueOf n hvalue
        exact List.forall_mem_append.mpr ⟨hmerged, List.forall_mem_cons.mpr ⟨hfirst, hown⟩⟩
      -- whichever way the key is read
      split at h
      · exact hgo _ h
      · obtain ⟨w, -, h⟩ := Outcome.bind_eq_ok_iff.mp h
        obtain ⟨key, -, h⟩ := Outcome.bind_eq_ok_iff.mp h
        exact hgo key h

/-- Members that are merged come from an object, or from a list of objects. -/
theorem fromDocument_mergedOf : ∀ (n : Node) {ms : Members}, mergedOf n = .ok ms →
    ∀ m ∈ ms, FromDocument m.2
  | .object _ members, _, h => by
    obtain ⟨⟨merged, own⟩, hms, hpure⟩ := Outcome.bind_eq_ok_iff.mp h
    cases hpure
    exact fromDocument_membersOf members hms
  | .list _ items, _, h => fromDocument_mergedOfAll items h
  | .scalar _ _, _, h => by cases h

/-- Members that are merged from a list of objects. -/
theorem fromDocument_mergedOfAll : ∀ (ns : List Node) {ms : Members}, mergedOfAll ns = .ok ms →
    ∀ m ∈ ms, FromDocument m.2
  | [], _, h => by
    cases h
    exact nofun
  | n :: ns, _, h => by
    obtain ⟨first, hfirst, h⟩ := Outcome.bind_eq_ok_iff.mp h
    obtain ⟨rest, hrest, hpure⟩ := Outcome.bind_eq_ok_iff.mp h
    cases hpure
    exact List.forall_mem_append.mpr
      ⟨fromDocument_mergedOfAll ns hrest, fromDocument_mappingMembers n hfirst⟩

/-- Members that are merged from one object of a list. -/
theorem fromDocument_mappingMembers : ∀ (n : Node) {ms : Members}, mappingMembers n = .ok ms →
    ∀ m ∈ ms, FromDocument m.2
  | .object _ members, _, h => by
    obtain ⟨⟨merged, own⟩, hms, hpure⟩ := Outcome.bind_eq_ok_iff.mp h
    cases hpure
    exact fromDocument_membersOf members hms
  | .list _ _, _, h => by cases h
  | .scalar _ _, _, h => by cases h

end

/-- What a YAML document holds, at whatever depth. An empty document is null. -/
theorem fromDocument_read {cs : List Char} {v : Value} (h : read cs = .ok v) : FromDocument v := by
  obtain ⟨root?, -, h⟩ := Outcome.bind_eq_ok_iff.mp h
  cases root? with
  | none =>
    cases h
    exact trivial
  | some root => exact fromDocument_valueOf root h

end Yaml

/-! ## Files -/

namespace Document

/-- Whichever format a document is read in, its value is plain: it is tried as JSON first, and as
YAML where the path allows it. -/
theorem fromDocument_value {path : Path} {cs : List Char} {v : Value}
    (h : value path cs = .ok v) : FromDocument v := by
  unfold value at h
  extract_lets document at h
  split at h
  next w hread =>
    cases h
    exact Json.fromDocument_read hread
  next => cases h
  next =>
    split at h
    next => cases h
    next =>
      unfold readYaml at h
      split at h
      next w hread =>
        cases h
        exact Yaml.fromDocument_read hread
      next => cases h
      next => cases h
      next => cases h
      next => cases h
      next => cases h

/-- The members of a file are plain values under different keys. -/
theorem fromDocument_members {path : Path} {bytes : Bytes} {ms : Members}
    (h : members path bytes = .ok ms) : FromDocument (.object ms) := by
  obtain ⟨cs, -, h⟩ := Outcome.bind_eq_ok_iff.mp h
  obtain ⟨v, hv, h⟩ := Outcome.bind_eq_ok_iff.mp h
  have hdocument := fromDocument_value hv
  unfold membersOf at h
  split at h
  · cases h
    exact fromDocument_empty
  · cases h
    exact hdocument
  · cases h

end Document

end OptionTypes
