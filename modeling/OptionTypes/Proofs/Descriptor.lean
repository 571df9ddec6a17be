import OptionTypes.Gap
import OptionTypes.Proofs.Check
import OptionTypes.Proofs.Members

/-!
# Nothing of an option is lost

A descriptor accounts for each member of the object that it is checked out of. A member names the
option, or is the one that some field is read from, or is kept aside as it is.

* `Descriptor.Field.value?` is the value that a field is read from: that of the first spelling that
  is a member.
* `Descriptor.Describes` says of every part of a descriptor where it comes from.
* `Descriptor.ofValue_keeps_members`: the descriptors that are found are those that describe their
  object, and every member of it goes to one place.
-/

namespace OptionTypes

open Check

/-- Other names as a value. -/
def OtherNames.value : OtherNames → Value
  | .one name => .text name
  | .many names => textsValue names

namespace Descriptor

variable {ms : Members} {k : Key}

/-! ## Where a field is read from -/

/-- A field of a descriptor that a member may give. -/
inductive Field where
  | type
  | choices
  | default
  | description
  | otherNames
  | demand
  deriving DecidableEq

namespace Field

variable {f : Field}

/-- All fields. -/
def all : List Field := [type, choices, default, description, otherNames, demand]

theorem mem_all (f : Field) : f ∈ all := by
  cases f <;> decide

/-- The spellings of a field, the preferred one first. -/
def spellings : Field → List String
  | type => ["type"]
  | choices => ["choices"]
  | default => ["default"]
  | description => descriptionSpellings
  | otherNames => ["alias"]
  | demand => demandSpellings

/-- The spelling that a field is read under: the first one that is a member. -/
def spelling? (ms : Members) (f : Field) : Option String :=
  f.spellings.find? fun (s : String) => (ms.find? (Text.ofString s)).isSome

/-- The value that a field is read from. -/
def value? (ms : Members) (f : Field) : Option Value :=
  (f.spelling? ms).bind fun (s : String) => ms.find? (Text.ofString s)

/-- Whether a field is read from the member with a key. -/
def reads (ms : Members) (f : Field) (k : Key) : Bool :=
  (f.spelling? ms).any fun (s : String) => k = .text (Text.ofString s)

/-- The field that a text is a spelling of. -/
def ofSpelling? (t : Text) : Option Field :=
  all.find? fun f => f.spellings.any fun (s : String) => t = Text.ofString s

/-- The spelling of a field tells which field it is: none is a spelling of two. -/
theorem ofSpelling?_of_mem {s : String} (h : s ∈ f.spellings) :
    ofSpelling? (Text.ofString s) = some f := by
  have hall : ∀ s ∈ f.spellings, ofSpelling? (Text.ofString s) = some f := by
    cases f <;> decide
  exact hall s h

theorem reads_iff : f.reads ms k = true ↔ ∃ s ∈ f.spelling? ms, k = .text (Text.ofString s) := by
  simp only [reads, Option.any_eq_true, decide_eq_true_eq, Option.mem_def]

/-- A field is only read from a member that is spelled like it. -/
theorem exists_of_reads (h : f.reads ms k = true) :
    ∃ t, k = .text t ∧ ofSpelling? t = some f := by
  obtain ⟨s, hs, rfl⟩ := reads_iff.mp h
  exact ⟨_, rfl, ofSpelling?_of_mem (List.mem_of_find?_eq_some hs)⟩

/-- No member is read for two fields. -/
theorem reads_unique {g : Field} (hf : f.reads ms k = true) (hg : g.reads ms k = true) : f = g := by
  obtain ⟨t, rfl, hf'⟩ := exists_of_reads hf
  obtain ⟨t', ht, hg'⟩ := exists_of_reads hg
  obtain rfl := Key.text.inj ht
  exact Option.some.inj (hf'.symm.trans hg')

/-- The name of the option is no spelling of a field. -/
theorem not_reads_name : f.reads ms (.text "name") = false := by
  by_contra h
  obtain ⟨t, ht, hf⟩ := exists_of_reads (Bool.not_eq_false _ ▸ h)
  obtain rfl := Key.text.inj ht
  have hnone : ofSpelling? "name" = none := by decide
  cases hnone.symm.trans hf

end Field

/-- The first spelling that is a member is found with its value. -/
theorem spelled?_eq (ms : Members) (spellings : List String) :
    spelled? ms spellings
      = (spellings.find? fun (s : String) => (ms.find? (Text.ofString s)).isSome).bind
          fun s => (ms.find? (Text.ofString s)).map fun v => (s, v) := by
  induction spellings with
  | nil => rfl
  | cons s rest ih =>
    rw [spelled?, List.findSome?_cons, List.find?_cons]
    cases hs : ms.find? (Text.ofString s) with
    | none => exact ih
    | some v => simp [hs]

/-- Which spelling is found does not depend on the value. -/
theorem spelled?_map_fst (ms : Members) (f : Field) :
    (spelled? ms f.spellings).map Prod.fst = f.spelling? ms := by
  rw [spelled?_eq, Field.spelling?]
  cases hs : f.spellings.find? fun (s : String) => (ms.find? (Text.ofString s)).isSome with
  | none => rfl
  | some s =>
    have hfound : (ms.find? (Text.ofString s)).isSome = true :=
      List.find?_some (p := fun (s : String) => (ms.find? (Text.ofString s)).isSome) hs
    obtain ⟨v, hv⟩ := Option.isSome_iff_exists.mp hfound
    simp [hv]

theorem spelled?_map_snd (ms : Members) (f : Field) :
    (spelled? ms f.spellings).map Prod.snd = f.value? ms := by
  rw [spelled?_eq, Field.value?, Field.spelling?, Option.map_bind]
  congr
  funext s
  rw [Function.comp_apply, Option.map_map]
  exact Option.map_id'

/-! ## The members that are kept aside -/

/-- Whether a member names the option or is one that a field is read from. -/
def isRead (ms : Members) (k : Key) : Bool :=
  k = .text "name" || Field.all.any fun f => f.reads ms k

theorem isRead_iff :
    isRead ms k = true ↔ k = .text "name" ∨ ∃ f : Field, f.reads ms k = true := by
  simp [isRead, Field.mem_all]

/-- Members that no field uses are kept as they are, in order, if all keys are texts. -/
theorem checkExtra_eq_ok_iff {used : List String} {extra : Members} :
    checkExtra used ms = .ok extra ↔
      (∀ m ∈ ms, ∃ t, m.1 = .text t)
        ∧ extra = ms.filter fun m => !used.any fun s => m.1 = .text (Text.ofString s) := by
  induction ms generalizing extra with
  | nil => simp [checkExtra, eq_comm]
  | cons m ms ih =>
    obtain ⟨k, v⟩ := m
    rw [List.forall_mem_cons]
    cases k with
    | text t =>
      simp only [checkExtra, List.filter_cons, Key.text.injEq]
      split
      next hused => simp [ih, hused]
      next hused =>
        rw [Outcome.map_eq_ok_iff]
        simp only [ih, hused]
        constructor
        · rintro ⟨rest, ⟨hkeys, rfl⟩, rfl⟩
          exact ⟨⟨⟨t, rfl⟩, hkeys⟩, rfl⟩
        · rintro ⟨⟨-, hkeys⟩, rfl⟩
          exact ⟨_, ⟨hkeys, rfl⟩, rfl⟩
    | _ =>
      -- a key that is no text is refused
      simp only [checkExtra, andAlso_eq_ok_iff]
      constructor
      · rintro ⟨_, _, hunit, -⟩
        cases hunit
      · rintro ⟨⟨⟨t, ht⟩, -⟩, -⟩
        cases ht

/-- A field with one spelling is read wherever that is a member. -/
theorem Field.reads_iff_of_singleton {f : Field} {s : String} (hs : f.spellings = [s]) {t : Text}
    (h : ms.Holds (.text t)) : f.reads ms (.text t) = true ↔ t = Text.ofString s := by
  rw [Field.reads_iff, Field.spelling?, hs]
  constructor
  · rintro ⟨s', hs', ht⟩
    obtain rfl := List.mem_singleton.mp (List.mem_of_find?_eq_some hs')
    exact Key.text.inj ht
  · rintro rfl
    have hfound := Members.isSome_get?_iff.mpr h
    exact ⟨s, List.find?_cons_of_pos (p := fun (s : String) => _) hfound, rfl⟩

theorem Field.value?_of_singleton {f : Field} {s : String} (hs : f.spellings = [s]) :
    f.value? ms = ms.find? (Text.ofString s) := by
  rw [Field.value?, Field.spelling?, hs, List.find?_cons]
  cases h : ms.find? (Text.ofString s) with
  | none => rfl
  | some v => exact h

/-- The spellings that the check of a descriptor takes for read. -/
def usedSpellings (ms : Members) : List String :=
  ["name", "type", "choices", "default", "alias"]
    ++ (Field.description.spelling? ms).toList ++ (Field.demand.spelling? ms).toList

/-- A member is used if it is read for a field or gives the name. The spellings that are used are
collected field by field, and a spelling that is a member's key is that of the field. -/
theorem usedSpellings_any {m : Key × Value} (h : m ∈ ms) (hkey : ∃ t, m.1 = .text t) :
    ((usedSpellings ms).any fun s => m.1 = .text (Text.ofString s)) = isRead ms m.1 := by
  obtain ⟨k, v⟩ := m
  obtain ⟨t, rfl⟩ := hkey
  have hheld : Members.Holds (.text t) ms := ⟨_, h, Key.same_refl _⟩
  -- a field of one spelling reads exactly the members of that spelling
  have htype := Field.reads_iff_of_singleton (f := .type) rfl hheld
  have hchoices := Field.reads_iff_of_singleton (f := .choices) rfl hheld
  have hdefault := Field.reads_iff_of_singleton (f := .default) rfl hheld
  have hothers := Field.reads_iff_of_singleton (f := .otherNames) rfl hheld
  have hspelled : ∀ f : Field,
      f.reads ms (.text t) = true ↔ ∃ s ∈ f.spelling? ms, t = Text.ofString s := by
    intro f
    simp [Field.reads_iff]
  rw [Bool.eq_iff_iff]
  simp only [usedSpellings, isRead, Field.all, List.cons_append, List.nil_append, List.any_append,
    List.any_cons, List.any_nil, Bool.or_false, Bool.or_eq_true, List.any_eq_true,
    decide_eq_true_eq, Key.text.injEq, Option.mem_toList, htype, hchoices, hdefault, hothers,
    hspelled, Option.mem_def]
  grind

theorem filter_usedSpellings (hkeys : ∀ m ∈ ms, ∃ t, m.1 = .text t) :
    (ms.filter fun m => !(usedSpellings ms).any fun s => m.1 = .text (Text.ofString s))
      = ms.filter fun m => !isRead ms m.1 :=
  List.filter_congr fun m hm => congrArg not (usedSpellings_any hm (hkeys m hm))

/-! ## The parts of a descriptor -/

theorem toOption_checkOtherNames {v : Value} (hnull : v ≠ .null) (htext : ∀ t, v ≠ .text t) :
    (checkOtherNames v).toOption = (texts v).toOption.map fun ts => some (.many ts) := by
  unfold checkOtherNames
  split
  next => exact absurd rfl hnull
  next t => exact absurd rfl (htext t)
  next =>
    cases texts v with
    | ok ts => rfl
    | error issues => rfl

theorem checkOtherNames_of_rest {v : Value} (hnull : v ≠ .null) (htext : ∀ t, v ≠ .text t)
    {x : Option OtherNames} :
    checkOtherNames v = .ok x ↔ ∃ ts, v = textsValue ts ∧ x = some (.many ts) := by
  rw [← Outcome.toOption_eq_some_iff, toOption_checkOtherNames hnull htext,
    Option.map_eq_some_iff]
  refine exists_congr fun ts => ?_
  rw [Outcome.toOption_eq_some_iff, reads_texts v]
  exact and_congr_right fun _ => eq_comm

/-- Other names are read back from how they are written: none, one text or several. -/
theorem reads_otherNames : Reads checkOtherNames (orNull OtherNames.value) := by
  intro v x
  cases v with
  | null =>
    rcases x with _ | _ | _
    · simp [checkOtherNames, orNull]
    · simp [checkOtherNames, orNull, OtherNames.value]
    · simp [checkOtherNames, orNull, OtherNames.value, textsValue]
  | text t =>
    rcases x with _ | _ | _
    · simp [checkOtherNames, orNull]
    · simp [checkOtherNames, orNull, OtherNames.value]
    · simp [checkOtherNames, orNull, OtherNames.value, textsValue]
  | _ =>
    refine (checkOtherNames_of_rest (by simp) (by simp)).trans ?_
    rcases x with _ | _ | _
    · simp [orNull]
    · simp [orNull, OtherNames.value]
    · simp [orNull, OtherNames.value]

/-- What the value for a demand says, if there is one. -/
inductive Demands : Option Value → Demand → Prop
  | absent : Demands none (.plain false)
  | plain {v : Value} {b : Bool} (h : IsTruth v b) : Demands (some v) (.plain b)
  | message (t : Text) : Demands (some (.text t)) (.message t)

theorem toOption_checkDemand {v : Value} (htext : ∀ t, v ≠ .text t) :
    (checkDemand v).toOption = (truth v).toOption.map .plain := by
  unfold checkDemand
  split
  next t => exact absurd rfl (htext t)
  next =>
    cases truth v with
    | ok b => rfl
    | error issues => rfl

/-- A demand is read from any value: a text is one with a message, everything else counts as true or
false. -/
theorem checkDemand_eq_ok_iff {v : Value} {demand : Demand} :
    checkDemand v = .ok demand ↔ Demands (some v) demand := by
  -- a text is the message of the demand, and of any other value only the truth matters
  by_cases htext : ∃ t, v = .text t
  · obtain ⟨t, rfl⟩ := htext
    constructor
    · intro h
      obtain rfl := Except.ok.inj h
      exact .message t
    · rintro (_ | ⟨h⟩)
      · cases h
      · rfl
  · rw [not_exists] at htext
    rw [← Outcome.toOption_eq_some_iff, toOption_checkDemand htext, Option.map_eq_some_iff]
    simp only [Outcome.toOption_eq_some_iff, truth_eq_ok_iff]
    constructor
    · rintro ⟨b, hb, rfl⟩
      exact .plain hb
    · rintro (_ | ⟨h⟩ | ⟨t⟩)
      · exact ⟨_, h, rfl⟩
      · exact absurd rfl (htext t)

/-- A field that is checked wherever a member gives it. -/
theorem member_eq_ok_iff {α : Type} (f : Field) {missing x : α} {check : Value → Checked α} :
    member ms f.spellings missing check = .ok x ↔
      match f.value? ms with
      | none => missing = x
      | some v => check v = .ok x := by
  rw [← spelled?_map_snd, member]
  cases spelled? ms f.spellings with
  | none => exact ⟨Except.ok.inj, congrArg Except.ok⟩
  | some found => exact within_eq_ok_iff

/-- A field that is written as null when it is not there is read from its member, or from null. -/
theorem member_eq_ok_iff_of_reads {α : Type} (f : Field) {x : Option α}
    {check : Value → Checked (Option α)} {write : α → Value} (h : Reads check (orNull write)) :
    member ms f.spellings none check = .ok x ↔ (f.value? ms).getD .null = orNull write x := by
  rw [member_eq_ok_iff]
  cases f.value? ms with
  | some v => exact h v x
  | none =>
    rw [Option.getD_none, ← h .null x]
    have hnull : check .null = .ok none := h.check_write none
    rw [hnull]
    exact (Except.ok.injEq _ _).symm ▸ Iff.rfl

theorem reads_choices : Reads (fun
    | .null => .ok none
    | v => (list v).map some : Value → Checked (Option (List Value))) (orNull .list) := by
  refine reads_list.orNull (fun _ => Value.noConfusion) rfl fun v hv => ?_
  cases v with
  | null => exact absurd rfl hv
  | _ => rfl

theorem member_demand_eq_ok_iff {demand : Demand} :
    member ms demandSpellings (.plain false) checkDemand = .ok demand ↔
      Demands (Field.demand.value? ms) demand := by
  refine (member_eq_ok_iff .demand).trans ?_
  cases Field.demand.value? ms with
  | some v => exact checkDemand_eq_ok_iff
  | none =>
    constructor
    · rintro rfl
      exact .absent
    · rintro ⟨⟩
      rfl

/-! ## What a descriptor describes -/

/-- A descriptor with a name describes the members of an object: each part says what it is read
from, and what is read by none is kept. -/
structure Describes (name : Key) (ms : Members) (d : Descriptor) : Prop where
  keys : ∀ m ∈ ms, ∃ t, m.1 = .text t ∧ (Text.chars? t).isSome = true
  name : name = .text d.name
  type : (Field.type.value? ms).getD .null = orNull .text d.type
  choices : (Field.choices.value? ms).getD .null = orNull .list d.choices
  default : (Field.default.value? ms).getD .null = d.default
  description : (Field.description.value? ms).getD .null = orNull .text d.description
  otherNames : (Field.otherNames.value? ms).getD .null = orNull OtherNames.value d.otherNames
  demand : Demands (Field.demand.value? ms) d.demand
  extra : d.extra = ms.filter fun m => !isRead ms m.1

theorem Describes.text_keys {name : Key} {d : Descriptor} (h : Describes name ms d) :
    ∀ m ∈ ms, ∃ t, m.1 = .text t := by
  intro m hm
  obtain ⟨t, ht, -⟩ := h.keys m hm
  exact ⟨t, ht⟩

theorem isUnencodable_any_iff (hkeys : ∀ m ∈ ms, ∃ t, m.1 = .text t) :
    (ms.any fun (k, _) => isUnencodable k) = false ↔
      ∀ m ∈ ms, ∃ t, m.1 = .text t ∧ (Text.chars? t).isSome = true := by
  rw [List.any_eq_false]
  refine forall₂_congr fun m hm => ?_
  obtain ⟨k, v⟩ := m
  obtain ⟨t, rfl⟩ := hkeys _ hm
  simp [isUnencodable, Option.isSome_iff_ne_none]

theorem checked_name {name : Key} {t : Text} :
    within (.field "name") (match name with
      | .text t => .ok t
      | _ => reject .text) = .ok t ↔ name = .text t := by
  rw [within_eq_ok_iff]
  cases name with
  | text s => simp
  | _ => exact ⟨nofun, nofun⟩

/-- **What a descriptor describes.** The checks are made one after the other; each of them succeeds
just when its part of `Describes` holds. -/
theorem ofMembers_eq_ok_iff {name : Key} {d : Descriptor} :
    ofMembers name ms = .ok d ↔ Describes name ms d := by
  -- the spellings in the order in which the fields are read
  have hused : ["name", "type", "choices", "default", "alias"]
      ++ ((spelled? ms descriptionSpellings).map Prod.fst).toList
      ++ ((spelled? ms demandSpellings).map Prod.fst).toList = usedSpellings ms := by
    -- Only the names of the members that are found count, not their values.
    rw [usedSpellings, ← spelled?_map_fst, ← spelled?_map_fst]
    rfl
  unfold ofMembers
  simp only [hused]
  split
  next hany =>
    constructor
    · exact nofun
    · intro h
      rw [(isUnencodable_any_iff h.text_keys).mpr h.keys] at hany
      cases hany
  next hany =>
    simp only [Outcome.map_eq_ok_iff, both_eq_ok_iff]
    constructor
    -- The fields that are read, each by its own check; the default is taken as it stands.
    · rintro ⟨p, ⟨hname, htype, hchoices, hdescription, hothers, hdemand, hextra⟩, rfl⟩
      obtain ⟨hkeys, hextra⟩ := checkExtra_eq_ok_iff.mp hextra
      exact {
        keys := (isUnencodable_any_iff hkeys).mp (Bool.not_eq_true _ ▸ hany)
        name := checked_name.mp hname
        type := (member_eq_ok_iff_of_reads .type reads_text?).mp htype
        choices := (member_eq_ok_iff_of_reads .choices reads_choices).mp hchoices
        default := by rw [Field.value?_of_singleton rfl]
        description := (member_eq_ok_iff_of_reads .description reads_text?).mp hdescription
        otherNames := (member_eq_ok_iff_of_reads .otherNames reads_otherNames).mp hothers
        demand := member_demand_eq_ok_iff.mp hdemand
        extra := hextra.trans (filter_usedSpellings hkeys) }
    · intro h
      have hextra := h.extra.trans (filter_usedSpellings h.text_keys).symm
      have hdefault := h.default
      rw [Field.value?_of_singleton rfl] at hdefault
      refine ⟨(d.name, d.type, d.choices, d.description, d.otherNames, d.demand, d.extra), ?_, ?_⟩
      · exact ⟨checked_name.mpr h.name, (member_eq_ok_iff_of_reads .type reads_text?).mpr h.type,
          (member_eq_ok_iff_of_reads .choices reads_choices).mpr h.choices,
          (member_eq_ok_iff_of_reads .description reads_text?).mpr h.description,
          (member_eq_ok_iff_of_reads .otherNames reads_otherNames).mpr h.otherNames,
          member_demand_eq_ok_iff.mpr h.demand, checkExtra_eq_ok_iff.mpr ⟨h.text_keys, hextra⟩⟩
      · cases d
        simp only [hdefault]

/-! ## Where a member goes -/

/-- A place that a member of an object may go to. -/
inductive Place where
  | name
  | field (f : Field)
  | extra

/-- Whether a member of an object goes to a place. -/
def Goes (ms : Members) (d : Descriptor) (m : Key × Value) : Place → Prop
  | .name => m.1 = .text "name"
  | .field f => f.reads ms m.1 = true
  | .extra => m ∈ d.extra

/-- A member goes to the field it is read for, to the name, or to the members that are kept aside,
and to no two of these. -/
theorem Describes.existsUnique_place {name : Key} {d : Descriptor} (h : Describes name ms d)
    {m : Key × Value} (hm : m ∈ ms) : ∃! p, Goes ms d m p := by
  have hextra : m ∈ d.extra ↔ isRead ms m.1 = false := by
    rw [h.extra, List.mem_filter, Bool.not_eq_true', and_iff_right hm]
  by_cases hread : isRead ms m.1 = true
  · have hkept : m ∉ d.extra := by simp [hextra, hread]
    rcases isRead_iff.mp hread with hname | ⟨f, hf⟩
    · -- the name is no spelling of a field
      refine ⟨.name, hname, fun p hp => ?_⟩
      cases p with
      | name => rfl
      | field f =>
        rw [Goes, hname, Field.not_reads_name] at hp
        cases hp
      | extra => exact absurd hp hkept
    · refine ⟨.field f, hf, fun p hp => ?_⟩
      cases p with
      | name =>
        rw [Goes] at hp
        rw [hp, Field.not_reads_name] at hf
        cases hf
      | field g => rw [Field.reads_unique hp hf]
      | extra => exact absurd hp hkept
  · refine ⟨.extra, hextra.mpr (Bool.not_eq_true _ ▸ hread), fun p hp => ?_⟩
    cases p with
    | name => exact absurd (isRead_iff.mpr (.inl hp)) hread
    | field f => exact absurd (isRead_iff.mpr (.inr ⟨f, hp⟩)) hread
    | extra => rfl

theorem ofValue_object_eq_ok_iff {command : Text} {key : Key} {d : Descriptor} :
    ofValue command key (.object ms) = .ok d ↔ Describes key ms d := by
  show (ofMembers key ms).mapError _ = .ok d ↔ _
  rw [Outcome.mapError_eq_ok_iff, ofMembers_eq_ok_iff]

/-- **No member of an option is lost.** A descriptor is found exactly when it describes the members
of an object, and then each of them goes to one place.

The first part is `ofMembers_eq_ok_iff`, check by check. For the second, no spelling belongs to two
fields (`reads_unique`) and what is kept aside is what no field is read from. -/
theorem ofValue_keeps_members (command : Text) (key : Key) (v : Value) (d : Descriptor) :
    (ofValue command key v = .ok d ↔ ∃ ms, v = .object ms ∧ Describes key ms d)
      ∧ ∀ ms, Describes key ms d → ∀ m ∈ ms, ∃! p, Goes ms d m p := by
  refine ⟨?_, fun ms h m hm => h.existsUnique_place hm⟩
  cases v with
  | object ms =>
    rw [ofValue_object_eq_ok_iff]
    constructor
    · intro h
      exact ⟨ms, rfl, h⟩
    · rintro ⟨ms', heq, h⟩
      cases heq
      exact h
  | _ =>
    constructor
    · exact nofun
    · rintro ⟨ms, heq, -⟩
      cases heq

example : ((ofValue "run" (.text "port") (.record [("desc", .str "later"), ("name", .str "other"),
      ("coerce", .function "Number"), ("describe", .str "first")])).toOption.map
        fun d => (d.name, d.description, d.extra))
    = some (("port" : Text), some ("first" : Text),
      [(.text "desc", .str "later"), (.text "coerce", .function "Number")]) := by
  rfl

end Descriptor

end OptionTypes
