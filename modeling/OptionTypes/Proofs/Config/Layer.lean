import OptionTypes.Config
import OptionTypes.Proofs.Check
import OptionTypes.Proofs.Members

/-!
# One layer of a configuration

Members that are laid over a configuration replace six of its fields and are combined with two. The
configuration is written out, overwritten and checked again on the way, and that leaves the fields
alone that no member is laid over.

* `Config.find?_layAll`: what is found under a name once members are laid over others.
* `Config.Layered` says of each field of a configuration what it is under a layer.
* `Config.merge_eq_ok_iff`: merging gives the configuration of which this holds.
-/

namespace OptionTypes

open Check

/-! ## Values without functions -/

namespace Value

mutual

/-- Whether a value holds no function. -/
def isData : Value → Bool
  | function _ => false
  | list items => itemsAreData items
  | object members => membersAreData members
  | _ => true

/-- Whether no item of a list holds a function. -/
def itemsAreData : List Value → Bool
  | [] => true
  | v :: vs => v.isData && itemsAreData vs

/-- Whether no member of an object holds a function. -/
def membersAreData : List (Key × Value) → Bool
  | [] => true
  | (_, v) :: rest => v.isData && membersAreData rest

end

/-- Whether the members of an object hold no function is told by each of them on its own. The checks
of values recurse through lists of members, which this turns into a statement about what is in them.
Induction on the members. -/
theorem membersAreData_iff {ms : Members} :
    membersAreData ms = true ↔ ∀ m ∈ ms, m.2.isData = true := by
  induction ms with
  | nil => simp [membersAreData]
  | cons m ms ih =>
    obtain ⟨k, v⟩ := m
    rw [membersAreData, Bool.and_eq_true, ih, List.forall_mem_cons]

end Value

namespace Config

open Value

mutual

/-- Writing a value out leaves no function in it, at whatever depth: each one becomes an object with
its source. Mutual induction on values, items and members, as writing out recurses. -/
theorem isData_writtenValue : ∀ v, (writtenValue v).isData = true
  | .function _ => rfl
  | .list items => itemsAreData_writtenItems items
  | .object ms => membersAreData_writtenMembers ms
  | .null | .bool _ | .number _ | .complex _ _ | .text _ | .foreign _ _ => rfl

/-- The items of a list are written out without a function. -/
theorem itemsAreData_writtenItems : ∀ vs, itemsAreData (writtenItems vs) = true
  | [] => rfl
  | v :: vs => by
    rw [writtenItems, itemsAreData, isData_writtenValue v, itemsAreData_writtenItems vs]
    rfl

/-- The members of an object are written out without a function. -/
theorem membersAreData_writtenMembers : ∀ ms, membersAreData (writtenMembers ms) = true
  | [] => rfl
  | (k, v) :: ms => by
    rw [writtenMembers, membersAreData, isData_writtenValue v, membersAreData_writtenMembers ms]
    rfl

end

mutual

/-- Values without functions are written as they are. So writing out a second time changes nothing,
and a configuration from documents is not changed by it at all. -/
theorem writtenValue_of_isData : ∀ v, v.isData = true → writtenValue v = v
  | .list items, h => congrArg Value.list (writtenItems_of_itemsAreData items h)
  | .object ms, h => congrArg Value.object (writtenMembers_of_membersAreData ms h)
  | .null, _ | .bool _, _ | .number _, _ | .complex _ _, _ | .text _, _ | .foreign _ _, _ => rfl

/-- Items without functions are written as they are. -/
theorem writtenItems_of_itemsAreData : ∀ vs, itemsAreData vs = true → writtenItems vs = vs
  | [], _ => rfl
  | v :: vs, h => by
    rw [itemsAreData, Bool.and_eq_true] at h
    rw [writtenItems, writtenValue_of_isData v h.1, writtenItems_of_itemsAreData vs h.2]

/-- Members without functions are written as they are, keys and order included. -/
theorem writtenMembers_of_membersAreData : ∀ ms, membersAreData ms = true → writtenMembers ms = ms
  | [], _ => rfl
  | (k, v) :: ms, h => by
    rw [membersAreData, Bool.and_eq_true] at h
    rw [writtenMembers, writtenValue_of_isData v h.1, writtenMembers_of_membersAreData ms h.2]

end

/-- A configuration as it is written out. -/
def written (c : Config) : Config :=
  { c with symbols := c.symbols.map fun (k, v) => (k, writtenValue v) }

/-- Whether no symbol of a configuration holds a function. -/
def IsData (c : Config) : Prop := ∀ s ∈ c.symbols, s.2.isData = true

/-- A configuration that was written out holds no function. -/
theorem isData_written (c : Config) : c.written.IsData := by
  intro s hs
  obtain ⟨s, -, rfl⟩ := List.mem_map.mp hs
  exact isData_writtenValue s.2

/-- A configuration without functions is written as it is. Only symbols can hold one at all: the
checks of the other fields refuse it. -/
theorem IsData.written_eq {c : Config} (h : c.IsData) : c.written = c := by
  have hsymbols : c.symbols.map (fun (k, v) => (k, writtenValue v)) = c.symbols.map id :=
    List.map_congr_left fun s hs => congrArg (s.1, ·) (writtenValue_of_isData s.2 (h s hs))
  rw [written, hsymbols, List.map_id]

/-! ## Members laid over others -/

variable {base a : Members} {k : Key} {name : Text}

/-- Members laid over others, one after the other. -/
def layAll (base a : Members) : Members := a.foldl (fun ms (k, v) => layMember ms k v) base

/-- Whether the members of a field are combined. -/
def isMerged (name : Text) : Bool :=
  mergedFields.any fun (field : String) => name = Text.ofString field

/-- The fields whose members are combined, by name. -/
theorem isMerged_iff : isMerged name = true ↔ name = "symbols" ∨ name = "type_overrides" := by
  simp [isMerged, mergedFields]

/-- A value that is laid over another: objects of some fields are combined. -/
def combine (name : Text) (old : Option Value) (new : Value) : Value :=
  match new, old with
  | .object new, some (.object old) =>
    .object (if isMerged name then Members.insertAll old new else new)
  | new, _ => new

/-- What is found under a name once a value is laid over another. -/
def laidValue (name : Text) (old new : Option Value) : Option Value :=
  match new with
  | none => old
  | some new => some (combine name old new)

/-- A name stands for the same member as a key only if the key is that text: a number under the same
spelling is another member. -/
theorem same_text_iff : k.same (.text name) = true ↔ k = .text name := by
  rw [Key.same_iff]
  cases k <;> simp [Key.canonical]

/-- A name finds the member that was inserted last under it, and otherwise what was there. -/
theorem find?_insert (ms : Members) (v : Value) :
    (Members.insert k v ms).find? name = if k = .text name then some v else ms.find? name := by
  rw [Members.find?, Members.get?_insert]
  simp only [same_text_iff]
  rfl

/-- Laying a member over others is inserting what it makes up with the value that is there. -/
theorem layMember_text (ms : Members) (v : Value) : layMember ms (.text name) v
    = Members.insert (.text name) (combine name (ms.find? name) v) ms := by
  have hmerged : (mergedFields.any fun (field : String) =>
      Key.text name = .text (Text.ofString field)) = isMerged name := by
    simp only [isMerged, Key.text.injEq]
  unfold layMember
  rw [← Members.find?]
  cases v with
  | object new =>
    cases ms.find? name with
    | none => rfl
    | some old =>
      cases old with
      | object old =>
        simp only [hmerged, combine]
        split
        · rfl
        · rfl
      | _ => rfl
  | _ => rfl

/-- A member under another key leaves what a name finds alone. -/
theorem layMember_of_ne (ms : Members) (v : Value) (hk : k ≠ .text name) :
    (layMember ms k v).find? name = ms.find? name := by
  have hinsert : ∀ v, (Members.insert k v ms).find? name = ms.find? name := by
    intro v
    rw [find?_insert, if_neg hk]
  unfold layMember
  split
  · split
    · exact hinsert _
    · exact hinsert _
  · exact hinsert _

/-- What a name finds once one member is laid over others. -/
theorem find?_layMember (ms : Members) (v : Value) : (layMember ms k v).find? name
    = if k = .text name then laidValue name (ms.find? name) (some v) else ms.find? name := by
  split
  next hk =>
    subst hk
    rw [layMember_text, find?_insert, if_pos rfl]
    rfl
  next hk => exact layMember_of_ne ms v hk

/-- Under a name there is what the two values make up. Induction on the members that are laid over
the others, of which no later one has the same name; so the first step that meets the name is also
the last, and the value from below reaches it unchanged. -/
theorem find?_layAll (ha : a.Distinct) :
    (layAll base a).find? name = laidValue name (base.find? name) (a.find? name) := by
  induction a generalizing base with
  | nil => rfl
  | cons m a ih =>
    obtain ⟨k, v⟩ := m
    obtain ⟨hk, ha⟩ := Members.distinct_cons.mp ha
    show (layAll (layMember base k v) a).find? name = _
    have hcons : Members.find? name ((k, v) :: a)
        = if k = .text name then some v else Members.find? name a := by
      rw [Members.find?, Members.get?_cons]
      simp only [same_text_iff]
      rfl
    rw [ih ha, find?_layMember, hcons]
    by_cases hname : k = .text name
    · subst hname
      -- the keys are distinct, so nothing after this member has its name
      have hrest : Members.find? name a = none := Members.get?_of_not_holds hk
      rw [if_pos rfl, if_pos rfl, hrest]
      rfl
    · rw [if_neg hname, if_neg hname]

/-! ## Fields under a layer -/

/-- Whether a field is as it was, or as the check of the value that is laid over it says. -/
def Laid {α : Type} (check : Value → Checked α) (v? : Option Value) (old new : α) : Prop :=
  match v? with
  | none => new = old
  | some v => check v = .ok new

/-- Whether a field is as it was, or combined with the members that are laid over it. -/
def Combined {α : Type} (write : α → Value) (v? : Option Value) (old new : List (Text × α)) :
    Prop :=
  match v? with
  | none => new = old
  | some v => ∃ ms, v = .object ms ∧ membersOf write new = (membersOf write old).insertAll ms

/-- A field is what the check says of the member that is found for it. -/
theorem member_eq_ok_iff {α : Type} {ms : Members} {name : String} {w : Value} {missing x : α}
    {check : Value → Checked α} (h : ms.find? name = some w) :
    member ms name missing check = .ok x ↔ check w = .ok x := by
  rw [member, h]
  exact within_eq_ok_iff

/-- In most fields the new value takes the place of the old one. -/
theorem combine_of_not_isMerged (h : isMerged name = false) (old : Option Value) (new : Value) :
    combine name old new = new := by
  unfold combine
  split
  next => rw [h]; rfl
  next => rfl

/-- A field that is replaced as a whole, under a layer. Without a member in the layer the value from
below is checked, and that gives back what was written out. -/
theorem member_layAll_iff_laid {α : Type} {name : String} (hname : isMerged name = false)
    {check : Value → Checked α} {old new missing : α} {w : Value}
    (hbase : base.find? name = some w) (hw : check w = .ok old) (ha : a.Distinct) :
    member (layAll base a) name missing check = .ok new ↔ Laid check (a.find? name) old new := by
  have hfind : (layAll base a).find? name = _ := find?_layAll ha
  rw [hbase] at hfind
  cases hnew : a.find? (Text.ofString name) with
  | none =>
    rw [hnew] at hfind
    rw [member_eq_ok_iff hfind, hw, Except.ok.injEq]
    exact eq_comm
  | some v =>
    rw [hnew, laidValue, combine_of_not_isMerged hname] at hfind
    rw [member_eq_ok_iff hfind]
    rfl

/-- A field whose members are combined, under a layer. Writing out, inserting and checking again
amount to inserting among the members of the field, since a check reads what was written. -/
theorem member_layAll_iff_combined {α : Type} {name : String} (hname : isMerged name = true)
    {check : Value → Checked α} {write : α → Value} (h : Reads check write)
    {old new missing : List (Text × α)}
    (hbase : base.find? name = some (.object (membersOf write old))) (ha : a.Distinct) :
    member (layAll base a) name missing (object check) = .ok new
      ↔ Combined write (a.find? name) old new := by
  have hfind : (layAll base a).find? name = _ := find?_layAll ha
  rw [hbase] at hfind
  -- where the layer leaves the field out, the field of the base is checked again and found as it
  -- was
  cases hnew : a.find? (Text.ofString name) with
  | none =>
    rw [hnew] at hfind
    rw [member_eq_ok_iff hfind, h.object.check_write, Except.ok.injEq]
    exact eq_comm
  | some v =>
    rw [hnew, laidValue] at hfind
    rw [member_eq_ok_iff hfind, h.object]
    cases v with
    | object ms =>
      show combine _ _ _ = _ ↔ ∃ ms', Value.object ms = .object ms' ∧ _
      rw [combine, hname, if_pos rfl, Value.object.injEq]
      constructor
      · intro heq
        exact ⟨ms, rfl, heq.symm⟩
      · rintro ⟨_, ⟨⟩, heq⟩
        exact heq.symm
    | _ => simp [combine, Combined]

/-! ## Configurations under a layer -/

/-- Whether the bounds hold that the check of a configuration asks for. -/
structure Valid (c : Config) : Prop where
  wrapWidth : minimumWidth ≤ c.wrapWidth
  timeout : 0 < c.timeout

/-- The standard configuration is valid. -/
theorem valid_standard : Valid .standard := ⟨by decide, by decide⟩

/-- A configuration that another one becomes under a layer. -/
structure Layered (base : Config) (a : Members) (c : Config) : Prop where
  urlTemplate : Laid text (a.find? "url_template") base.urlTemplate c.urlTemplate
  commands : Laid texts (a.find? "commands") base.commands c.commands
  symbols : Combined (fun v => v) (a.find? "symbols") base.symbols c.symbols
  typeOverrides : Combined .text (a.find? "type_overrides") base.typeOverrides c.typeOverrides
  preferredNames : Laid texts (a.find? "preferred_aliases") base.preferredNames c.preferredNames
  wrapWidth : Laid (integerFrom minimumWidth) (a.find? "wrap_width") base.wrapWidth c.wrapWidth
  debugDir : Laid text (a.find? "debug_dir") base.debugDir c.debugDir
  timeout : Laid positive (a.find? "timeout") base.timeout c.timeout

variable {base c : Config}

/-- The symbols of a configuration as they are written out. -/
theorem toMembers_symbols : base.toMembers.find? "symbols"
    = some (.object (membersOf (fun v => v) base.written.symbols)) := by
  show some (objectOf _) = _
  rw [objectOf, membersOf, written, List.map_map]
  rfl

/-- The overridden types of a configuration as they are written out. They are texts, so nothing in
them has another form. -/
theorem toMembers_typeOverrides : base.toMembers.find? "type_overrides"
    = some (.object (membersOf .text base.typeOverrides)) := by
  show some (objectOf _) = _
  rw [objectOf, List.map_map]
  rfl

/-- Merging is layering, each field on its own. The configuration is written out, the layer is laid
over it, and all eight fields are checked again; `member_layAll_iff_laid` and
`member_layAll_iff_combined` say what that is for one field. The bounds on the base are needed: a
base out of bounds would be refused when it is read again, although no member is laid over it. -/
theorem merge_eq_ok_iff (hbase : base.Valid) (ha : a.Distinct) :
    merge base a = .ok c ↔ Layered base.written a c := by
  let ms := layAll base.toMembers a
  -- A field is replaced as a whole, but for the two tables, whose members are combined.
  have hurl : ∀ {x}, member ms "url_template" standard.urlTemplate text = .ok x ↔
      Laid text (a.find? "url_template") base.urlTemplate x :=
    member_layAll_iff_laid rfl rfl rfl ha
  have hcommands : ∀ {x}, member ms "commands" standard.commands texts = .ok x ↔
      Laid texts (a.find? "commands") base.commands x :=
    member_layAll_iff_laid rfl rfl (reads_texts.check_write _) ha
  have hsymbols : ∀ {x}, member ms "symbols" standard.symbols (object fun v => .ok v) = .ok x ↔
      Combined (fun v => v) (a.find? "symbols") base.written.symbols x :=
    member_layAll_iff_combined rfl reads_value toMembers_symbols ha
  have htypes : ∀ {x}, member ms "type_overrides" standard.typeOverrides (object text) = .ok x ↔
      Combined .text (a.find? "type_overrides") base.typeOverrides x :=
    member_layAll_iff_combined rfl reads_text toMembers_typeOverrides ha
  have hnames : ∀ {x}, member ms "preferred_aliases" standard.preferredNames texts = .ok x ↔
      Laid texts (a.find? "preferred_aliases") base.preferredNames x :=
    member_layAll_iff_laid rfl rfl (reads_texts.check_write _) ha
  have hwidth : ∀ {x}, member ms "wrap_width" standard.wrapWidth (integerFrom minimumWidth) = .ok x
      ↔ Laid (integerFrom minimumWidth) (a.find? "wrap_width") base.wrapWidth x :=
    member_layAll_iff_laid rfl rfl (integerFrom_int hbase.wrapWidth) ha
  have hdebug : ∀ {x}, member ms "debug_dir" standard.debugDir text = .ok x ↔
      Laid text (a.find? "debug_dir") base.debugDir x :=
    member_layAll_iff_laid rfl rfl rfl ha
  have htimeout : ∀ {x}, member ms "timeout" standard.timeout positive = .ok x ↔
      Laid positive (a.find? "timeout") base.timeout x :=
    member_layAll_iff_laid rfl rfl (positive_float hbase.timeout) ha
  show ofMembers ms = .ok c ↔ _
  simp only [ofMembers, Outcome.map_eq_ok_iff, both_eq_ok_iff, hurl, hcommands, hsymbols, htypes,
    hnames, hwidth, hdebug, htimeout]
  constructor
  · rintro ⟨p, ⟨hurl, hcommands, hsymbols, htypes, hnames, hwidth, hdebug, htimeout⟩, rfl⟩
    exact ⟨hurl, hcommands, hsymbols, htypes, hnames, hwidth, hdebug, htimeout⟩
  · intro h
    refine ⟨(c.urlTemplate, c.commands, c.symbols, c.typeOverrides, c.preferredNames, c.wrapWidth,
      c.debugDir, c.timeout), ?_, rfl⟩
    exact ⟨h.urlTemplate, h.commands, h.symbols, h.typeOverrides, h.preferredNames, h.wrapWidth,
      h.debugDir, h.timeout⟩

/-- What the check of a field guarantees holds of a field under a layer, if it held below it. -/
theorem Laid.of_check {α : Type} {check : Value → Checked α} {v? : Option Value} {old new : α}
    {P : α → Prop} (h : Laid check v? old new) (hold : P old)
    (hcheck : ∀ v x, check v = .ok x → P x) : P new := by
  cases v? with
  | none => exact Eq.subst (Eq.symm h) hold
  | some v => exact hcheck v new h

/-- What is layered is valid again. -/
theorem Layered.valid (h : Layered base a c) (hbase : base.Valid) : c.Valid where
  wrapWidth := h.wrapWidth.of_check hbase.wrapWidth fun _ _ => le_of_integerFrom
  timeout := h.timeout.of_check hbase.timeout fun _ _ => pos_of_positive

/-- A layer without members leaves a configuration as it is. -/
theorem Layered.nil (c : Config) : Layered c [] c := ⟨rfl, rfl, rfl, rfl, rfl, rfl, rfl, rfl⟩

/-- A layer whose symbols hold no function leaves no other symbols behind. -/
theorem Layered.isData (h : Layered base a c) (hbase : base.IsData)
    (ha : ∀ v, a.find? "symbols" = some v → v.isData = true) : c.IsData := by
  have hsymbols := h.symbols
  generalize a.find? "symbols" = a? at hsymbols ha
  cases a? with
  | none =>
    have heq : c.symbols = base.symbols := hsymbols
    rw [IsData, heq]
    exact hbase
  | some v =>
    obtain ⟨ms, rfl, heq⟩ := hsymbols
    have hms : ∀ m ∈ ms, m.2.isData = true := membersAreData_iff.mp (ha _ rfl)
    -- the symbols of the base, as the members they are merged with
    have hold : ∀ m ∈ membersOf (fun v => v) base.symbols, m.2.isData = true := by
      intro m hm
      obtain ⟨s, hs, rfl⟩ := List.mem_map.mp hm
      exact hbase s hs
    intro s hs
    have hmem : (Key.text s.1, s.2) ∈ membersOf (fun v => v) c.symbols := List.mem_map_of_mem hs
    rw [heq] at hmem
    exact Members.forall_mem_insertAll (P := fun v => v.isData = true) hold hms _ hmem

/-- **Merging nothing changes nothing**, as long as no symbol holds a function: such a one would
come back as an object. -/
theorem merge_nil (hc : c.Valid) (hdata : c.IsData) : merge c [] = .ok c := by
  rw [merge_eq_ok_iff hc List.Pairwise.nil, hdata.written_eq]
  exact .nil c

end Config

end OptionTypes
