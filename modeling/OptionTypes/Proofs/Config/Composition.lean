import OptionTypes.Proofs.Config.Precedence

/-!
# Layers one after the other

Two layers may be laid over each other before they are laid over a configuration: it makes no
difference. The configuration between them is checked and written out, and its fields come back from
that as they were, because what a document or a variable gives is written as it is.

* `Config.IsLayer` says what may be laid over a configuration: the members of a document or of the
  variables, with objects in the two fields that are combined.
* `Config.Overlays` says what a layer over another one is.
* `Config.merge_merge`: merging one after the other is merging both, and merging nothing, or the
  same again, changes nothing.

A merge is a condition on each field of the result (`merge_eq_ok_iff`), so the proof composes these
conditions: a field that is replaced has the value of the upper layer if there is one, and a field
that is combined has been written to by the lower layer and then by the upper one, which is the same
as writing to it what the two make up (`Members.insertAll_insertAll_of_distinct`).
-/

namespace OptionTypes.Config

open Check Value

variable {a b ab : Members} {c c' : Config} {name : Text}

/-! ## Layers -/

/-- Whether members are such as a document or variables give, with objects in the fields that are
combined. -/
structure IsLayer (a : Members) : Prop where
  fromDocument : FromDocument (.object a)
  isObject : ∀ name, isMerged name = true → ∀ v, a.find? name = some v → ∃ ms, v = .object ms

/-- The members of a file are a layer, as long as its combined fields are objects. -/
theorem isLayer_of_members {path : Path} {bytes : Bytes} (h : Document.members path bytes = .ok a)
    (hobject : ∀ name, isMerged name = true → ∀ v, a.find? name = some v → ∃ ms, v = .object ms) :
    IsLayer a :=
  ⟨Document.fromDocument_members h, hobject⟩

/-- The members that variables stand for are a layer: two texts, for fields that are replaced. -/
theorem isLayer_variables (v : Resolution.Variables) : IsLayer v.members where
  fromDocument := Resolution.fromDocument_variables v
  isObject := by
    intro name hname w hw
    have hnone : v.members.find? name = none := by
      rw [Resolution.Variables.members, Resolution.variableMember_eq,
        Resolution.variableMember_eq]
      cases Resolution.nonempty? v.address <;> cases Resolution.nonempty? v.debugDirectory <;>
        rcases isMerged_iff.mp hname with rfl | rfl <;> rfl
    rw [hnone] at hw
    cases hw

/-- A layer has no key twice. -/
theorem IsLayer.distinct (h : IsLayer a) : a.Distinct := h.fromDocument.1

/-- An object in a combined field has no key twice. -/
theorem IsLayer.distinct_field {ms : Members} (h : IsLayer a)
    (hfind : a.find? name = some (.object ms)) : ms.Distinct := by
  obtain ⟨k, hmem⟩ := Members.exists_mem_of_get? hfind
  exact (membersFromDocument_iff.mp h.fromDocument.2 _ hmem).1

/-- A layer holds no function, whatever the name. -/
theorem IsLayer.isData {v : Value} (h : IsLayer a) (hfind : a.find? name = some v) :
    v.isData = true := by
  obtain ⟨k, hmem⟩ := Members.exists_mem_of_get? hfind
  exact (membersFromDocument_iff.mp h.fromDocument.2 _ hmem).isData

/-- Whether members are what some make up that are laid over others: combined fields member by
member, and any other field that of the upper layer if it has one. -/
structure Overlays (a b ab : Members) : Prop where
  distinct : ab.Distinct
  find? : ∀ name, ab.find? name = laidValue name (a.find? name) (b.find? name)

/-- Laying one member over others keeps keys apart. -/
theorem distinct_layMember {ms : Members} (h : ms.Distinct) (k : Key) (v : Value) :
    (layMember ms k v).Distinct := by
  unfold layMember
  split
  next =>
    split
    next => exact h.insert k _
    next => exact h.insert k _
  next => exact h.insert k _

/-- Laying members over others keeps keys apart. Induction on the members that are laid over. -/
theorem distinct_layAll (h : a.Distinct) (b : Members) : (layAll a b).Distinct := by
  induction b generalizing a with
  | nil => exact h
  | cons m b ih => exact ih (distinct_layMember h m.1 m.2)

/-- Laying members over others one after the other makes such a layer. -/
theorem overlays_layAll (ha : a.Distinct) (hb : b.Distinct) : Overlays a b (layAll a b) where
  distinct := distinct_layAll ha b
  find? _ := find?_layAll hb

/-- A value of a layer combined with itself is itself: each member is written where it stands. -/
theorem IsLayer.combine_self {v : Value} (ha : IsLayer a) (hfind : a.find? name = some v) :
    combine name (some v) v = v := by
  cases hname : isMerged name with
  | false => exact combine_of_not_isMerged hname _ v
  | true =>
    obtain ⟨ms, rfl⟩ := ha.isObject name hname v hfind
    rw [combine, hname, if_pos rfl,
      Members.insertAll_eq_self (ha.distinct_field hfind) fun w hw => hw]

/-- A layer over itself is itself. -/
theorem IsLayer.overlays_self (ha : IsLayer a) : Overlays a a a where
  distinct := ha.distinct
  find? name := by
    cases h : a.find? name with
    | none => rfl
    | some v => rw [laidValue, ha.combine_self h]

/-! ## Fields under two layers -/

/-- A field that is replaced. Where the upper layer has a value both sides are its check; where it
has none the field is the one in between, which the lower layer determines. -/
theorem Overlays.laid_iff {α : Type} {check : Value → Checked α} {old mid new : α}
    (hab : Overlays a b ab) (h : Laid check (a.find? name) old mid)
    (hname : isMerged name = false) :
    Laid check (b.find? name) mid new ↔ Laid check (ab.find? name) old new := by
  rw [hab.find?]
  cases b.find? name with
  -- the upper layer replaces the field, whatever lies below
  | some v =>
    rw [laidValue, combine_of_not_isMerged hname]
    rfl
  -- the field is that of the lower layer, which has been laid already
  | none =>
    show new = mid ↔ Laid check (a.find? name) old new
    generalize a.find? name = a? at h ⊢
    cases a? with
    | none =>
      obtain rfl : mid = old := h
      rfl
    | some v =>
      have hmid : check v = .ok mid := h
      show _ ↔ check v = .ok new
      rw [hmid, Except.ok.injEq]
      exact eq_comm

/-- A field that is combined. Its members determine it (`hwrite`), so two results are equal once the
members that are written are the same. Of the four cases, by which layers have a value, the one
where both do is that writing twice is writing what the two make up. -/
theorem Overlays.combined_iff {α : Type} {write : α → Value} (hwrite : Function.Injective write)
    {old mid new : List (Text × α)} (hab : Overlays a b ab) (ha : IsLayer a) (hb : IsLayer b)
    (h : Combined write (a.find? name) old mid) (hname : isMerged name = true) :
    Combined write (b.find? name) mid new ↔ Combined write (ab.find? name) old new := by
  rw [hab.find?]
  cases hb? : b.find? name with
  | none =>
    show new = mid ↔ Combined write (a.find? name) old new
    cases ha? : a.find? name with
    | none =>
      rw [ha?] at h
      obtain rfl : mid = old := h
      rfl
    | some v =>
      rw [ha?] at h
      obtain ⟨an, rfl, hmid⟩ := h
      constructor
      · rintro rfl
        exact ⟨an, rfl, hmid⟩
      · rintro ⟨_, ⟨⟩, hnew⟩
        exact membersOf_injective hwrite (hnew.trans hmid.symm)
  | some v =>
    obtain ⟨bn, rfl⟩ := hb.isObject name hname v hb?
    cases ha? : a.find? name with
    | none =>
      rw [ha?] at h
      obtain rfl : mid = old := h
      rfl
    | some v =>
      rw [ha?] at h
      obtain ⟨an, rfl⟩ := ha.isObject name hname v ha?
      obtain ⟨_, ⟨⟩, hmid⟩ := h
      -- the members of both layers may be written at once
      have hboth : (membersOf write mid).insertAll bn
          = (membersOf write old).insertAll (Members.insertAll an bn) := by
        rw [hmid, Members.insertAll_insertAll_of_distinct (ha.distinct_field ha?)]
      show (∃ ms, Value.object bn = .object ms ∧ _) ↔ ∃ ms, combine name _ _ = .object ms ∧ _
      rw [combine, hname, if_pos rfl]
      constructor
      · rintro ⟨_, ⟨⟩, hnew⟩
        exact ⟨_, rfl, hnew.trans hboth⟩
      · rintro ⟨_, ⟨⟩, hnew⟩
        exact ⟨_, rfl, hnew.trans hboth.symm⟩

/-- Layering twice is layering once with what the two layers make up: six fields by
`Overlays.laid_iff`, and two by `Overlays.combined_iff`. -/
theorem Layered.trans_iff {base mid new : Config} (h : Layered base a mid) (ha : IsLayer a)
    (hb : IsLayer b) (hab : Overlays a b ab) : Layered mid b new ↔ Layered base ab new := by
  have hid : Function.Injective fun v : Value => v := reads_value.injective
  have htext : Function.Injective Value.text := reads_text.injective
  -- field by field, the two merged ones apart from the six that are replaced
  constructor
  · intro hnew
    exact {
      urlTemplate := (hab.laid_iff h.urlTemplate rfl).mp hnew.urlTemplate
      commands := (hab.laid_iff h.commands rfl).mp hnew.commands
      symbols := (hab.combined_iff hid ha hb h.symbols rfl).mp hnew.symbols
      typeOverrides := (hab.combined_iff htext ha hb h.typeOverrides rfl).mp hnew.typeOverrides
      preferredNames := (hab.laid_iff h.preferredNames rfl).mp hnew.preferredNames
      wrapWidth := (hab.laid_iff h.wrapWidth rfl).mp hnew.wrapWidth
      debugDir := (hab.laid_iff h.debugDir rfl).mp hnew.debugDir
      timeout := (hab.laid_iff h.timeout rfl).mp hnew.timeout }
  · intro hnew
    exact {
      urlTemplate := (hab.laid_iff h.urlTemplate rfl).mpr hnew.urlTemplate
      commands := (hab.laid_iff h.commands rfl).mpr hnew.commands
      symbols := (hab.combined_iff hid ha hb h.symbols rfl).mpr hnew.symbols
      typeOverrides := (hab.combined_iff htext ha hb h.typeOverrides rfl).mpr hnew.typeOverrides
      preferredNames := (hab.laid_iff h.preferredNames rfl).mpr hnew.preferredNames
      wrapWidth := (hab.laid_iff h.wrapWidth rfl).mpr hnew.wrapWidth
      debugDir := (hab.laid_iff h.debugDir rfl).mpr hnew.debugDir
      timeout := (hab.laid_iff h.timeout rfl).mpr hnew.timeout }

/-- **Layers compose.** Over any valid configuration, merging a second layer after a first one gives
the configuration that merging both together gives, or fails where that fails; and merging nothing
or the first layer again changes nothing.

What lies between the two merges is valid (`Layered.valid`) and holds no function
(`Layered.isData`), so it is written out as it is, and merging it with anything is layering
(`merge_eq_ok_iff`). A configuration that holds no function is left alone by nothing at all too; one
that comes out of documents and variables is such (`Resolution.valid_and_isData_of_resolve`). -/
theorem merge_merge (hc : c.Valid) (ha : IsLayer a) (hb : IsLayer b) (hab : Overlays a b ab)
    (h : merge c a = .ok c') :
    (merge c' b).toOption = (merge c ab).toOption
      ∧ merge c' [] = .ok c' ∧ merge c' a = .ok c' ∧ (c.IsData → merge c [] = .ok c) := by
  have hlayered : Layered c.written a c' := (merge_eq_ok_iff hc ha.distinct).mp h
  have hc' : c'.Valid := hlayered.valid ⟨hc.wrapWidth, hc.timeout⟩
  have hdata' : c'.IsData := hlayered.isData (isData_written c) fun _ hv => ha.isData hv
  have htwice : ∀ {b ab x}, IsLayer b → Overlays a b ab →
      (merge c' b = .ok x ↔ merge c ab = .ok x) := by
    intro b ab x hb hab
    rw [merge_eq_ok_iff hc' hb.distinct, merge_eq_ok_iff hc hab.distinct, hdata'.written_eq]
    exact hlayered.trans_iff ha hb hab
  refine ⟨?_, merge_nil hc' hdata', (htwice ha ha.overlays_self).mpr h, merge_nil hc⟩
  -- both sides are the same configuration if there is one at all
  refine Option.ext fun x => ?_
  rw [Outcome.toOption_eq_some_iff, Outcome.toOption_eq_some_iff]
  exact htwice hb hab

/-- Members that begin with symbols, and have no types, are a layer. -/
theorem isLayer_symbols {ms rest : Members}
    (h : FromDocument (.object ((.text "symbols", .object ms) :: rest)))
    (hrest : rest.find? "type_overrides" = none) :
    IsLayer ((.text "symbols", .object ms) :: rest) where
  fromDocument := h
  isObject name hname v hfind := by
    rcases isMerged_iff.mp hname with rfl | rfl
    · obtain rfl := Option.some.inj hfind
      exact ⟨ms, rfl⟩
    · have hnone : Members.find? "type_overrides" ((.text "symbols", .object ms) :: rest) = none :=
        hrest
      rw [hnone] at hfind
      cases hfind

/-- A symbol and a width that is given as a text. -/
def firstLayer : Members :=
  [(.text "symbols", .record [("PORT", .int 1)]), (.text "wrap_width", .str "100")]

/-- Another value for the symbol, and one for a symbol that is there from the start. -/
def secondLayer : Members :=
  [(.text "symbols", .record [("AMO_BASE_URL", .null), ("PORT", .int 2)])]

/-- The symbol is a number, which a document may hold. -/
theorem isLayer_firstLayer : IsLayer firstLayer :=
  isLayer_symbols ⟨by decide, ⟨by decide, trivial, trivial⟩, trivial, trivial⟩ rfl

/-- The two symbols are a null and a number. -/
theorem isLayer_secondLayer : IsLayer secondLayer :=
  isLayer_symbols ⟨by decide, ⟨by decide, trivial, trivial, trivial⟩, trivial⟩ rfl

/-- The width that is given as a text is a number in between, and the symbol that both layers have
keeps its place. -/
theorem merge_merge_layers :
    Valid .standard ∧ ∃ c', merge .standard firstLayer = .ok c'
      ∧ (merge c' secondLayer).toOption
        = (merge .standard (layAll firstLayer secondLayer)).toOption
      ∧ ((merge c' secondLayer).toOption.map fun c => (c.wrapWidth, c.symbols.map Prod.fst))
        = some (100, ["AMO_BASE_URL", "PORT"].map Text.ofString) := by
  have hsome : (merge .standard firstLayer).toOption.isSome = true := by decide +kernel
  obtain ⟨c', hc'⟩ := Option.isSome_iff_exists.mp hsome
  have h : merge .standard firstLayer = .ok c' := Outcome.toOption_eq_some_iff.mp hc'
  have hoverlays := overlays_layAll isLayer_firstLayer.distinct isLayer_secondLayer.distinct
  have htwice := (merge_merge valid_standard isLayer_firstLayer isLayer_secondLayer hoverlays h).1
  refine ⟨valid_standard, c', h, htwice, ?_⟩
  rw [htwice]
  decide +kernel

end OptionTypes.Config
