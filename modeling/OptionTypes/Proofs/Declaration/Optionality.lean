import OptionTypes.Proofs.Binary64
import OptionTypes.Proofs.Declaration.Outline
import OptionTypes.Proofs.Descriptor

/-!
# Optional properties

Whether a property may be left out, and whether it may be undefined, follows from two members of the
option: its demand, which counts as true or not by the rules of the script, and its default. The
check of a descriptor may turn the demand into a truth value or keep it as a message, but not change
how it counts.

* `Property.Demanded` and `Property.Defaulted` are read off the members of an option.
* `Property.Parts.Follow` says how the line of a property follows them.
* `Property.line_follows_members`: the line that is written, in an interface too, has these parts.
-/

namespace OptionTypes

open Text Descriptor

/-! ## What a demand counts as -/

theorem Check.IsTruth.truth_eq {v : Value} {b : Bool} (h : Check.IsTruth v b) : v.truth = b := by
  cases h with
  | bool b => rfl
  | number hn =>
    rw [Value.truth, Value.numberTruth_of_normal hn]
    cases b with
    | false => rfl
    | true => rfl

namespace Declaration

namespace Property

variable {command : Text} {key : Key} {ms : Members} {d : Descriptor} {style : Style}

/-- Whether the demand counts as true, under the spelling that it is read from. -/
def Demanded (ms : Members) : Prop := ∃ v, Field.demand.value? ms = some v ∧ v.truth = true

/-- Whether there is a default other than null. -/
def Defaulted (ms : Members) : Prop := ∃ v, Field.default.value? ms = some v ∧ v ≠ .null

/-- An option is mandatory if its members demand it, whatever form the demand has. -/
theorem isMandatory_iff (h : Describes key ms d) : d.isMandatory = true ↔ Demanded ms := by
  have hdemand := h.demand
  unfold Demanded isMandatory
  generalize Field.demand.value? ms = v? at hdemand ⊢
  generalize d.demand = demand at hdemand ⊢
  cases hdemand with
  | absent => simp
  | plain hb => simp [hb.truth_eq]
  | message t => simp [Value.truth]

/-- An option has a default unless there is none or it is null. -/
theorem hasDefault_iff (h : Describes key ms d) : d.hasDefault = true ↔ Defaulted ms := by
  have hnull : ∀ v : Value, v.isNull = false ↔ v ≠ .null := by
    intro v
    cases v <;> simp [Value.isNull]
  rw [hasDefault, ← h.default, Bool.not_eq_true', hnull, Defaulted]
  cases Field.default.value? ms with
  | none => simp
  | some v => simp

theorem isRequired_iff (h : Describes key ms d) :
    isRequired d = true ↔ Demanded ms ∨ Defaulted ms := by
  rw [isRequired, Bool.or_eq_true, isMandatory_iff h, hasDefault_iff h]

/-! ## The parts of a line -/

/-- The parts that the line of a property is made of. -/
structure Parts where
  name : Text
  marked : Bool
  base : Text
  undefinable : Bool

/-- A line with these parts. -/
def Parts.text (p : Parts) : Text :=
  p.name ++ ((if p.marked then ofString "?" else []) ++ ofString ": "
    ++ (p.base ++ if p.undefinable then ofString " | undefined" else []))

/-- Whether parts follow the members of an option: no mark on what must be given or has a default,
and the type of what may be left out, or has only a default, admits undefined. -/
structure Parts.Follow (p : Parts) (style : Style) (command : Text) (ms : Members)
    (d : Descriptor) : Prop where
  name : p.name = Property.name d.name d style.preferredNames
  unmarked : p.marked = false ↔ Demanded ms ∨ Defaulted ms
  base : baseType command d.name d style.typeOverrides = .ok p.base
  override : ∀ t, lookup? (command ++ "/" ++ d.name) style.typeOverrides = some t → p.base = t
  undefinable : p.undefinable = true ↔ ¬Demanded ms
  admits : p.marked = true → p.undefinable = true

/-- The parts of the property for an option with a base type. -/
def partsOf (style : Style) (d : Descriptor) (base : Text) : Parts :=
  ⟨name d.name d style.preferredNames, !isRequired d, base, !d.isMandatory⟩

/-- The parts of a line make up the line. -/
theorem text_partsOf (base : Text) : (partsOf style d base).text
    = name d.name d style.preferredNames
      ++ (mark d ++ if d.isMandatory then base else base ++ ofString " | undefined") := by
  have hempty : ofString "" = [] := rfl
  simp only [Parts.text, partsOf, mark]
  by_cases hrequired : isRequired d = true
  · by_cases hmandatory : d.isMandatory = true
    · simp [hrequired, hmandatory, hempty]
    · simp [hrequired, hmandatory, hempty]
  · by_cases hmandatory : d.isMandatory = true
    · simp [hrequired, hmandatory]
    · simp [hrequired, hmandatory]

theorem baseType_of_lookup? {key t base : Text} {overrides : List (Text × Text)}
    (ht : lookup? (command ++ "/" ++ key) overrides = some t)
    (h : baseType command key d overrides = .ok base) : base = t := by
  unfold baseType at h
  rw [ht] at h
  exact (Except.ok.inj h).symm

/-- The parts that follow the members of an option are those of the property for it. -/
theorem follow_iff (h : Describes key ms d) {p : Parts} : p.Follow style command ms d ↔
    ∃ base, baseType command d.name d style.typeOverrides = .ok base
      ∧ p = partsOf style d base := by
  have hmandatory := isMandatory_iff h
  have hrequired := isRequired_iff h
  constructor
  · intro hp
    -- two equivalences settle the two choices
    have hmarked : p.marked = !isRequired d := by
      have hunmarked := hp.unmarked
      grind
    have hundefinable : p.undefinable = !d.isMandatory := by
      have hundefinable := hp.undefinable
      grind
    obtain ⟨name, marked, base, undefinable⟩ := p
    obtain rfl := hp.name
    obtain rfl := hmarked
    obtain rfl := hundefinable
    exact ⟨base, hp.base, rfl⟩
  · rintro ⟨base, hbase, rfl⟩
    exact {
      name := rfl
      unmarked := by simp [partsOf, hrequired]
      base := hbase
      override := fun t ht => baseType_of_lookup? ht hbase
      undefinable := by simp [partsOf, ← hmandatory]
      admits := by
        -- what must be given is required
        simp only [partsOf, isRequired, Bool.not_or, Bool.and_eq_true]
        exact And.left }

/-- A line is the text of its parts, given the type. -/
theorem line_eq_ok_iff_partsOf {l : Text} : line style command d.name d = .ok l ↔
    ∃ base, baseType command d.name d style.typeOverrides = .ok base
      ∧ l = (partsOf style d base).text := by
  simp only [line_eq_ok_iff, type, Outcome.bind_eq_ok_iff]
  constructor
  · rintro ⟨t, ⟨base, hbase, hpure⟩, rfl⟩
    cases hpure
    exact ⟨base, hbase, (text_partsOf base).symm⟩
  · rintro ⟨base, hbase, rfl⟩
    exact ⟨_, ⟨base, hbase, rfl⟩, text_partsOf base⟩

/-! ## The line in an interface -/

/-- Whether a line stands in a text, between two line ends. -/
def Stands (line text : Text) : Prop :=
  ∃ before after : Text, text = before ++ .char '\n' :: (line ++ .char '\n' :: after)

/-- Every line of an interface follows a line end: that of the header or of the line before. -/
theorem stands_layout {interface : Text} {ls : List Text} {l : Text} (h : l ∈ ls) :
    Stands (indented l) (Interface.layout interface ls) := by
  obtain ⟨earlier, later, rfl⟩ := List.append_of_mem h
  -- the line feed of the header is set apart, as the end of the line before the first option
  have hlayout : ∀ ls, Interface.layout interface ls
      = headerStart ++ interface ++ headerEnd ++ .char '\n'
        :: (ls.flatMap (fun l => indented l ++ [.char '\n']) ++ ofString "\x7d") := by
    intro ls
    have hopen : ofString " \x7b\n" = headerEnd ++ [.char '\n'] := rfl
    simp only [Interface.layout, hopen, headerStart, List.append_assoc, List.singleton_append]
    rfl
  rw [hlayout, List.flatMap_append, List.flatMap_cons]
  rcases List.eq_nil_or_concat earlier with rfl | ⟨earlier, last, rfl⟩
  · refine ⟨headerStart ++ interface ++ headerEnd, ?_, ?_⟩
    · exact later.flatMap (fun l => indented l ++ [.char '\n']) ++ ofString "\x7d"
    · simp
  · refine ⟨headerStart ++ interface ++ headerEnd ++ .char '\n'
      :: (earlier.flatMap (fun l => indented l ++ [.char '\n']) ++ indented last), ?_, ?_⟩
    · exact later.flatMap (fun l => indented l ++ [.char '\n']) ++ ofString "\x7d"
    · simp

/-- Each option has its line among those of the interface. -/
theorem mem_bodyLines {options : List (Text × Descriptor)} {ls : List Text}
    (h : Interface.bodyLines style command options = .ok ls) {o : Text × Descriptor}
    (ho : o ∈ options) : ∃ l ∈ ls, line style command o.1 o.2 = .ok l := by
  induction options generalizing ls with
  | nil => cases ho
  | cons first options ih =>
    obtain ⟨lines, hlines, h⟩ := Outcome.bind_eq_ok_iff.mp h
    obtain ⟨rest, hrest, hpure⟩ := Outcome.bind_eq_ok_iff.mp h
    cases hpure
    rcases List.mem_cons.mp ho with rfl | ho
    · obtain ⟨comment, -, hlines⟩ := Outcome.bind_eq_ok_iff.mp hlines
      obtain ⟨l, hl, hpure⟩ := Outcome.bind_eq_ok_iff.mp hlines
      cases hpure
      exact ⟨l, List.mem_append_left _ (List.mem_append_right _ (List.mem_singleton.mpr rfl)), hl⟩
    · obtain ⟨l, hmem, hl⟩ := ih hrest ho
      exact ⟨l, List.mem_append_right _ hmem, hl⟩

/-- **A property is optional as its option says.**

The line of a property is made of parts, and they follow the members that the option has: the name
from the names that are preferred, the mark from the demand and the default, the type from the
override or the kind, with `undefined` unless the option is demanded. In an interface that is
written this line stands, indented. -/
theorem line_follows_members (h : Descriptor.ofValue command key (.object ms) = .ok d)
    (style : Style) :
    (∀ l, line style command d.name d = .ok l ↔
      ∃ p : Parts, p.Follow style command ms d ∧ l = p.text)
    ∧ ∀ options matched text, (d.name, d) ∈ options →
        Interface.render style ⟨command, options, matched⟩ = .ok text →
        ∃ p : Parts, p.Follow style command ms d ∧ Stands (indented p.text) text := by
  have hdescribes : Describes key ms d := Descriptor.ofValue_object_eq_ok_iff.mp h
  have hline : ∀ l, line style command d.name d = .ok l ↔
      ∃ p : Parts, p.Follow style command ms d ∧ l = p.text := by
    intro l
    rw [line_eq_ok_iff_partsOf]
    simp only [follow_iff hdescribes]
    constructor
    · rintro ⟨base, hbase, hl⟩
      exact ⟨_, ⟨base, hbase, rfl⟩, hl⟩
    · rintro ⟨_, ⟨base, hbase, rfl⟩, hl⟩
      exact ⟨base, hbase, hl⟩
  refine ⟨hline, fun options matched text hmem hrender => ?_⟩
  obtain ⟨ls, hls, hpure⟩ := Outcome.bind_eq_ok_iff.mp hrender
  cases hpure
  -- each line of the body is that of its option, so the first part speaks of it
  obtain ⟨l, hl, hok⟩ := mem_bodyLines hls hmem
  obtain ⟨p, hp, rfl⟩ := (hline l).mp hok
  exact ⟨p, hp, stands_layout hl⟩

/-- An option with two demands and a default. The first demand wins, and does not count. -/
def portMembers : Members :=
  [(.text "demand_option", .bool true), (.text "demandOption", .str ""),
    (.text "type", .str "number"), (.text "default", .int 8080)]

/-- The descriptor of the option. -/
def port : Descriptor where
  name := "port"
  type := some "number"
  choices := none
  default := .int 8080
  description := none
  otherNames := none
  demand := .message []
  extra := [(.text "demand_option", .bool true)]

/-- A style with a type for the option. -/
def portStyle : Style := ⟨[("run/port", "0 | 8080")], [], 79⟩

theorem line_follows_members_port :
    Descriptor.ofValue "run" (.text "port") (.object portMembers) = .ok port
      ∧ line portStyle "run" "port" port = .ok "port: 0 | 8080 | undefined"
      ∧ ∃ text, Interface.render portStyle ⟨"run", [("port", port)], true⟩ = .ok text
        ∧ ∃ p : Parts, p.Follow portStyle "run" portMembers port
          ∧ Stands (indented p.text) text := by
  have hport : Descriptor.ofValue "run" (.text "port") (.object portMembers) = .ok port := rfl
  have hmem : (port.name, port) ∈ [(("port" : Text), port)] := List.mem_singleton.mpr rfl
  refine ⟨hport, rfl, _, rfl, ?_⟩
  exact (line_follows_members hport portStyle).2 _ true _ hmem rfl

end Property

end Declaration

end OptionTypes
