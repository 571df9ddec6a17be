import OptionTypes.Proofs.Declaration.Outline
import OptionTypes.Proofs.Letters

/-!
# Which properties share a name

Every option gets the property that its own names ask for: the first preferred name among its other
names, or else its key, in camelCase. Nothing compares options with each other, so two of them may
get properties of one name, though their keys differ.

CamelCase shows the words of a name, but for one thing: a word that begins with a digit or a mark
has no capital and is not told from the word before it. Once such words are joined to those before
them, the words can be cut out of a name in camelCase again, at its capitals.

* `Words.merged` joins such words, and `Words.camel_eq_camel_iff` says which names in ASCII have one
  camelCase.
* `Interface.names` lists the names of the properties of a command.
* `Interface.nodup_names_iff`: a rendered interface declares properties of these names, and no two
  are the same exactly if camelCase tells the chosen names of all options apart.
-/

namespace OptionTypes

namespace Words

/-! ## Names in camelCase -/

/-- Whether a word begins with a small letter. -/
def startsSmall (w : Text) : Bool := w.head?.any fun c => c.is Case.isSmall

/-- A word and the words after it, where a word that begins with no small letter is joined to the
one before. -/
def mergedFrom (w : Text) : List Text → List Text
  | [] => [w]
  | v :: vs => if startsSmall v then w :: mergedFrom v vs else mergedFrom (w ++ v) vs

/-- Words, where one that begins with no small letter is joined to the one before. -/
def merged : List Text → List Text
  | [] => []
  | w :: ws => mergedFrom w ws

variable {name a b t w : Text} {ws : List Text} {c : CodePoint}

theorem IsAsciiWord.append {v : Text} (hw : IsAsciiWord w) (hv : IsAsciiWord v) :
    IsAsciiWord (w ++ v) where
  ne_nil := List.append_ne_nil_of_left_ne_nil hw.ne_nil v
  ascii := List.forall_mem_append.mpr ⟨hw.ascii, hv.ascii⟩
  plain := List.forall_mem_append.mpr ⟨hw.plain, hv.plain⟩

/-- A character that is no capital has one exactly if it is a small letter. -/
theorem isCapital_upperSmall (h : c.isAscii = true) (hc : isCapital c = false) :
    isCapital (upperSmall c) = c.is Case.isSmall
      ∧ (c.is Case.isSmall = false → upperSmall c = c) := by
  obtain ⟨a, rfl, ha⟩ := exists_char_of_is h
  exact Case.of_ascii
    (p := fun a => isCapital (.char a) = false →
      isCapital (upperSmall (.char a)) = (CodePoint.char a).is Case.isSmall
        ∧ ((CodePoint.char a).is Case.isSmall = false → upperSmall (.char a) = .char a))
    (by decide) (of_decide_eq_true ha) hc

theorem upperFirst_eq_self (hw : IsAsciiWord w) (h : startsSmall w = false) :
    Case.upperFirst w = w := by
  obtain ⟨c, w, rfl⟩ := List.exists_cons_of_ne_nil hw.ne_nil
  have hc := isCapital_upperSmall (hw.ascii c List.mem_cons_self) (hw.plain c List.mem_cons_self).2
  rw [upperFirst_cons hw.ascii, hc.2 h]

/-- Joining words that have no capitals changes neither convention. -/
theorem pascalOf_mergedFrom (hw : w ≠ []) (hws : ∀ v ∈ ws, IsAsciiWord v) :
    pascalOf (mergedFrom w ws) = Case.upperFirst w ++ pascalOf ws
      ∧ camelOf (mergedFrom w ws) = w ++ pascalOf ws := by
  induction ws generalizing w with
  | nil => exact ⟨rfl, rfl⟩
  | cons v vs ih =>
    obtain ⟨hv, hvs⟩ := List.forall_mem_cons.mp hws
    rw [mergedFrom, pascalOf_cons]
    split
    · have hrest := (ih hv.ne_nil hvs).1
      refine ⟨by rw [pascalOf_cons, hrest], ?_⟩
      show w ++ pascalOf (mergedFrom v vs) = _
      rw [hrest]
    next h =>
      obtain ⟨hpascal, hcamel⟩ := ih (List.append_ne_nil_of_left_ne_nil hw v) hvs
      rw [hpascal, hcamel, upperFirst_append hw v, upperFirst_eq_self hv (Bool.eq_false_iff.mpr h),
        List.append_assoc, List.append_assoc]
      exact ⟨rfl, rfl⟩

/-- Joining words that have no capitals changes no name in camelCase. -/
theorem camelOf_merged (hws : ∀ w ∈ ws, IsAsciiWord w) : camelOf (merged ws) = camelOf ws := by
  cases ws with
  | nil => rfl
  | cons w ws =>
    obtain ⟨hw, hws⟩ := List.forall_mem_cons.mp hws
    exact (pascalOf_mergedFrom hw.ne_nil hws).2

theorem startsSmall_append {v : Text} (hne : w ≠ []) : startsSmall (w ++ v) = startsSmall w := by
  obtain ⟨c, w, rfl⟩ := List.exists_cons_of_ne_nil hne
  rfl

/-- After joining, every word but the first begins with a small letter. -/
theorem exists_mergedFrom_eq (hw : IsAsciiWord w) (hws : ∀ v ∈ ws, IsAsciiWord v) :
    ∃ v vs, mergedFrom w ws = v :: vs ∧ IsAsciiWord v ∧ startsSmall v = startsSmall w
      ∧ ∀ u ∈ vs, IsAsciiWord u ∧ startsSmall u = true := by
  induction ws generalizing w with
  | nil => exact ⟨w, [], rfl, hw, rfl, nofun⟩
  | cons v vs ih =>
    obtain ⟨hv, hvs⟩ := List.forall_mem_cons.mp hws
    rw [mergedFrom]
    split
    next h =>
      obtain ⟨u, us, hmerged, hu, hstart, hus⟩ := ih hv hvs
      exact ⟨w, u :: us, by rw [hmerged], hw, rfl,
        List.forall_mem_cons.mpr ⟨⟨hu, hstart.trans h⟩, hus⟩⟩
    next =>
      obtain ⟨u, us, hmerged, hu, hstart, hus⟩ := ih (hw.append hv) hvs
      exact ⟨u, us, hmerged, hu, hstart.trans (startsSmall_append hw.ne_nil), hus⟩

/-- Words that begin with small letters are cut at the capitals which they get. -/
theorem pieces_pascalOf (hws : ∀ w ∈ ws, IsAsciiWord w ∧ startsSmall w = true) :
    pieces (pascalOf ws) = [] :: ws.map Case.upperFirst := by
  induction ws with
  | nil => rfl
  | cons w ws ih =>
    obtain ⟨⟨hw, hsmall⟩, hws⟩ := List.forall_mem_cons.mp hws
    have hlater := ih hws
    obtain ⟨c, w, rfl⟩ := List.exists_cons_of_ne_nil hw.ne_nil
    obtain ⟨hc, hrest⟩ := List.forall_mem_cons.mp hw.plain
    -- the first letter was a small one, so it is a capital now and opens a piece
    have hcapital : isCapital (upperSmall c) = true :=
      (isCapital_upperSmall (hw.ascii c List.mem_cons_self) hc.2).1.trans hsmall
    have hseparator : isSeparator (upperSmall c) = false := by
      cases h : isSeparator (upperSmall c) with
      | false => rfl
      | true =>
        rw [not_isCapital_of_isSeparator h] at hcapital
        cases hcapital
    rw [pascalOf_cons, upperFirst_cons hw.ascii, List.cons_append,
      pieces_cons_append hlater hseparator hrest, if_pos hcapital, List.map_cons,
      upperFirst_cons hw.ascii]

theorem upperFirst_ne_nil (hw : IsAsciiWord w) : Case.upperFirst w ≠ [] := by
  obtain ⟨c, w, rfl⟩ := List.exists_cons_of_ne_nil hw.ne_nil
  rw [upperFirst_cons hw.ascii]
  exact List.cons_ne_nil _ _

theorem lower_upperFirst (hw : IsAsciiWord w) : Case.lower (Case.upperFirst w) = w := by
  rw [lower_of_ascii (isAscii_upperFirst hw.ascii), map_lowerCapital_upperFirst hw.ascii,
    ← lower_of_ascii hw.ascii, hw.lower]

/-- **The words of a name can be cut out of its camelCase,** but for those that are joined. -/
theorem map_lower_fragments_camel (h : Text.IsAscii name) :
    (fragments (camel name)).map Case.lower = merged (split name) := by
  have hwords : ∀ w ∈ split name, IsAsciiWord w := fun w hw => isAsciiWord_of_mem_split h hw
  rw [camel_eq, ← camelOf_merged hwords]
  cases hsplit : split name with
  | nil => rfl
  | cons w ws =>
    rw [hsplit] at hwords
    obtain ⟨hw, hws⟩ := List.forall_mem_cons.mp hwords
    obtain ⟨v, vs, hmerged, hv, -, hvs⟩ := exists_mergedFrom_eq hw hws
    rw [merged, hmerged]
    -- the first word ends where the first capital of the others is
    have hpieces : pieces (camelOf (v :: vs)) = v :: vs.map Case.upperFirst :=
      pieces_inner_append (pieces_pascalOf hvs) hv.plain
    have hfull : ∀ u ∈ v :: vs.map Case.upperFirst, (!u.isEmpty) = true := by
      refine List.forall_mem_cons.mpr ⟨by simpa using hv.ne_nil, ?_⟩
      intro u hu
      obtain ⟨u, hmem, rfl⟩ := List.mem_map.mp hu
      simpa using upperFirst_ne_nil (hvs u hmem).1
    rw [fragments, hpieces, List.filter_eq_self.mpr hfull, List.map_cons, hv.lower, List.map_map]
    exact congrArg (v :: ·) ((List.map_congr_left fun u hu => lower_upperFirst (hvs u hu).1).trans
      (List.map_id vs))

/-- **Which names in ASCII have one camelCase:** those of the same words, where a word that begins
with no letter counts as part of the word before. -/
theorem camel_eq_camel_iff (ha : Text.IsAscii a) (hb : Text.IsAscii b) :
    camel a = camel b ↔ merged (split a) = merged (split b) := by
  constructor
  · intro h
    rw [← map_lower_fragments_camel ha, h, map_lower_fragments_camel hb]
  · intro h
    rw [camel_eq, camel_eq, ← camelOf_merged fun w hw => isAsciiWord_of_mem_split ha hw, h,
      camelOf_merged fun w hw => isAsciiWord_of_mem_split hb hw]

end Words

namespace Declaration

/-! ## Properties of a command -/

/-- The name that the property for an option is made from: the first of its other names that is
preferred, or else its key. -/
def Property.chosen (preferred : List Text) (o : Text × Descriptor) : Text :=
  (o.2.nameList.find? fun n => preferred.contains n).getD o.1

/-- Whether a line declares a property of a name. -/
def Property.Declares (name line : Text) : Prop :=
  ∃ (mark : String) (type : Text), mark ∈ [": ", "?: "]
    ∧ line = name ++ (Text.ofString mark ++ type)

/-- The names of the properties for the options of a command, in order. -/
def Interface.names (preferred : List Text) (c : Command) : List Text :=
  c.options.map fun (key, d) => Property.name key d preferred

variable {style : Style} {command : Text}

/-- The line of a property declares its name. -/
theorem Property.declares_of_line {key : Text} {d : Descriptor} {l : Text}
    (h : Property.line style command key d = .ok l) :
    Property.Declares (Property.name key d style.preferredNames) l := by
  obtain ⟨t, -, rfl⟩ := line_eq_ok_iff.mp h
  rw [mark, List.append_assoc]
  cases isRequired d with
  | true => exact ⟨": ", t, by simp, rfl⟩
  | false => exact ⟨"?: ", t, by simp, rfl⟩

/-- The lines of an interface are those of a comment and a property for each option, in order. -/
theorem Interface.exists_groups_of_bodyLines {options : List (Text × Descriptor)} {ls : List Text}
    (h : bodyLines style command options = .ok ls) :
    ∃ groups : List (List Text × Text), ls = groups.flatMap (fun g => g.1 ++ [g.2])
      ∧ List.Forall₂ (fun o g => Comment.lines o.2 style.width = .ok g.1
          ∧ Property.Declares (Property.name o.1 o.2 style.preferredNames) g.2) options groups := by
  induction options generalizing ls with
  | nil =>
    cases h
    exact ⟨[], rfl, .nil⟩
  | cons o options ih =>
    obtain ⟨first, hfirst, h⟩ := Outcome.bind_eq_ok_iff.mp h
    obtain ⟨more, hmore, hpure⟩ := Outcome.bind_eq_ok_iff.mp h
    cases hpure
    obtain ⟨comment, hcomment, hfirst⟩ := Outcome.bind_eq_ok_iff.mp hfirst
    obtain ⟨line, hline, hpure⟩ := Outcome.bind_eq_ok_iff.mp hfirst
    cases hpure
    obtain ⟨groups, rfl, hgroups⟩ := ih hmore
    have hdeclares := Property.declares_of_line hline
    exact ⟨(comment, line) :: groups, rfl, .cons ⟨hcomment, hdeclares⟩ hgroups⟩

/-- **Which properties share a name.** An interface declares one property for each option, in order,
and no two are of one name exactly if camelCase tells the names apart that they are made from; in
ASCII, if no two of these have the same words, where a word that begins with no letter counts as
part of the word before.

The property is `camel` of the chosen name, so the first equivalence holds by definition. For ASCII,
two names have the same camelCase exactly if their words, joined where camelCase joins them, are the
same (`camel_eq_camel_iff`). -/
theorem Interface.nodup_names_iff (style : Style) (c : Command) :
    (∀ text, render style c = .ok text →
      ∃ groups : List (List Text × Text),
        text = layout (name c.name) (groups.flatMap fun g => g.1 ++ [g.2])
          ∧ List.Forall₂ (fun o g => Comment.lines o.2 style.width = .ok g.1
            ∧ Property.Declares (Property.name o.1 o.2 style.preferredNames) g.2) c.options groups)
      ∧ ((names style.preferredNames c).Nodup ↔ c.options.Pairwise fun o p =>
        Words.camel (Property.chosen style.preferredNames o)
          ≠ Words.camel (Property.chosen style.preferredNames p))
      ∧ ((∀ o ∈ c.options, Text.IsAscii (Property.chosen style.preferredNames o)) →
        ((names style.preferredNames c).Nodup ↔ c.options.Pairwise fun o p =>
          Words.merged (Words.split (Property.chosen style.preferredNames o))
            ≠ Words.merged (Words.split (Property.chosen style.preferredNames p)))) := by
  have hnodup : (names style.preferredNames c).Nodup ↔ c.options.Pairwise fun o p =>
      Words.camel (Property.chosen style.preferredNames o)
        ≠ Words.camel (Property.chosen style.preferredNames p) :=
    List.pairwise_map
  refine ⟨?_, hnodup, ?_⟩
  · intro text h
    obtain ⟨ls, hls, hpure⟩ := Outcome.bind_eq_ok_iff.mp h
    cases hpure
    obtain ⟨groups, rfl, hgroups⟩ := exists_groups_of_bodyLines hls
    exact ⟨groups, rfl, hgroups⟩
  · intro hascii
    rw [hnodup]
    refine List.Pairwise.iff_of_mem fun ho hp => ?_
    rw [ne_eq, Words.camel_eq_camel_iff (hascii _ ho) (hascii _ hp)]

/-- An option of which nothing is declared but its other names. -/
def named (key : Text) (others : List Text) : Text × Descriptor :=
  (key, ⟨key, none, none, .null, none, some (.many others), .plain false, []⟩)

/-- A style that prefers one name. -/
def shortStyle : Style := ⟨[], ["dir"], 79⟩

/-- Options of which the second and the third differ in the start of a word, and the last two in
what is preferred. -/
def folders : Command := ⟨"run", [named "source-dir" ["s", "dir"], named "x1y" [], named "x-1-y" [],
  named "source-dir2" ["s"]], true⟩

theorem Interface.nodup_names_iff_folders :
    (∀ o ∈ folders.options, Text.IsAscii (Property.chosen shortStyle.preferredNames o))
      ∧ names shortStyle.preferredNames folders = ["dir", "x1y", "x1Y", "sourceDir2"]
      ∧ (names shortStyle.preferredNames folders).Nodup
      ∧ ∃ text, render shortStyle folders = .ok text ∧ ∃ groups : List (List Text × Text),
        text = layout "RunOptions" (groups.flatMap fun g => g.1 ++ [g.2]) := by
  obtain ⟨hrender, -, hnames⟩ := nodup_names_iff shortStyle folders
  have hascii : ∀ o ∈ folders.options,
      Text.IsAscii (Property.chosen shortStyle.preferredNames o) := by decide
  refine ⟨hascii, rfl, (hnames hascii).mpr (by decide), _, rfl, ?_⟩
  obtain ⟨groups, htext, -⟩ := hrender _ rfl
  exact ⟨groups, htext⟩

/-- Distinct keys do not make distinct names: two keys of the same words name one property, and so
do two options with the same preferred name. -/
theorem Interface.not_forall_nodup_names :
    ¬ ∀ (style : Style) (c : Command), (c.options.map Prod.fst).Nodup →
      (names style.preferredNames c).Nodup := by
  intro h
  have hkeys : ([named "source-dir" [], named "sourceDir" []].map Prod.fst).Nodup := by decide
  have hnames := h shortStyle ⟨"run", _, true⟩ hkeys
  have hsame : names shortStyle.preferredNames
      ⟨"run", [named "source-dir" [], named "sourceDir" []], true⟩ = ["sourceDir", "sourceDir"] := rfl
  rw [hsame] at hnames
  exact absurd hnames (by decide)

end Declaration

end OptionTypes
