import OptionTypes.Proofs.Declaration.Outline

/-!
# Blocks of lines

Declarations consist of blocks of lines, one for each command, with an empty line between two of
them. A block opens and closes at the margin; the lines inside are indented and show the options in
their order. Nothing that a declaration is made of adds a line or takes one away, as long as the
types are in one line.

* `Declaration.Inner` is what a line inside a block looks like.
* `Declaration.Unwritable` is what keeps an option from being written at all.
* `Declaration.renderAll_blocks`: the lines of declarations, and what is read off them.
-/

namespace OptionTypes

open Text

namespace Declaration

variable {style : Style}

/-! ## Lines inside a block -/

/-- A line inside a block: indented, and with nothing blank at its end. -/
structure Inner (line : Text) : Prop where
  indent : ofString "  " <+: line
  trimmed : Blank.trimEnd line = line

/-- A line that is not blank is one inside a block when it is indented. -/
theorem inner_indented {line : Text} {c : CodePoint} (hc : c ∈ line)
    (hblank : Blank.isBlank c = false) : Inner (indented line) where
  indent := List.prefix_append _ _
  trimmed := by
    have htwice : Blank.trimEnd (Blank.trimEnd line) = Blank.trimEnd line :=
      List.rdropWhile_idempotent Blank.isBlank line
    rw [indented, Blank.trimEnd_append (Blank.mem_trimEnd hc hblank) hblank, htwice]

namespace Comment

/-- Every line of a comment has a star. -/
theorem star_mem_of_mem_lines {d : Descriptor} {width : Int} {ls : List Text}
    (h : lines d width = .ok ls) : ∀ line ∈ ls, CodePoint.char '*' ∈ line := by
  by_cases hne : ls = []
  · rw [hne]
    exact nofun
  · obtain ⟨first, second, hfirst, hsecond, rfl⟩ := exists_lines_eq hne h
    intro line hline
    rw [List.mem_append, List.mem_cons, List.mem_append, List.mem_singleton] at hline
    -- the line that opens the comment, those of the description and of the default, and the closing
    -- one
    rcases hline with (rfl | hline | hline) | rfl
    · decide
    · cases hdescription : description? d with
      | none =>
        rw [hdescription] at hfirst
        cases hfirst
        cases hline
      | some t =>
        rw [hdescription] at hfirst
        obtain ⟨segments, -, hpure⟩ := Outcome.bind_eq_ok_iff.mp hfirst
        cases hpure
        obtain ⟨segment, -, rfl⟩ := List.mem_map.mp hline
        exact List.mem_append_left _ (by decide)
    · -- a default has a line of its own, and a blank one before it where a description stands
      rcases defaultLines_eq_ok hsecond with ⟨-, rfl⟩ | ⟨json, -, -, rfl⟩
      · cases hline
      · rcases List.mem_append.mp hline with hgap | hjson
        · split at hgap
          · obtain rfl := List.mem_singleton.mp hgap
            decide
          · cases hgap
        · obtain rfl := List.mem_singleton.mp hjson
          exact List.mem_append_left _ (by decide)
    · decide

end Comment

/-- Every property has a colon in its line. -/
theorem Property.colon_mem_line {command key : Text} {d : Descriptor} {l : Text}
    (h : line style command key d = .ok l) : CodePoint.char ':' ∈ l := by
  obtain ⟨t, -, rfl⟩ := line_eq_ok_iff.mp h
  have hcolon : CodePoint.char ':' ∈ mark d := List.mem_append_right _ (by decide)
  exact List.mem_append_right _ (List.mem_append_left t hcolon)

/-- All that is shown of an option lies inside its block. -/
theorem Shows.inner {o : CommandOption} {s : Shown} (h : Shows style o s) :
    ∀ line ∈ s.lines, Inner line := by
  obtain ⟨hcomment, hline⟩ := h
  refine List.forall_mem_append.mpr ⟨?_, List.forall_mem_singleton.mpr ?_⟩
  · intro line hmem
    obtain ⟨inner, hinner, rfl⟩ := List.mem_map.mp hmem
    exact inner_indented (Comment.star_mem_of_mem_lines hcomment inner hinner) (by decide)
  · exact inner_indented (Property.colon_mem_line hline) (by decide)

theorem inner_of_forall₂_shows {options : List CommandOption} {shown : List Shown}
    (h : List.Forall₂ (Shows style) options shown) :
    ∀ s ∈ shown, ∀ line ∈ s.lines, Inner line := by
  induction h with
  | nil => exact nofun
  | cons hs _ ih => exact List.forall_mem_cons.mpr ⟨hs.inner, ih⟩

/-! ## Options that cannot be written -/

/-- Why an option has no declaration: its default or one of its choices has no JSON. -/
inductive Unwritable (style : Style) (o : CommandOption) (e : Json.WriteError) : Prop
  | default (hdefault : o.descriptor.hasDefault = true)
    (h : Comment.defaultText o.descriptor.default = .error e)
  | type (h : Property.type o.command o.key o.descriptor style.typeOverrides = .error e)

/-- A comment cannot be written only if its default cannot: the description is wrapped to a width
that is positive. -/
theorem unwritable_of_lines {command key : Text} {d : Descriptor} {e : Error}
    (hwidth : 0 < style.width) (h : Comment.lines d style.width = .error e) :
    ∃ json, e = .json json ∧ Unwritable style ⟨command, key, d⟩ json := by
  -- a description is always laid out, since the width is positive
  have hdescribes : ∀ description e,
      Comment.descriptionLines style.width description ≠ .error e := by
    intro description e hfails
    cases description with
    | none => cases hfails
    | some t =>
      rw [Comment.descriptionLines, Wrap.wrap, if_neg (Int.not_le.mpr hwidth)] at hfails
      cases hfails
  rw [Comment.lines] at h
  split at h
  · cases h
  · rcases Outcome.bind_eq_error_iff.mp h with hfirst | ⟨first, -, h⟩
    · exact absurd hfirst (hdescribes _ _)
    · rcases Outcome.bind_eq_error_iff.mp h with hsecond | ⟨second, -, hpure⟩
      · rw [Comment.defaultLines] at hsecond
        split at hsecond
        next hdefault =>
          rcases Outcome.bind_eq_error_iff.mp hsecond with htext | ⟨text, -, hpure⟩
          · obtain ⟨json, hjson, rfl⟩ := Outcome.mapError_eq_error_iff.mp htext
            exact ⟨json, rfl, .default hdefault hjson⟩
          · cases hpure
        next => cases hsecond
      · cases hpure

theorem unwritable_of_line {command key : Text} {d : Descriptor} {e : Error}
    (h : Property.line style command key d = .error e) :
    ∃ json, e = .json json ∧ Unwritable style ⟨command, key, d⟩ json := by
  rcases Outcome.bind_eq_error_iff.mp h with htype | ⟨t, -, hpure⟩
  · obtain ⟨json, hjson, rfl⟩ := Outcome.mapError_eq_error_iff.mp htype
    exact ⟨json, rfl, .type hjson⟩
  · cases hpure

/-- An interface cannot be written only if one of its options cannot. -/
theorem unwritable_of_bodyLines (hwidth : 0 < style.width) {command : Text} {e : Error} :
    ∀ {options : List (Text × Descriptor)},
      Interface.bodyLines style command options = .error e →
      ∃ o ∈ options.map fun (key, d) => (⟨command, key, d⟩ : CommandOption),
        ∃ json, e = .json json ∧ Unwritable style o json
  | [], h => by cases h
  | (key, d) :: options, h => by
    rw [List.map_cons]
    rcases Outcome.bind_eq_error_iff.mp h with hfirst | ⟨first, -, h⟩
    · refine ⟨_, List.mem_cons_self, ?_⟩
      rcases Outcome.bind_eq_error_iff.mp hfirst with hcomment | ⟨comment, -, hfirst⟩
      · exact unwritable_of_lines hwidth hcomment
      · rcases Outcome.bind_eq_error_iff.mp hfirst with hline | ⟨line, -, hpure⟩
        · exact unwritable_of_line hline
        · cases hpure
    · rcases Outcome.bind_eq_error_iff.mp h with hmore | ⟨more, -, hpure⟩
      · obtain ⟨o, ho, hwhy⟩ := unwritable_of_bodyLines hwidth hmore
        exact ⟨o, List.mem_cons_of_mem _ ho, hwhy⟩
      · cases hpure

/-- What fails is an option of one of the commands. Induction on the commands. -/
theorem unwritable_of_renderEach (hwidth : 0 < style.width) {e : Error} :
    ∀ {commands : List Command}, Interface.renderEach style commands = .error e →
      ∃ o ∈ optionsOf commands, ∃ json, e = .json json ∧ Unwritable style o json
  | [], h => by cases h
  | c :: commands, h => by
    rw [optionsOf_cons, optionsOf_singleton]
    rcases Outcome.bind_eq_error_iff.mp h with hfirst | ⟨first, -, h⟩
    · rcases Outcome.bind_eq_error_iff.mp hfirst with hbody | ⟨ls, -, hpure⟩
      · obtain ⟨o, ho, hwhy⟩ := unwritable_of_bodyLines hwidth hbody
        exact ⟨o, List.mem_append_left _ ho, hwhy⟩
      · cases hpure
    · rcases Outcome.bind_eq_error_iff.mp h with hmore | ⟨more, -, hpure⟩
      · obtain ⟨o, ho, hwhy⟩ := unwritable_of_renderEach hwidth hmore
        exact ⟨o, List.mem_append_right _ ho, hwhy⟩
      · cases hpure

/-! ## The lines of declarations -/

/-- **The lines of declarations.** Declarations that can be written are one block for each command,
an empty line between two of them: the opening line of the interface, the lines of each option in
order, and the closing line. The lines inside are indented and end with nothing blank, and what they
show can be read off the text again.

Command by command the lines are the block of what is shown (`lines_join`), and reading the outline
of the blocks gives that back (`outlineFrom_separated`). Failures come from a single option
(`unwritable_of_renderEach`). -/
theorem renderAll_blocks (config : Config) (commands : List Command)
    (hwidth : Config.minimumWidth ≤ config.wrapWidth) (hne : commands ≠ [])
    (htypes : ∀ o ∈ optionsOf commands, InOneLine (.ofConfig config) o) :
    match renderAll (.ofConfig config) commands with
    | .error e =>
      ∃ o ∈ optionsOf commands, ∃ json, e = .json json ∧ Unwritable (.ofConfig config) o json
    | .ok text =>
      ∃ shown, List.Forall₂ (ShowsCommand (.ofConfig config)) commands shown
        ∧ Text.lines text = separated (blocks commands shown)
        ∧ (∀ s ∈ shown.flatten, ∀ line ∈ s.lines, Inner line)
        ∧ outline text = shown.flatten := by
  -- the least width that is allowed is positive
  have hpositive : 0 < (Style.ofConfig config).width := by
    have h : Config.minimumWidth = 20 := rfl
    show (0 : Int) < (config.wrapWidth : Int)
    omega
  split
  next e he =>
    rcases Outcome.bind_eq_error_iff.mp he with heach | ⟨interfaces, -, hpure⟩
    · exact unwritable_of_renderEach hpositive heach
    · cases hpure
  next text htext =>
    obtain ⟨interfaces, hinterfaces, hpure⟩ := Outcome.bind_eq_ok_iff.mp htext
    cases hpure
    obtain ⟨shown, hshows, hlines⟩ := lines_join hne htypes hinterfaces
    refine ⟨shown, hshows, hlines, inner_of_forall₂_shows (forall₂_shows hshows), ?_⟩
    rw [outline, hlines, outlineFrom_separated hshows]

/-- A command with two options, and one without any. -/
def twoCommands : List Command :=
  [⟨"run",
      [("reload", ⟨"reload", some "boolean", none, .bool true, some "Reload on changes.", none,
          .plain false, []⟩),
        ("target", ⟨"target", some "array", some [.str "a", .int 1], .null, none, none,
          .plain true, []⟩)], true⟩,
    ⟨"lint-all", [], true⟩]

theorem renderAll_blocks_twoCommands :
    (renderAll (.ofConfig .standard) twoCommands).toOption.map Text.lines
        = some (["export interface RunOptions \x7b", "  /**", "   * Reload on changes.", "   *",
          "   * @default true", "   */", "  reload: boolean | undefined",
          "  target: ('a' | '1')[]", "\x7d", "", "export interface LintAllOptions \x7b", "\x7d",
          ""].map ofString)
      ∧ ∃ text shown, renderAll (.ofConfig .standard) twoCommands = .ok text
        ∧ Text.lines text = separated (blocks twoCommands shown)
        ∧ outline text = shown.flatten := by
  have hwritten : (renderAll (.ofConfig .standard) twoCommands).toOption.isSome = true := by
    decide +kernel
  have htypes : ∀ c ∈ twoCommands, OneLineCommand (.ofConfig .standard) c := by decide +kernel
  have h := renderAll_blocks .standard twoCommands (by decide) nofun
    (inOneLine_of_oneLineCommand htypes)
  refine ⟨by decide +kernel, ?_⟩
  generalize renderAll (.ofConfig .standard) twoCommands = rendered at h hwritten
  cases rendered with
  | error e => cases hwritten
  | ok text =>
    obtain ⟨shown, -, hblocks, -, houtline⟩ := h
    exact ⟨text, shown, rfl, hblocks, houtline⟩

end Declaration

end OptionTypes
