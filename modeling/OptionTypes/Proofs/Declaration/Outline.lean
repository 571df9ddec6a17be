import OptionTypes.Declaration.Interface
import OptionTypes.Proofs.CommentEnd
import OptionTypes.Proofs.Json.OneLine
import OptionTypes.Proofs.Names

/-!
# Outlines of declarations

What declarations say about each option can be read off their lines: the line of the property, the
comment before it, and the interface around it. An outline does that, and knows nothing of how the
lines came about.

* `Declaration.outline` reads the outline of declarations.
* `Declaration.Shows` is what an outline says of an option.
* `Declaration.shows_outline`: the outline of declarations says so of each option, in order.
-/

namespace OptionTypes

open Text

/-- No line of a wrapped description ends before its end: line ends have become spaces. -/
theorem Wrap.oneLine_of_mem_linesOf {width : Nat} {description line : Text}
    (h : line ∈ linesOf width description) : OneLine line := by
  refine OneLine.subset ?_ (infix_of_mem_linesOf h).subset
  intro hmem
  obtain ⟨c, -, hc⟩ := List.mem_map.mp hmem
  split at hc
  next => cases hc
  next hblank =>
    subst hc
    exact hblank rfl

namespace Declaration

/-! ## Reading an outline -/

/-- A property as declarations show it. -/
structure Shown where
  /-- The name of the interface around it. -/
  interface : Text
  /-- The lines of the comment before it. -/
  comment : List Text
  /-- Its line without indent. -/
  line : Text

/-- The line that opens a comment. -/
def opening : Text := "  /**"

/-- The line that closes a comment. -/
def closing : Text := "   */"

/-- What stands before the name of an interface. -/
def headerStart : Text := "export interface "

/-- What stands after the name of an interface. -/
def headerEnd : Text := " \x7b"

/-- The name in the line that opens an interface. -/
def header? (line : Text) : Option Text :=
  if headerStart.isPrefixOf line && headerEnd.isSuffixOf line then
    some ((line.drop headerStart.length).dropLast.dropLast)
  else none

/-- The properties in some lines of declarations. A comment was read up to some line, and the next
line may still be `inside` it. -/
def outlineFrom (interface : Text) (comment : List Text) (inside : Bool) : List Text → List Shown
  | [] => []
  | line :: rest =>
    if inside then outlineFrom interface (comment ++ [line]) (line ≠ closing) rest
    else if line = opening then outlineFrom interface [line] true rest
    else if line.startsWith "  " then
      ⟨interface, comment, line.drop 2⟩ :: outlineFrom interface [] false rest
    else outlineFrom ((header? line).getD interface) comment false rest

/-- The properties in declarations, in order. -/
def outline (declarations : Text) : List Shown :=
  outlineFrom [] [] false (Text.lines declarations)

/-! ## What lines do to an outline -/

/-- A line as it stands in an interface. -/
def indented (line : Text) : Text := "  " ++ Blank.trimEnd line

variable {interface : Text} {rest : List Text}

/-- All lines up to the mark that closes a comment belong to it. -/
theorem outlineFrom_comment {comment body : List Text} (hbody : ∀ line ∈ body, line ≠ closing) :
    outlineFrom interface comment true (body ++ closing :: rest)
      = outlineFrom interface (comment ++ (body ++ [closing])) false rest := by
  induction body generalizing comment with
  | nil =>
    rw [List.nil_append, outlineFrom, if_pos rfl]
    simp
  | cons line body ih =>
    obtain ⟨hline, hbody⟩ := List.forall_mem_cons.mp hbody
    rw [List.cons_append, outlineFrom, if_pos rfl, decide_eq_true hline, ih hbody]
    simp

/-- A line outside of comments that opens none is a property, with the comment before it. -/
theorem outlineFrom_property {comment : List Text} {line : Text} (h : indented line ≠ opening) :
    outlineFrom interface comment false (indented line :: rest)
      = ⟨interface, comment, Blank.trimEnd line⟩ :: outlineFrom interface [] false rest := by
  have hindent : Text.startsWith (indented line) "  " = true :=
    List.isPrefixOf_iff_prefix.mpr (List.prefix_append _ _)
  have hdrop : (indented line).drop 2 = Blank.trimEnd line := rfl
  rw [outlineFrom, if_neg (by decide), if_neg h, if_pos hindent, hdrop]

/-- A line with a header names the interface for the properties that follow. -/
theorem outlineFrom_header {comment : List Text} (name : Text) :
    outlineFrom interface comment false ((headerStart ++ name ++ headerEnd) :: rest)
      = outlineFrom name comment false rest := by
  have hline : headerStart ++ name ++ headerEnd ≠ opening := by
    intro heq
    cases heq
  have hindent : Text.startsWith (headerStart ++ name ++ headerEnd) "  " = false := rfl
  -- between the two fixed parts of a header stands the name, whatever is in it
  have hname : header? (headerStart ++ name ++ headerEnd) = some name := by
    have hstart : headerStart.isPrefixOf (headerStart ++ name ++ headerEnd) = true := by
      rw [List.isPrefixOf_iff_prefix, List.append_assoc]
      exact List.prefix_append _ _
    have hend : headerEnd.isSuffixOf (headerStart ++ name ++ headerEnd) = true :=
      List.isSuffixOf_iff_suffix.mpr (List.suffix_append _ _)
    have hdrop : ((headerStart ++ name ++ headerEnd).drop headerStart.length).dropLast.dropLast
        = name := by
      have htwo : headerEnd = [.char ' ', .char '\x7b'] := rfl
      rw [List.append_assoc, List.drop_left, htwo]
      simp
    rw [header?, hstart, hend, hdrop]
    rfl
  rw [outlineFrom, if_neg (by decide), if_neg hline, hindent, hname]
  rfl

/-- The brace that closes an interface, and an empty line, show nothing. -/
theorem outlineFrom_other {comment : List Text} {line : Text}
    (hline : line ∈ [[], ofString "\x7d"]) :
    outlineFrom interface comment false (line :: rest)
      = outlineFrom interface comment false rest := by
  simp only [List.mem_cons, List.not_mem_nil, or_false] at hline
  rcases hline with rfl | rfl
  · rfl
  · rfl

/-! ## Lines of a property -/

/-- The text that a value is, if it is one. -/
def text? : Value → Option Text
  | .text t => some t
  | _ => none

/-- Whether no type that is declared for an option ends a line: not its own, nor an override, nor
the text of a choice. -/
structure OneLineTypes (overrides : List (Text × Text)) (d : Descriptor) : Prop where
  overrides : ∀ p ∈ overrides, OneLine p.2
  type : ∀ t ∈ d.type, OneLine t
  choices : ∀ v ∈ d.choices.getD [], ∀ t ∈ text? v, OneLine t

instance (overrides : List (Text × Text)) (d : Descriptor) :
    Decidable (OneLineTypes overrides d) :=
  decidable_of_iff ((∀ p ∈ overrides, OneLine p.2) ∧ (∀ t ∈ d.type, OneLine t)
      ∧ ∀ v ∈ d.choices.getD [], ∀ t ∈ text? v, OneLine t)
    ⟨fun ⟨h, h', h''⟩ => ⟨h, h', h''⟩, fun ⟨h, h', h''⟩ => ⟨h, h', h''⟩⟩

/-- An option of a command. -/
structure CommandOption where
  command : Text
  key : Text
  descriptor : Descriptor

/-- The options of commands, in order. -/
def optionsOf (commands : List Command) : List CommandOption :=
  commands.flatMap fun c => c.options.map fun (key, d) => ⟨c.name, key, d⟩

/-- Whether none of the texts that the type of an option is made of ends a line: its own type, the
override for it, or the text of a choice. -/
structure InOneLine (style : Style) (o : CommandOption) : Prop where
  override : ∀ t ∈ lookup? (o.command ++ "/" ++ o.key) style.typeOverrides, OneLine t
  type : ∀ t ∈ o.descriptor.type, OneLine t
  choices : ∀ v ∈ o.descriptor.choices.getD [], ∀ t ∈ text? v, OneLine t

theorem OneLineTypes.inOneLine {style : Style} {d : Descriptor}
    (h : OneLineTypes style.typeOverrides d) (command key : Text) :
    InOneLine style ⟨command, key, d⟩ where
  override := by
    intro t ht
    obtain ⟨p, hp, rfl⟩ := Option.map_eq_some_iff.mp ht
    exact h.overrides p (List.mem_of_find?_eq_some hp)
  type := h.type
  choices := h.choices

namespace Property

/-- A choice in a type is quoted or written as data, and both stay on a line where the choice
does. -/
theorem oneLine_choiceLiteral {v : Value} {t : Text} (hv : ∀ u ∈ text? v, OneLine u)
    (h : choiceLiteral v = .ok t) : OneLine t := by
  obtain ⟨u, hu, hpure⟩ := Outcome.bind_eq_ok_iff.mp h
  cases hpure
  have htext : OneLine u := by
    unfold choiceText at hu
    split at hu
    next w =>
      cases hu
      exact hv _ rfl
    next => exact Json.oneLine_write Json.flat_spaced hu
  have hescaped : OneLine (replace "'" "\\'" (replace "\\" "\\\\" u)) :=
    OneLine.replace (by decide) (OneLine.replace (by decide) htext)
  exact oneLine_append.mpr ⟨oneLine_append.mpr ⟨by decide, hescaped⟩, by decide⟩

theorem oneLine_choiceLiterals {vs : List Value} (hvs : ∀ v ∈ vs, ∀ u ∈ text? v, OneLine u) :
    ∀ {ts : List Text}, choiceLiterals vs = .ok ts → ∀ t ∈ ts, OneLine t := by
  induction vs with
  | nil =>
    intro ts h
    cases h
    simp
  | cons v vs ih =>
    intro ts h
    obtain ⟨hv, hvs⟩ := List.forall_mem_cons.mp hvs
    obtain ⟨t, ht, h⟩ := Outcome.bind_eq_ok_iff.mp h
    obtain ⟨more, hmore, hpure⟩ := Outcome.bind_eq_ok_iff.mp h
    cases hpure
    exact List.forall_mem_cons.mpr ⟨oneLine_choiceLiteral hv ht, ih hvs hmore⟩

theorem oneLine_arrayType {choices : Option (List Value)} {t : Text}
    (hchoices : ∀ v ∈ choices.getD [], ∀ u ∈ text? v, OneLine u)
    (h : arrayType choices = .ok t) : OneLine t := by
  unfold arrayType at h
  split at h
  next =>
    cases h
    decide
  next =>
    cases h
    decide
  next vs _ =>
    obtain ⟨ts, hts, hpure⟩ := Outcome.bind_eq_ok_iff.mp h
    cases hpure
    have hjoin : OneLine (join " | " ts) :=
      oneLine_join (by decide) (oneLine_choiceLiterals hchoices hts)
    exact oneLine_append.mpr ⟨oneLine_append.mpr ⟨by decide, hjoin⟩, by decide⟩

/-- A type stays on one line: it is one of a few words, an override, or a union of choices. -/
theorem oneLine_type {style : Style} {command key : Text} {d : Descriptor} {t : Text}
    (hd : InOneLine style ⟨command, key, d⟩)
    (h : type command key d style.typeOverrides = .ok t) : OneLine t := by
  obtain ⟨base, hbase, hpure⟩ := Outcome.bind_eq_ok_iff.mp h
  -- an override is taken as it is, and so is a declared type other than that of an array
  have hline : OneLine base := by
    unfold baseType at hbase
    split at hbase
    next u hu =>
      cases hbase
      exact hd.override _ hu
    next =>
      split at hbase
      next =>
        cases hbase
        decide
      next u hu =>
        split at hbase
        · exact oneLine_arrayType hd.choices hbase
        · cases hbase
          exact hd.type _ hu
  cases hpure
  split
  · exact hline
  · exact oneLine_append.mpr ⟨hline, by decide⟩

/-- What stands between the name and the type of a property. -/
def mark (d : Descriptor) : Text := ofString (if isRequired d then "" else "?") ++ ofString ": "

/-- The line of a property is its name, its mark and its type. -/
theorem line_eq_ok_iff {style : Style} {command key : Text} {d : Descriptor} {l : Text} :
    line style command key d = .ok l ↔ ∃ t, type command key d style.typeOverrides = .ok t
      ∧ l = name key d style.preferredNames ++ (mark d ++ t) := by
  rw [line, Outcome.bind_eq_ok_iff]
  refine exists_congr fun t => ?_
  rw [Outcome.mapError_eq_ok_iff]
  refine and_congr_right fun _ => ?_
  simp only [mark, ← List.append_assoc]
  exact ⟨fun h => (Except.ok.inj h).symm, fun h => congrArg Except.ok h.symm⟩

theorem oneLine_line {style : Style} {command key : Text} {d : Descriptor} {l : Text}
    (hd : InOneLine style ⟨command, key, d⟩) (h : line style command key d = .ok l) :
    OneLine l := by
  obtain ⟨t, ht, rfl⟩ := line_eq_ok_iff.mp h
  have hmark : OneLine (mark d) := by
    unfold mark
    split
    · decide
    · decide
  have hname : OneLine (name key d style.preferredNames) := Words.oneLine_camel _
  exact oneLine_append.mpr ⟨hname, oneLine_append.mpr ⟨hmark, oneLine_type hd ht⟩⟩

/-- A property is not taken for a comment: there is a colon in its line. -/
theorem indented_line_ne {style : Style} {command key : Text} {d : Descriptor} {l : Text}
    (h : line style command key d = .ok l) : indented l ≠ opening := by
  obtain ⟨t, -, rfl⟩ := line_eq_ok_iff.mp h
  have hcolon : CodePoint.char ':' ∈ mark d := List.mem_append_right _ (by decide)
  have hmem := Blank.mem_trimEnd
    (List.mem_append_right (name key d style.preferredNames) (List.mem_append_left t hcolon))
    (by decide)
  intro heq
  have hopening : CodePoint.char ':' ∈ opening := by
    rw [← heq]
    exact List.mem_append_right _ hmem
  exact absurd hopening (by decide)

end Property

namespace Comment

/-- A line that goes on after its mark does not close a comment. -/
theorem indented_ne_closing {more : Text} (h : more.head? ≠ some (.char '/')) :
    indented (" *" ++ more) ≠ closing := by
  intro heq
  have htrim : Blank.trimEnd (ofString " *" ++ more) = ofString " */" := congrArg (List.drop 2) heq
  have hprefix : ofString " */" <+: ofString " *" ++ more := htrim ▸ Blank.trimEnd_isPrefix _
  have hsplit : ofString " */" = ofString " *" ++ [.char '/'] := rfl
  rw [hsplit, List.prefix_append_right_inj] at hprefix
  obtain ⟨rest, rfl⟩ := hprefix
  exact h rfl

/-- Whether a line may stand within a comment. -/
def Within (line : Text) : Prop := OneLine line ∧ indented line ≠ closing

/-- The lines of a description stay within the comment: none of them is the one that closes it. -/
theorem within_of_mem_descriptionLines {width : Int} {description : Option Text} {ls : List Text}
    (h : descriptionLines width description = .ok ls) : ∀ line ∈ ls, Within line := by
  cases description with
  | none =>
    cases h
    simp
  | some t =>
    obtain ⟨segments, hsegments, hpure⟩ := Outcome.bind_eq_ok_iff.mp h
    cases hpure
    rw [Outcome.mapError_eq_ok_iff, Wrap.wrap] at hsegments
    split at hsegments
    · cases hsegments
    · cases hsegments
      intro line hline
      obtain ⟨segment, hsegment, rfl⟩ := List.mem_map.mp hline
      refine ⟨oneLine_append.mpr ⟨by decide, Wrap.oneLine_of_mem_linesOf hsegment⟩, ?_⟩
      -- a blank comes before the segment, so the slash of a closing mark cannot be its first
      -- character
      have hblank : (CodePoint.char ' ' :: segment).head? ≠ some (.char '/') := by
        intro heq
        cases heq
      exact indented_ne_closing hblank

/-- The lines for a default: one, possibly after a blank one, if there is a default at all. -/
theorem defaultLines_eq_ok {d : Descriptor} {described : Bool} {ls : List Text}
    (h : defaultLines d described = .ok ls) :
    (d.hasDefault = false ∧ ls = []) ∨ ∃ json, d.hasDefault = true
      ∧ defaultText d.default = .ok json
      ∧ ls = (if described then [ofString " *"] else []) ++ [ofString " * @default " ++ json] := by
  rw [defaultLines] at h
  split at h
  next hdefault =>
    obtain ⟨json, hjson, hpure⟩ := Outcome.bind_eq_ok_iff.mp h
    cases hpure
    exact .inr ⟨json, hdefault, Outcome.mapError_eq_ok_iff.mp hjson, rfl⟩
  next hdefault =>
    cases h
    exact .inl ⟨Bool.eq_false_iff.mpr hdefault, rfl⟩

/-- A default is data on one line, and its line does not begin like the one that closes the
comment. -/
theorem within_of_mem_defaultLines {d : Descriptor} {described : Bool} {ls : List Text}
    (h : defaultLines d described = .ok ls) : ∀ line ∈ ls, Within line := by
  rcases defaultLines_eq_ok h with ⟨-, rfl⟩ | ⟨json, -, hjson, rfl⟩
  · simp
  · have hgap : ∀ line ∈ (if described then [ofString " *"] else []), Within line := by
      intro line hline
      cases described with
      | false => cases hline
      | true =>
        obtain rfl := List.mem_singleton.mp hline
        exact ⟨by decide, by decide⟩
    have hline : Within (ofString " * @default " ++ json) := by
      refine ⟨oneLine_append.mpr ⟨by decide, Json.oneLine_write Json.flat_compact hjson⟩, ?_⟩
      have hblank : (ofString " @default " ++ json).head? ≠ some (.char '/') := by
        intro heq
        cases heq
      exact indented_ne_closing hblank
    exact List.forall_mem_append.mpr ⟨hgap, List.forall_mem_singleton.mpr hline⟩

theorem oneLine_of_mem_lines {d : Descriptor} {width : Int} {ls : List Text}
    (h : lines d width = .ok ls) : ∀ line ∈ ls, OneLine line := by
  by_cases hne : ls = []
  · rw [hne]
    simp
  · obtain ⟨first, second, hfirst, hsecond, rfl⟩ := exists_lines_eq hne h
    intro line hline
    rw [List.mem_append, List.mem_cons, List.mem_append, List.mem_singleton] at hline
    rcases hline with (rfl | hline | hline) | rfl
    · decide
    · exact (within_of_mem_descriptionLines hfirst line hline).1
    · exact (within_of_mem_defaultLines hsecond line hline).1
    · decide

/-- The comment of a property is read as a comment: it opens, goes on with lines that do not close
it, and closes. -/
theorem outlineFrom_lines {d : Descriptor} {width : Int} {ls : List Text}
    (h : lines d width = .ok ls) :
    outlineFrom interface [] false (ls.map indented ++ rest)
      = outlineFrom interface (ls.map indented) false rest := by
  by_cases hne : ls = []
  · rw [hne]
    rfl
  · obtain ⟨first, second, hfirst, hsecond, rfl⟩ := exists_lines_eq hne h
    have hbody : ∀ line ∈ (first ++ second).map indented, line ≠ closing := by
      intro line hline
      obtain ⟨inner, hinner, rfl⟩ := List.mem_map.mp hline
      rcases List.mem_append.mp hinner with hmem | hmem
      · exact (within_of_mem_descriptionLines hfirst inner hmem).2
      · exact (within_of_mem_defaultLines hsecond inner hmem).2
    have hshape : (ofString "/**" :: (first ++ second) ++ [ofString " */"]).map indented
        = opening :: ((first ++ second).map indented ++ [closing]) := by
      rw [List.map_append, List.map_cons]
      rfl
    -- the opening line puts the reader inside, and no line of the body lets it out again
    rw [hshape, List.cons_append, outlineFrom, if_neg (by decide), if_pos rfl, List.append_assoc,
      List.singleton_append, outlineFrom_comment hbody]
    rfl

/-! ## Defaults in comments -/

/-- What stands before a default in a comment. -/
def tag : Text := "   * @default "

/-- The lines of a comment that have the tag of a default. -/
def tagged (comment : List Text) : List Text := comment.filter (tag.isPrefixOf ·)

/-- The tagged lines that the description of an option brings with it. -/
def describedTags (d : Descriptor) (width : Int) : List Text :=
  match descriptionLines width (description? d) with
  | .ok ls => tagged (ls.map indented)
  | .error _ => []

theorem tagged_append (s t : List Text) : tagged (s ++ t) = tagged s ++ tagged t :=
  List.filter_append _ _

/-- A default stands in the comment as a whole, since no blanks end it. -/
theorem indented_default {d : Descriptor} {json : Text} (h : defaultText d.default = .ok json) :
    indented (ofString " * @default " ++ json) = tag ++ json := by
  obtain ⟨c, hc, hsolid⟩ := Json.exists_solid_write h
  have hblank : Blank.isBlank c = false := by
    simp only [Json.isSolid, Bool.and_eq_true, Bool.not_eq_true'] at hsolid
    exact hsolid.1
  rw [indented, Blank.trimEnd_append hc hblank, Json.trimEnd_write h, ← List.append_assoc]
  rfl

/-- A comment is empty only where there is nothing to say. -/
theorem nothing_of_lines_eq_nil {d : Descriptor} {width : Int} (h : lines d width = .ok []) :
    description? d = none ∧ d.hasDefault = false := by
  rw [lines] at h
  split at h
  next hnothing =>
    simp only [Bool.and_eq_true, Option.isNone_iff_eq_none, Bool.not_eq_true'] at hnothing
    exact hnothing
  next =>
    obtain ⟨first, -, h⟩ := Outcome.bind_eq_ok_iff.mp h
    obtain ⟨second, -, hpure⟩ := Outcome.bind_eq_ok_iff.mp h
    cases hpure

/-- **The tagged lines of a comment** are those of the description and, if there is a default, one
more that tells it. -/
theorem tagged_lines {d : Descriptor} {width : Int} {ls : List Text}
    (h : lines d width = .ok ls) :
    (d.hasDefault = false ∧ tagged (ls.map indented) = describedTags d width)
      ∨ ∃ json, d.hasDefault = true ∧ defaultText d.default = .ok json
        ∧ tagged (ls.map indented) = describedTags d width ++ [tag ++ json] := by
  by_cases hne : ls = []
  · subst hne
    obtain ⟨hnone, hdefault⟩ := nothing_of_lines_eq_nil h
    refine .inl ⟨hdefault, ?_⟩
    rw [describedTags, hnone]
    rfl
  · obtain ⟨first, second, hfirst, hsecond, rfl⟩ := exists_lines_eq hne h
    have hall : tagged ((ofString "/**" :: (first ++ second) ++ [ofString " */"]).map indented)
        = describedTags d width ++ tagged (second.map indented) := by
      have hopen : tagged [indented (ofString "/**")] = [] := rfl
      have hclose : tagged [indented (ofString " */")] = [] := rfl
      rw [describedTags, hfirst]
      simp only [List.map_append, List.map_cons, List.map_nil]
      rw [← List.singleton_append, tagged_append, tagged_append, tagged_append, hopen, hclose,
        List.nil_append, List.append_nil]
    rw [hall]
    -- the line before a default, if any, is blank and has no tag
    rcases defaultLines_eq_ok hsecond with ⟨hdefault, rfl⟩ | ⟨json, hdefault, hjson, rfl⟩
    · exact .inl ⟨hdefault, List.append_nil _⟩
    · refine .inr ⟨json, hdefault, hjson, ?_⟩
      have hgap : tagged ((if (description? d).isSome then [ofString " *"] else []).map indented)
          = [] := by
        split
        · rfl
        · rfl
      have htag : tagged [tag ++ json] = [tag ++ json] :=
        List.filter_cons_of_pos (List.isPrefixOf_iff_prefix.mpr (List.prefix_append _ _))
      rw [List.map_append, tagged_append, hgap, List.map_cons, List.map_nil, indented_default hjson,
        htag, List.nil_append]

end Comment

/-! ## Lines of an interface -/

/-- The lines that show a property. -/
def Shown.lines (s : Shown) : List Text := s.comment ++ [ofString "  " ++ s.line]

/-- Whether a property shows an option. -/
inductive Shows (style : Style) : CommandOption → Shown → Prop
  | mk {command key : Text} {d : Descriptor} {comment : List Text} {line : Text}
    (hcomment : Comment.lines d style.width = .ok comment)
    (hline : Property.line style command key d = .ok line) :
    Shows style ⟨command, key, d⟩
      ⟨Interface.name command, comment.map indented, Blank.trimEnd line⟩

theorem oneLine_indented {line : Text} (h : OneLine line) : OneLine (indented line) :=
  oneLine_append.mpr ⟨by decide, Blank.oneLine_trimEnd h⟩

theorem Shows.oneLine {style : Style} {o : CommandOption} {s : Shown} (h : Shows style o s)
    (ho : InOneLine style o) : ∀ line ∈ s.lines, OneLine line := by
  obtain ⟨hcomment, hline⟩ := h
  refine List.forall_mem_append.mpr ⟨?_, List.forall_mem_singleton.mpr ?_⟩
  · intro line hmem
    obtain ⟨inner, hinner, rfl⟩ := List.mem_map.mp hmem
    exact oneLine_indented (Comment.oneLine_of_mem_lines hcomment inner hinner)
  · exact oneLine_indented (Property.oneLine_line ho hline)

theorem oneLine_of_forall₂_shows {style : Style} {options : List CommandOption}
    {shown : List Shown} (h : List.Forall₂ (Shows style) options shown)
    (hoptions : ∀ o ∈ options, InOneLine style o) :
    ∀ line ∈ shown.flatMap Shown.lines, OneLine line := by
  induction h with
  | nil => exact nofun
  | cons hs _ ih =>
    obtain ⟨ho, hoptions⟩ := List.forall_mem_cons.mp hoptions
    rw [List.flatMap_cons]
    exact List.forall_mem_append.mpr ⟨hs.oneLine ho, ih hoptions⟩

/-- A property is read off its lines, comment and all. -/
theorem Shows.outlineFrom {style : Style} {o : CommandOption} {s : Shown} (h : Shows style o s)
    (rest : List Text) : outlineFrom (Interface.name o.command) [] false (s.lines ++ rest)
      = s :: outlineFrom (Interface.name o.command) [] false rest := by
  obtain ⟨hcomment, hline⟩ := h
  rw [Shown.lines, List.append_assoc, Comment.outlineFrom_lines hcomment, List.singleton_append]
  exact outlineFrom_property (Property.indented_line_ne hline)

/-- The properties of an interface are shown one after the other. Induction on the options. -/
theorem exists_shows_of_bodyLines {style : Style} {command : Text} :
    ∀ {options : List (Text × Descriptor)} {ls : List Text},
      Interface.bodyLines style command options = .ok ls →
      ∃ shown, List.Forall₂ (Shows style) (options.map fun (key, d) => ⟨command, key, d⟩) shown
        ∧ ls.map indented = shown.flatMap Shown.lines
  | [], ls, h => by
    cases h
    exact ⟨[], .nil, rfl⟩
  | (key, d) :: options, ls, h => by
    obtain ⟨first, hfirst, h⟩ := Outcome.bind_eq_ok_iff.mp h
    obtain ⟨more, hmore, hpure⟩ := Outcome.bind_eq_ok_iff.mp h
    cases hpure
    obtain ⟨comment, hcomment, hfirst⟩ := Outcome.bind_eq_ok_iff.mp hfirst
    obtain ⟨line, hline, hpure⟩ := Outcome.bind_eq_ok_iff.mp hfirst
    cases hpure
    obtain ⟨shown, hshows, hall⟩ := exists_shows_of_bodyLines hmore
    refine ⟨_ :: shown, .cons (.mk hcomment hline) hshows, ?_⟩
    rw [List.map_append, List.map_append, hall, List.flatMap_cons]
    rfl

/-- All lines of an interface: its first one, those of its properties, and its last one. -/
def block (name : Text) (shown : List Shown) : List Text :=
  (headerStart ++ name ++ headerEnd) :: (shown.flatMap Shown.lines ++ [ofString "\x7d"])

theorem block_append (name : Text) (shown : List Shown) (rest : List Text) :
    block name shown ++ rest = (headerStart ++ name ++ headerEnd)
      :: (shown.flatMap Shown.lines ++ ofString "\x7d" :: rest) := by
  rw [block, List.cons_append, List.append_assoc _ [_] rest]
  rfl

/-- The lines of an interface that is laid out are its block. -/
theorem lines_layout {name : Text} (hname : OneLine name) {ls : List Text} {shown : List Shown}
    (hls : ls.map indented = shown.flatMap Shown.lines)
    (hbody : ∀ line ∈ shown.flatMap Shown.lines, OneLine line) (after : Text) :
    Text.lines (Interface.layout name ls ++ .char '\n' :: after)
      = block name shown ++ Text.lines after := by
  have hsplit : Interface.layout name ls ++ .char '\n' :: after
      = (headerStart ++ name ++ headerEnd) ++ .char '\n'
        :: ((ls.map indented).flatMap (· ++ [.char '\n'])
          ++ (ofString "\x7d" ++ .char '\n' :: after)) := by
    have hopen : ofString " \x7b\n" = headerEnd ++ [.char '\n'] := rfl
    simp only [Interface.layout, hopen, headerStart, List.append_assoc, List.singleton_append,
      List.flatMap_map]
    rfl
  have hheader : OneLine (headerStart ++ name ++ headerEnd) :=
    oneLine_append.mpr ⟨oneLine_append.mpr ⟨by decide, hname⟩, by decide⟩
  have hclose : OneLine (ofString "\x7d") := by decide
  rw [hsplit, hls, lines_append hheader, lines_flatMap hbody, lines_append hclose, block_append]

/-- An interface is read off its lines. -/
theorem outlineFrom_block {style : Style} {command : Text} {options : List CommandOption}
    {shown : List Shown} (hcommand : ∀ o ∈ options, o.command = command)
    (h : List.Forall₂ (Shows style) options shown) (interface : Text) (rest : List Text) :
    outlineFrom interface [] false (block (Interface.name command) shown ++ rest)
      = shown ++ outlineFrom (Interface.name command) [] false rest := by
  have hinner : outlineFrom (Interface.name command) [] false
      (shown.flatMap Shown.lines ++ ofString "\x7d" :: rest)
        = shown ++ outlineFrom (Interface.name command) [] false rest := by
    induction h with
    | nil => exact outlineFrom_other (by simp)
    | cons hs _ ih =>
      obtain ⟨rfl, hcommand⟩ := List.forall_mem_cons.mp hcommand
      rw [List.flatMap_cons, List.append_assoc, hs.outlineFrom, ih hcommand]
      rfl
  rw [block_append, outlineFrom_header, hinner]

/-! ## Lines of a text -/

/-- Whether no type that is declared for an option of a command ends a line. -/
def OneLineCommand (style : Style) (c : Command) : Prop :=
  ∀ o ∈ c.options, OneLineTypes style.typeOverrides o.2

instance (style : Style) (c : Command) : Decidable (OneLineCommand style c) :=
  inferInstanceAs (Decidable (∀ o ∈ c.options, _))

/-- Properties that show the options of a command. -/
def ShowsCommand (style : Style) (c : Command) (shown : List Shown) : Prop :=
  List.Forall₂ (Shows style) (optionsOf [c]) shown

theorem optionsOf_singleton (c : Command) :
    optionsOf [c] = c.options.map fun (key, d) => ⟨c.name, key, d⟩ := by
  simp [optionsOf]

theorem optionsOf_cons (c : Command) (commands : List Command) :
    optionsOf (c :: commands) = optionsOf [c] ++ optionsOf commands := by
  simp [optionsOf]

theorem command_of_mem_optionsOf {c : Command} {o : CommandOption} (h : o ∈ optionsOf [c]) :
    o.command = c.name := by
  rw [optionsOf_singleton] at h
  obtain ⟨_, -, rfl⟩ := List.mem_map.mp h
  rfl

/-- The lines of an interface. -/
theorem lines_render {style : Style} {c : Command} {text : Text}
    (htypes : ∀ o ∈ optionsOf [c], InOneLine style o) (h : Interface.render style c = .ok text) :
    ∃ shown, ShowsCommand style c shown ∧ ∀ after, Text.lines (text ++ .char '\n' :: after)
      = block (Interface.name c.name) shown ++ Text.lines after := by
  obtain ⟨ls, hls, hpure⟩ := Outcome.bind_eq_ok_iff.mp h
  cases hpure
  have hname : OneLine (Interface.name c.name) :=
    oneLine_append.mpr ⟨Words.oneLine_pascal c.name, by decide⟩
  obtain ⟨shown, hshows, hall⟩ := exists_shows_of_bodyLines hls
  rw [← optionsOf_singleton] at hshows
  exact ⟨shown, hshows, lines_layout hname hall (oneLine_of_forall₂_shows hshows htypes)⟩

/-- Blocks of lines, an empty line between two of them, and nothing after the last line end. -/
def separated (blocks : List (List Text)) : List Text := (blocks.intersperse [[]]).flatten ++ [[]]

/-- The blocks of commands. -/
def blocks (commands : List Command) (shown : List (List Shown)) : List (List Text) :=
  List.zipWith (fun c s => block (Interface.name c.name) s) commands shown

/-- **The lines of declarations** are those of the interfaces. Induction on the commands: what
follows an interface is an empty line and the next one, or nothing. -/
theorem lines_join {style : Style} :
    ∀ {commands : List Command} {interfaces : List Text}, commands ≠ [] →
      (∀ o ∈ optionsOf commands, InOneLine style o) →
      Interface.renderEach style commands = .ok interfaces →
      ∃ shown, List.Forall₂ (ShowsCommand style) commands shown
        ∧ Text.lines (join "\n\n" interfaces ++ "\n") = separated (blocks commands shown)
  | [], _, hne, _, _ => absurd rfl hne
  | [c], interfaces, _, htypes, h => by
    obtain ⟨first, hfirst, h⟩ := Outcome.bind_eq_ok_iff.mp h
    cases h
    obtain ⟨shown, hshows, hlines⟩ := lines_render htypes hfirst
    refine ⟨[shown], .cons hshows .nil, ?_⟩
    have hone : separated (blocks [c] [shown]) = block (Interface.name c.name) shown ++ [[]] := by
      simp [separated, blocks]
    rw [hone]
    exact hlines []
  | c :: c' :: commands, interfaces, _, htypes, h => by
    rw [optionsOf_cons, List.forall_mem_append] at htypes
    obtain ⟨hc, htypes⟩ := htypes
    obtain ⟨first, hfirst, h⟩ := Outcome.bind_eq_ok_iff.mp h
    obtain ⟨more, hmore, hpure⟩ := Outcome.bind_eq_ok_iff.mp h
    cases hpure
    obtain ⟨next, rest, rfl⟩ : ∃ next rest, more = next :: rest := by
      obtain ⟨next, -, hmore⟩ := Outcome.bind_eq_ok_iff.mp hmore
      obtain ⟨rest, -, hpure⟩ := Outcome.bind_eq_ok_iff.mp hmore
      cases hpure
      exact ⟨next, rest, rfl⟩
    -- what follows the first interface: an empty line and the others
    let others : Text := join "\n\n" (next :: rest) ++ ofString "\n"
    have hsplit : join "\n\n" (first :: next :: rest) ++ ofString "\n"
        = first ++ .char '\n' :: ([] ++ .char '\n' :: others) := by
      show first ++ ofString "\n\n" ++ join "\n\n" (next :: rest) ++ ofString "\n" = _
      rw [List.append_assoc, List.append_assoc]
      rfl
    obtain ⟨shown, hshows, hlines⟩ := lines_render hc hfirst
    obtain ⟨later, hlater, hrest⟩ := lines_join (List.cons_ne_nil _ _) htypes hmore
    refine ⟨shown :: later, .cons hshows hlater, ?_⟩
    have hmore : separated (blocks (c :: c' :: commands) (shown :: later))
        = block (Interface.name c.name) shown
          ++ [] :: separated (blocks (c' :: commands) later) := by
      obtain _ | ⟨-, -⟩ := hlater
      simp [separated, blocks]
    rw [hsplit, hlines, lines_append oneLine_nil, hrest, hmore]

/-- **Properties are read off the blocks** that show them. -/
theorem outlineFrom_separated {style : Style} {commands : List Command}
    {shown : List (List Shown)} (h : List.Forall₂ (ShowsCommand style) commands shown)
    (interface : Text) :
    outlineFrom interface [] false (separated (blocks commands shown)) = shown.flatten := by
  induction h generalizing interface with
  | nil => rfl
  | @cons c s commands shown hs hrest ih =>
    have hblock := outlineFrom_block (fun o => command_of_mem_optionsOf) hs interface
    cases hrest with
    -- the last block has no blank line after it but the end of the text
    | nil =>
      have hone : separated (blocks [c] [s]) = block (Interface.name c.name) s ++ [[]] := by
        simp [separated, blocks]
      rw [hone, hblock]
      rfl
    | @cons c' s' commands shown hs' hrest =>
      have hmore : separated (blocks (c :: c' :: commands) (s :: s' :: shown))
          = block (Interface.name c.name) s
            ++ [] :: separated (blocks (c' :: commands) (s' :: shown)) := by
        simp [separated, blocks]
      rw [hmore, hblock, outlineFrom_other (by simp), ih]
      rfl

/-- What is shown interface by interface is shown option by option. -/
theorem forall₂_shows {style : Style} {commands : List Command} {shown : List (List Shown)}
    (h : List.Forall₂ (ShowsCommand style) commands shown) :
    List.Forall₂ (Shows style) (optionsOf commands) shown.flatten := by
  induction h with
  | nil => exact .nil
  | cons hs _ ih =>
    rw [optionsOf_cons, List.flatten_cons]
    exact List.rel_append hs ih

theorem inOneLine_of_oneLineCommand {style : Style} {commands : List Command}
    (h : ∀ c ∈ commands, OneLineCommand style c) : ∀ o ∈ optionsOf commands, InOneLine style o := by
  intro o ho
  obtain ⟨c, hc, ho⟩ := List.mem_flatMap.mp ho
  obtain ⟨⟨key, d⟩, hmem, rfl⟩ := List.mem_map.mp ho
  exact (h c hc (key, d) hmem).inOneLine c.name key

/-- **The outline of declarations** shows the options of all commands, in order. -/
theorem shows_outline {style : Style} {commands : List Command} {text : Text}
    (htypes : ∀ c ∈ commands, OneLineCommand style c) (h : renderAll style commands = .ok text) :
    List.Forall₂ (Shows style) (optionsOf commands) (outline text) := by
  obtain ⟨interfaces, hinterfaces, hpure⟩ := Outcome.bind_eq_ok_iff.mp h
  cases hpure
  have hoptions := inOneLine_of_oneLineCommand htypes
  by_cases hne : commands = []
  · subst hne
    cases hinterfaces
    exact .nil
  · obtain ⟨shown, hshows, hlines⟩ := lines_join hne hoptions hinterfaces
    rw [outline, hlines, outlineFrom_separated hshows]
    exact forall₂_shows hshows

end Declaration

end OptionTypes
