import OptionTypes.Json.Reader
import OptionTypes.Proofs.Declaration.Outline
import OptionTypes.Proofs.Json.RoundTrip
import OptionTypes.Proofs.Run.Output

/-!
# Tables agree with declarations

A table tells of the same options as declarations do, in the same order: a record of the table says
what the line of a property says, and its default is the one in the comment before that line. A
comment may show more defaults than one, though: a description can have lines that look like them.

* `Run.Row` is a row of a table by its columns, and `Row.record` the object that stands for it.
* `Run.Agrees` compares a row with a property of declarations.
* `CommandLine.records_agree` is about two runs, one for a table and one for declarations.
-/

namespace OptionTypes

open Text

/-- Lists of one length, with a relation between what stands at each place. -/
inductive Aligned {α β γ : Type} (R : α → β → γ → Prop) : List α → List β → List γ → Prop
  | nil : Aligned R [] [] []
  | cons {a : α} {b : β} {c : γ} {as : List α} {bs : List β} {cs : List γ} (h : R a b c)
    (hrest : Aligned R as bs cs) : Aligned R (a :: as) (b :: bs) (c :: cs)

/-- Two lists that match a third one are aligned with it. -/
theorem Aligned.of_forall₂ {α β γ : Type} {P : α → β → Prop} {Q : α → γ → Prop}
    {R : α → β → γ → Prop} (hR : ∀ a b c, P a b → Q a c → R a b c) {as : List α} {bs : List β}
    {cs : List γ} (hP : List.Forall₂ P as bs) (hQ : List.Forall₂ Q as cs) : Aligned R as bs cs := by
  induction hP generalizing cs with
  | nil =>
    cases hQ
    exact .nil
  | cons hab _ ih =>
    obtain _ | ⟨hac, hQ⟩ := hQ
    exact .cons (hR _ _ _ hab hac) (ih hQ)

namespace Run

open Declaration Report

/-! ## Rows -/

/-- A row of a table of options. -/
structure Row where
  command : Text
  option : Text
  property : Text
  type : Text
  required : Text
  default : Text

namespace Row

/-- The cells of a row, one for each header. -/
def cells (r : Row) : List Text := [r.command, r.option, r.property, r.type, r.required, r.default]

/-- The object that stands for a row. -/
def record (r : Row) : Value :=
  .record [("Command", .text r.command), ("Option", .text r.option), ("Property", .text r.property),
    ("Type", .text r.type), ("Required", .text r.required), ("Default", .text r.default)]

/-- A record holds texts only. -/
theorem isPlain_record (r : Row) : Json.IsPlain r.record := by
  refine ⟨?_, rfl⟩
  simp [Json.ArePlainMembers, Json.IsPlain]

end Row

/-- The objects of a table are the records of its rows: the headers are different from each other,
so each cell has its own member. -/
theorem records_cells (rows : List Row) :
    Settings.records headers (rows.map Row.cells) = .list (rows.map Row.record) := by
  rw [Settings.records, List.map_map]
  rfl

/-- A table of records holds lists, objects and texts only. Induction on the rows. -/
theorem isPlain_records (rows : List Row) : Json.IsPlain (.list (rows.map Row.record)) := by
  rw [Json.IsPlain]
  induction rows with
  | nil => exact trivial
  | cons r rows ih => exact ⟨r.isPlain_record, ih⟩

/-- There are no numbers in a table, and so none that is too long. -/
theorem areShort_records (rows : List Row) :
    Json.AreShort (Json.integers (.list (rows.map Row.record))) := by
  have hnone : Json.integersOfItems (rows.map Row.record) = [] := by
    induction rows with
    | nil => rfl
    | cons r rows ih => exact ih
  rw [Json.integers, hnone]
  exact List.forall_mem_nil _

/-- The table of some rows as JSON is read as their records, whether or not a line end was added.
Reading undoes writing for such values (`Json.exists_write_read`), with blanks after the text
allowed. -/
theorem read_table {s : Settings} (hform : s.form = .json) {rows : List Row} {title : Option Text}
    {text : Text} (h : s.table headers (rows.map Row.cells) title = .ok text) :
    Json.read text = .ok (.list (rows.map Row.record)) := by
  obtain ⟨pieces, hpieces, rfl⟩ := Outcome.map_eq_ok_iff.mp h
  rw [Settings.pieces, hform, records_cells] at hpieces
  obtain ⟨json, hjson, rfl⟩ := Outcome.map_eq_ok_iff.mp hpieces
  rw [List.flatten_singleton]
  have hread : ∀ blanks : Text, (∀ c ∈ blanks, Json.Place.isBlank c = true) →
      Json.read (json ++ blanks) = .ok (.list (rows.map Row.record)) := by
    intro blanks hblanks
    obtain ⟨json', hjson', hread⟩ := Json.exists_write_read Json.readable_indented
      (isPlain_records rows) (areShort_records rows) hblanks
    obtain rfl : json = json' := Except.ok.inj (hjson.symm.trans hjson')
    exact hread
  -- the layout ends no line after the last bracket; a line end is added then
  rw [Settings.data]
  split
  · have hnone := hread [] (by simp)
    rwa [List.append_nil] at hnone
  · exact hread (ofString "\n") (by decide)

/-! ## Rows and options -/

/-- Whether a row tells of an option. -/
structure Lists (style : Style) (o : CommandOption) (r : Row) : Prop where
  command : r.command = o.command
  option : r.option = o.key
  property : r.property = Property.name o.key o.descriptor style.preferredNames
  type : Property.type o.command o.key o.descriptor style.typeOverrides = .ok r.type
  required : r.required = if Property.isRequired o.descriptor then ofString "Yes" else []
  default : (o.descriptor.hasDefault = false ∧ r.default = "-")
    ∨ o.descriptor.hasDefault = true ∧ Comment.defaultText o.descriptor.default = .ok r.default

/-- The line of an option is a row that tells of it, with a dash where it has no default. -/
theorem exists_of_row {style : Style} {o : CommandOption} {line : List Text}
    (h : row style o.command o.key o.descriptor = .ok line) :
    ∃ r, line = Row.cells r ∧ Lists style o r := by
  obtain ⟨type, htype, h⟩ := Outcome.bind_eq_ok_iff.mp h
  extract_lets finish at h
  split at h
  next hhas =>
    obtain ⟨default, hdefault, hpure⟩ := Outcome.bind_eq_ok_iff.mp h
    cases hpure
    exact ⟨⟨o.command, o.key, _, type, _, default⟩, rfl,
      rfl, rfl, rfl, htype, rfl, .inr ⟨hhas, hdefault⟩⟩
  next hnot =>
    cases h
    exact ⟨⟨o.command, o.key, _, type, _, _⟩, rfl,
      rfl, rfl, rfl, htype, rfl, .inl ⟨Bool.eq_false_iff.mpr hnot, rfl⟩⟩

/-- The lines of a table are those for all options of the commands. Induction on the commands, whose
lines are appended as their options are. -/
theorem forall₂_of_rows {style : Style} {commands : List Command} {lines : List (List Text)}
    (h : rows style commands = .ok lines) :
    List.Forall₂ (fun o line => row style o.command o.key o.descriptor = .ok line)
      (optionsOf commands) lines := by
  induction commands generalizing lines with
  | nil =>
    cases h
    exact .nil
  | cons c commands ih =>
    obtain ⟨first, hfirst, h⟩ := Outcome.bind_eq_ok_iff.mp h
    obtain ⟨more, hmore, hpure⟩ := Outcome.bind_eq_ok_iff.mp h
    cases hpure
    rw [optionsOf, List.flatMap_cons]
    refine List.rel_append ?_ (ih hmore)
    rw [List.forall₂_map_left_iff]
    exact Outcome.mapM_eq_ok_iff.mp hfirst

/-- **The rows of a table** tell of the options of all commands, in order. -/
theorem exists_rows {style : Style} {commands : List Command} {lines : List (List Text)}
    (h : rows style commands = .ok lines) :
    ∃ rows, lines = rows.map Row.cells ∧ List.Forall₂ (Lists style) (optionsOf commands) rows := by
  have hall := forall₂_of_rows h
  generalize optionsOf commands = options at hall
  clear h
  induction hall with
  | nil => exact ⟨[], rfl, .nil⟩
  | cons hline _ ih =>
    obtain ⟨r, rfl, hr⟩ := exists_of_row hline
    obtain ⟨rest, rfl, hrest⟩ := ih
    exact ⟨r :: rest, rfl, .cons hr hrest⟩

/-! ## Rows and properties -/

/-- Whether a row says of an option what declarations show of it. There may be tagged lines in the
comment which have nothing to do with a default. -/
structure Agrees (others : List Text) (o : CommandOption) (r : Row) (s : Shown) : Prop where
  command : r.command = o.command
  option : r.option = o.key
  interface : s.interface = Interface.name r.command
  line : s.line = Blank.trimEnd
    (r.property ++ ofString (if r.required = "Yes" then "" else "?") ++ ofString ": " ++ r.type)
  default : Comment.tagged s.comment
    = others ++ if r.default = "-" then [] else [Comment.tag ++ r.default]

/-- A default is never taken for none. -/
theorem defaultText_ne {v : Value} {t : Text} (h : Comment.defaultText v = .ok t) :
    t ≠ ofString "-" := by
  rintro rfl
  obtain ⟨c, hc, hsolid⟩ := Json.exists_solid_write h
  obtain rfl := List.mem_singleton.mp hc
  cases hsolid

/-- A row and a property that tell of the same option agree. The line is put together from the same
name, mark and type, and the comment shows the same default after the tags of the description. -/
theorem Lists.agrees {style : Style} {o : CommandOption} {r : Row} {s : Shown}
    (hr : Lists style o r) (hs : Shows style o s) :
    Agrees (Comment.describedTags o.descriptor style.width) o r s := by
  obtain @⟨command, key, d, comment, line, hcomment, hline⟩ := hs
  refine ⟨hr.command, hr.option, by rw [hr.command], ?_, ?_⟩
  · obtain ⟨t, ht, rfl⟩ := Property.line_eq_ok_iff.mp hline
    obtain rfl : t = r.type := Except.ok.inj (ht.symm.trans hr.type)
    have hmark : ofString (if r.required = "Yes" then "" else "?") ++ ofString ": "
        = Property.mark d := by
      rw [hr.required, Property.mark]
      cases Property.isRequired d with
      | true => rfl
      | false => rfl
    rw [hr.property, List.append_assoc, List.append_assoc, ← List.append_assoc (ofString _), hmark]
  · -- a row and a comment ask for a default alike, so only two of the four cases occur
    rcases hr.default with ⟨hnone, hdefault⟩ | ⟨hsome, hdefault⟩
    · rcases Comment.tagged_lines hcomment with ⟨-, htagged⟩ | ⟨json, hhas, -, -⟩
      · rw [htagged, if_pos hdefault, List.append_nil]
      · rw [hnone] at hhas
        cases hhas
    · rcases Comment.tagged_lines hcomment with ⟨hnone, -⟩ | ⟨json, -, hjson, htagged⟩
      · rw [hnone] at hsome
        cases hsome
      · obtain rfl : json = r.default := Except.ok.inj (hjson.symm.trans hdefault)
        rw [htagged, if_neg (defaultText_ne hjson)]

/-! ## What a run finds, computed -/

/-- The configuration of a run and the commands that it finds. -/
def found? (w : World) (t : Task) (names : Config → List Text) : Option (Config × List Command) :=
  do
    let config ← (configOf w t).toOption
    let source ← (sourceOf w config (Blank.trim t.version) t.sourceFile).toOption
    let found ← (commandsOf config (names config) source).toOption
    return (config, found)

/-- What a run finds is what is computed here. -/
theorem Finds.found?_eq {w : World} {t : Task} {names : Config → List Text} {config : Config}
    {found : List Command} (h : Finds w t names config found) :
    found? w t names = some (config, found) := by
  obtain ⟨source, hsource, hfound⟩ := h.found_eq
  rw [found?, h.config_eq]
  simp only [Except.toOption, Option.bind_eq_bind, Option.bind_some, hsource, hfound]
  rfl

end Run

/-! ## Runs -/

namespace CommandLine

open Declaration Run Report

variable {w : World} {listing declaring : List Text} {output : Option Text} {task task' : Task}

/-- Whether arguments ask for a table of the options of all commands as JSON. -/
def AsksForRecords (arguments : List Text) (task : Task) : Prop :=
  ∃ flags, flags.form = some .json ∧ parse arguments = .ok (.perform flags (.inspect none) task)

/-- Whether a run for a table and a run for declarations can be compared: they have the same
configuration and source, both succeed, and no type that is declared anywhere ends a line. -/
structure Comparable (w : World) (listing declaring : List Text) (output : Option Text)
    (task task' : Task) : Prop where
  records : AsksForRecords listing task
  declarations : AsksFor declaring output task'
  alike : Alike w task task'
  lists : (runIn w listing).1 = success
  declares : (runIn w declaring).1 = success
  oneLine : ∀ config found, Finds w task Config.commands config found →
    ∀ c ∈ found, OneLineCommand (.ofConfig config) c

/-- Whether the records that one run leaves agree with the declarations that another run leaves, one
by one: for each option of all commands of the configuration there is a record and a property. -/
def Agreement (others : Config → CommandOption → List Text) (w : World)
    (listing declaring : List Text) (output : Option Text) (task : Task) : Prop :=
  ∃ json text config found rows,
    (runIn w listing).2.output .results = w.output .results ++ json
      ∧ Leaves w (runIn w declaring).2 output text
      ∧ Finds w task Config.commands config found ∧ found.map Command.name = config.commands
      ∧ Json.read json = .ok (.list (rows.map Row.record))
      ∧ Aligned (fun o => Agrees (others config o) o) (optionsOf found) rows (outline text)

/-- The tagged lines that come with the description of an option. -/
def describedIn (config : Config) (o : CommandOption) : List Text :=
  Comment.describedTags o.descriptor config.wrapWidth

/-- **Records agree with declarations.** The records that a run lists are those of the options which
another run declares, in order. The default of a record is in the last tagged line of the comment,
and the tagged lines before that are those of the description; a record without a default has no
tagged line of its own.

Both runs find the same commands (`Finds.unique`). The rows of the one list their options
(`exists_rows`), the outline of the other shows them (`shows_outline`), and an option is compared
with itself. -/
theorem records_agree (h : Comparable w listing declaring output task task') :
    Agreement describedIn w listing declaring output task := by
  obtain ⟨flags, hform, hlisting⟩ := h.records
  obtain ⟨flags', debug, hdeclaring⟩ := h.declarations
  rcases ensures_perform_inspect hlisting w with ⟨-, -, json, htable, hjson⟩ | ⟨hfailure, -⟩
  · rcases ensures_perform_generate hdeclaring w with ⟨-, text, htext, hleaves⟩ | ⟨hfailure, -⟩
    · obtain ⟨config, found, lines, hfinds, hlines, htable⟩ := htable
      -- both runs find the same script under the same settings
      obtain ⟨config', found', hfinds', htext⟩ := htext
      obtain ⟨rfl, rfl⟩ := hfinds.unique hfinds' h.alike
      obtain ⟨rows, rfl, hrows⟩ := exists_rows hlines
      have hsettings : (settingsIn flags w).form = .json := by
        show flags.form.getD _ = _
        rw [hform]
        rfl
      -- the lines of the declarations, read back one by one
      have hshows := shows_outline (h.oneLine config found hfinds) htext
      exact ⟨json, text, config, found, rows, hjson, hleaves, hfinds, hfinds.names_eq,
        read_table hsettings htable,
        .of_forall₂ (fun _ _ _ hr hs => hr.agrees hs) hrows hshows⟩
    · exact absurd h.declares hfailure
  · exact absurd h.lists hfailure

/-- A source that describes an option by a line that looks like a default, and another option that
has a default. -/
def taggedSource : String :=
  "p.command('run', d, h, \x7ba: \x7bdescribe: '@default 5'\x7d, b: \x7bdefault: 1\x7d\x7d)"

def taggedDescription : World := worldWith [("p.js", taggedSource)]

/-- The run for a table. -/
def asRecords : List Text :=
  ["--json", "inspect", "8.3.0", "--source", "p.js"].map Text.ofString

/-- The run for declarations. -/
def asDeclarations : List Text := ["generate", "8.3.0", "--source", "p.js"].map Text.ofString

/-- What both runs work on. -/
def onSource : Task := ⟨"8.3.0", none, some "p.js"⟩

/-- The default of the first record in JSON. -/
def firstDefault? (json : Text) : Option Text :=
  match Json.read json with
  | .ok (.list (.object members :: _)) => (Members.find? "Default" members).bind text?
  | _ => none

/-- The run for a table shows no default for the first option. -/
theorem asRecords_taggedDescription : (runIn taggedDescription asRecords).1 = success
    ∧ firstDefault? ((runIn taggedDescription asRecords).2.output .results)
      = some (ofString "-") := by decide +kernel

/-- The run for declarations shows a tagged line for it, from its description. -/
theorem asDeclarations_taggedDescription : (runIn taggedDescription asDeclarations).1 = success
    ∧ (outline ((runIn taggedDescription asDeclarations).2.output .results)).head?.map
      (Comment.tagged ·.comment) = some [ofString "   * @default 5"] := by decide +kernel

/-- The two runs are comparable. -/
theorem comparable_taggedDescription :
    Comparable taggedDescription asRecords asDeclarations none onSource onSource where
  records := ⟨⟨some .json, false, false, false⟩, rfl, by decide +kernel⟩
  declarations := ⟨⟨none, false, false, false⟩, false, by decide +kernel⟩
  alike := Agree.alike ⟨rfl, rfl, fun _ => rfl⟩ _
  lists := asRecords_taggedDescription.1
  declares := asDeclarations_taggedDescription.1
  oneLine config found hfinds := by
    have hall : ∀ p ∈ found? taggedDescription onSource Config.commands,
        ∀ c ∈ p.2, OneLineCommand (.ofConfig p.1) c := by decide +kernel
    exact hall _ hfinds.found?_eq

/-- The tagged line of the first option is set apart as one of its description. -/
theorem records_agree_taggedDescription :
    Agreement describedIn taggedDescription asRecords asDeclarations none onSource :=
  records_agree comparable_taggedDescription

/-- A record may have no default where the comment shows one: the description brings it. -/
theorem not_forall_default_iff_tagged : ¬ ∀ w listing declaring output task task',
    Comparable w listing declaring output task task' →
      Agreement (fun _ _ => []) w listing declaring output task := by
  intro hall
  obtain ⟨json, text, config, found, rows, hjson, htext, -, -, hread, haligned⟩ :=
    hall _ _ _ _ _ _ comparable_taggedDescription
  obtain rfl : (runIn taggedDescription asRecords).2.output .results = json := hjson
  obtain rfl : (runIn taggedDescription asDeclarations).2.output .results = text := htext
  have hshown := asDeclarations_taggedDescription.2
  -- the first option has no default, yet there is a tagged line in its comment
  generalize outline _ = shown at haligned hshown
  generalize optionsOf found = options at haligned
  cases haligned with
  | nil => cases hshown
  | @cons _ r s _ _ _ hagrees _ =>
    have hdefault := asRecords_taggedDescription.2
    rw [firstDefault?, hread] at hdefault
    have hnone : r.default = ofString "-" := Option.some.inj hdefault
    have htagged : Comment.tagged s.comment = [] := by
      rw [hagrees.default, if_pos hnone]
      rfl
    rw [List.head?_cons, Option.map_some, htagged] at hshown
    cases hshown

end CommandLine

end OptionTypes
