import OptionTypes.Proofs.Run.Endings

/-!
# What runs leave behind

The output of a run is its result and nothing else. No file is changed for a run that fails but
by-products: intermediate results, which are kept on demand, and the log of a failure that was not
foreseen; and such a run has no result, unless it is one for a table that the stream of results
refuses on the way. A run that succeeds has a result that depends on its source and its
configuration alone.

* `CommandLine.failure_leaves_byProducts` is about runs that fail, at whatever point.
* `CommandLine.declarations_depend_on_source` is about two runs that succeed.
-/

namespace OptionTypes.CommandLine

open World Run Report

deriving instance DecidableEq for Flags, Run.Task, Action, Invocation

variable {w w' : World} {arguments : List Text} {flags : Flags} {task : Task}

/-- A world that holds some files and whose results are in UTF-8, for examples. -/
def worldWith (files : List (String × String)) : World where
  store := ⟨files.map fun (name, content) =>
    ([Text.ofString name], .file (Utf8.encode content.toList))⟩
  directory := []
  home := ⟨[Path.separator], []⟩
  environment := []
  hasDataConvention := true
  timestamp := "20240101-000000"
  isTerminal := false
  charset := .utf8
  response := .failure "unreachable"
  requests := []
  written := []

/-! ## Runs that fail -/

/-- Whether a path leads to a location. -/
def Leads (w : World) (p : Path) (l : Location) : Prop := w.store.locate w.directory p = .ok l

/-- Whether a location is that of an intermediate result which arguments ask a run to keep. -/
def IsArtifact (w w' : World) (arguments : List Text) (l : Location) : Prop :=
  ∃ flags output task config, parse arguments = .ok (.perform flags (.generate true output) task)
    ∧ configOf w task = .ok config
    ∧ ∃ file ∈ [originalFile, strippedFile, treeFile],
        Leads w' ((Path.ofText config.debugDir).child file) l

/-- Whether arguments ask for a table. -/
def AsksForTable (arguments : List Text) : Prop :=
  ∃ flags command task, parse arguments = .ok (.perform flags (.inspect command) task)

/-- Whether a run has written no result, unless it is one for a table, and has changed no file but
by-products. -/
structure LeavesByProducts (w w' : World) (arguments : List Text) : Prop where
  results : ¬AsksForTable arguments → w'.output .results = w.output .results
  files : ∀ l, w'.store.fileAt? l ≠ w.store.fileAt? l →
    IsArtifact w w' arguments l ∨ Leads w' (crashLog w) l

/-- Where a path of a by-product leads to is the location of a by-product. The bound on a failed run
is a list of paths; a file that has changed is where one of them leads, either the log or one of the
files for intermediate results, and those are only in the list if they are asked for. -/
theorem leavesByProducts_of_touched {debug : Bool} {output : Option Text}
    (hparse : parse arguments = .ok (.perform flags (.generate debug output) task))
    (h : Touched (crashLog w :: keptBy w task debug) w w') : LeavesByProducts w w' arguments := by
  refine ⟨fun _ => h.results, fun l hl => ?_⟩
  obtain ⟨p, hp, hlocate⟩ := h.files l hl
  rcases List.mem_cons.mp hp with rfl | hkept
  · exact .inr hlocate
  · obtain ⟨rfl, config, hconfig, hartifact⟩ := mem_keptBy_iff.mp hkept
    obtain ⟨file, hfile, rfl⟩ := List.mem_map.mp hartifact
    exact .inl ⟨flags, output, task, config, hparse, hconfig, file, hfile, hlocate⟩

/-- A run for a table keeps nothing, so the only file that it may change is the log of its
failure. -/
theorem inspect_changes_log {command : Option Text} {l : Location}
    (hparse : parse arguments = .ok (.perform flags (.inspect command) task))
    (hl : (runIn w arguments).2.store.fileAt? l ≠ w.store.fileAt? l) :
    Leads (runIn w arguments).2 (crashLog w) l := by
  rcases ensures_perform_inspect hparse w with ⟨-, hsame, -⟩ | ⟨-, haltered, -⟩
  · exact absurd (hsame l) hl
  · obtain ⟨p, hp, hlocate⟩ := haltered.files l hl
    obtain rfl := List.mem_singleton.mp hp
    exact hlocate

/-- **A run that fails leaves no result.** Whatever the world and the arguments are, the encoding of
the stream of results among them, a run for declarations with another exit code than that of a
success writes nothing to the results, and every file that it creates or changes is an intermediate
result that it was asked to keep, or a log. A run for a table changes no file but a log, whether it
succeeds or not.

Each stage is bounded on its own by the paths that it may write to (`ensures_generate`,
`ensures_inspect`), and explaining a failure adds the path of the log; here the cases are what the
arguments ask for. -/
theorem failure_leaves_byProducts (w : World) (arguments : List Text) :
    ((runIn w arguments).1 ≠ success → LeavesByProducts w (runIn w arguments).2 arguments)
      ∧ ∀ flags command task, parse arguments = .ok (.perform flags (.inspect command) task) →
        ∀ l, (runIn w arguments).2.store.fileAt? l ≠ w.store.fileAt? l →
          Leads (runIn w arguments).2 (crashLog w) l := by
  refine ⟨fun hcode => ?_, fun _ _ _ hparse _ hl => inspect_changes_log hparse hl⟩
  cases hparse : parse arguments with
  | error e =>
    obtain ⟨-, htouched⟩ := ensures_misuse hparse w
    exact ⟨fun _ => htouched.results, fun l hl => absurd (htouched.fileAt?_eq l) hl⟩
  | ok invocation =>
    cases invocation with
    | version => exact absurd (ensures_version hparse w).1 hcode
    | help => exact absurd (ensures_help hparse w).1 hcode
    | perform flags action task =>
      cases action with
      | generate debug output =>
        rcases ensures_perform_generate hparse w with ⟨hsuccess, -⟩ | ⟨-, htouched⟩
        · -- a run that generates fails before it writes the result, or in writing it
          exact absurd hsuccess hcode
        · exact leavesByProducts_of_touched hparse htouched
      | inspect command =>
        -- a run that lists writes no file but the log, whatever becomes of its table
        have hasks : AsksForTable arguments := ⟨flags, command, task, hparse⟩
        exact ⟨fun hnot => absurd hasks hnot, fun l hl => .inr (inspect_changes_log hparse hl)⟩

/-- A world whose source is not a script, and which holds declarations. -/
def brokenSource : World := worldWith [("p.js", "let = ;\n"), ("out.d.ts", "export \x7b\x7d\n")]

/-- The run that is asked to replace the declarations, and to keep intermediate results. -/
def replacing : List Text :=
  ["generate", "8.3.0", "--debug", "--source", "p.js", "-o", "out.d.ts"].map Text.ofString

/-- A world whose source describes an option by a lone surrogate, which the results cannot hold. -/
def strayDescription : World :=
  worldWith [("p.js", "p.command('run', d, h, \x7ba: \x7bdescribe: '\\ud83d'\x7d\x7d)\n")]

/-- The run that writes declarations to the results. -/
def presenting : List Text := ["generate", "8.3.0", "--source", "p.js"].map Text.ofString

/-- One run fails while it reads its source, another one when all is done but for the last write. -/
theorem failure_leaves_byProducts_brokenSource :
    ((runIn brokenSource replacing).1 ≠ success
      ∧ LeavesByProducts brokenSource (runIn brokenSource replacing).2 replacing)
    ∧ (runIn strayDescription presenting).1 ≠ success
      ∧ LeavesByProducts strayDescription (runIn strayDescription presenting).2 presenting := by
  have hbroken : (runIn brokenSource replacing).1 ≠ success := by decide +kernel
  have hstray : (runIn strayDescription presenting).1 ≠ success := by decide +kernel
  exact ⟨⟨hbroken, (failure_leaves_byProducts brokenSource replacing).1 hbroken⟩,
    hstray, (failure_leaves_byProducts strayDescription presenting).1 hstray⟩

/-! ## Runs that succeed -/

/-- Whether a text is a result that arguments ask for: what goes to the results of a run besides
nothing at all. -/
def IsResult (w : World) (arguments : List Text) (text : Text) : Prop :=
  match parse arguments with
  | .error _ => False
  | .ok .version => text = versionLine
  | .ok .help => text = usage
  | .ok (.perform _ (.generate _ output) task) => output = none ∧ Declares w task text
  | .ok (.perform flags (.inspect command) task) =>
    Tabulates (settingsIn flags w) w task command text

/-- Whether a run has written nothing to the results but a result as a whole, or the beginning of a
table where the stream refuses what comes next and the run fails. -/
def WritesResult (w : World) (arguments : List Text) : Prop :=
  (runIn w arguments).2.output .results = w.output .results
    ∨ (∃ text, IsResult w arguments text
      ∧ (runIn w arguments).2.output .results = w.output .results ++ text)
    ∨ (runIn w arguments).1 ≠ success ∧ AsksForTable arguments
      ∧ ∃ text told, IsResult w arguments text ∧ told <+: text
        ∧ (runIn w arguments).2.output .results = w.output .results ++ told

/-- What a run writes to the results is a result; messages go elsewhere. One case for each thing
that arguments may ask for. -/
theorem writesResult (w : World) (arguments : List Text) : WritesResult w arguments := by
  unfold WritesResult IsResult
  -- one case for each way in which the arguments can be understood
  cases hparse : parse arguments with
  | error e => exact .inl (ensures_misuse hparse w).2.results
  | ok invocation =>
    cases invocation with
    | version => exact .inr (.inl ⟨versionLine, rfl, (ensures_version hparse w).2⟩)
    | help => exact .inr (.inl ⟨usage, rfl, (ensures_help hparse w).2⟩)
    | perform flags action task =>
      cases action with
      | generate debug output =>
        -- a file takes the text where one is asked for, and otherwise the stream does
        rcases ensures_perform_generate hparse w with ⟨-, text, htext, hleaves⟩ | ⟨-, htouched⟩
        · cases output with
          | none => exact .inr (.inl ⟨text, ⟨rfl, htext⟩, hleaves⟩)
          | some path => exact .inl hleaves.1
        · exact .inl htouched.results
      | inspect command =>
        rcases ensures_perform_inspect hparse w with
          ⟨-, -, text, htext, hout⟩ | ⟨hcode, -, told, htold, rfl | ⟨text, htext, hprefix⟩⟩
        · exact .inr (.inl ⟨text, htext, hout⟩)
        · exact .inl (htold.trans (List.append_nil _))
        · exact .inr (.inr ⟨hcode, ⟨flags, command, task, hparse⟩, text, told, htext, hprefix,
            htold⟩)

/-- The configuration comes right after a version that is not blank. -/
theorem prepare_of_ne_nil {t : Task} (h : Blank.trim t.version ≠ []) :
    (prepare t : ExceptT RunError (StateM World) (Config × Text)) =
      step .config (Resolution.resolve t.configFile) >>= fun config =>
        pure (config, Blank.trim t.version) := by
  have hfilled : (Blank.trim t.version).isEmpty = false := by simpa using h
  unfold prepare
  simp only [hfilled, Bool.false_eq_true, if_false]

/-- The version is not looked at where the source is in a file, as long as it is not blank. -/
theorem generate_eq_of_source (s : Settings) (debug : Bool) (output : Option Text) {t t' : Task}
    {path : Text} (hconfig : t.configFile = t'.configFile) (hsource : t.sourceFile = some path)
    (hsource' : t'.sourceFile = some path) (hversion : Blank.trim t.version ≠ [])
    (hversion' : Blank.trim t'.version ≠ []) :
    (generate s t debug output : ExceptT RunError (StateM World) Unit)
      = generate s t' debug output := by
  have hdeclarations : (declarations s t debug : ExceptT RunError (StateM World) Text)
      = declarations s t' debug := by
    rw [declarations, declarations, prepare_of_ne_nil hversion, prepare_of_ne_nil hversion',
      hconfig, hsource, hsource']
    simp only [bind_assoc, pure_bind]
    -- what is left of the version is an argument that is not used
    rfl
  rw [generate, generate, hdeclarations]

/-- Whether arguments ask for declarations, in a file or not, for a source and a configuration. -/
def AsksFor (arguments : List Text) (output : Option Text) (task : Task) : Prop :=
  ∃ flags debug, parse arguments = .ok (.perform flags (.generate debug output) task)

/-- **Declarations depend on the source and the configuration.** Two runs that are asked for the
same and succeed leave the same text, however they report, whatever they keep, and wherever it goes.
With a source in a file, a run is the same for every version that is not blank. And whatever
arguments are given, what goes to the results is a result, or the beginning of a table that the
stream refuses on the way: messages never do.

A run that succeeds has found the source, the configuration and the commands (`Finds`), which there
is one way to do (`Finds.unique`); how it reports matters to none of them. -/
theorem declarations_depend_on_source (w : World) :
    (∀ arguments arguments' output output' task task',
      AsksFor arguments output task → AsksFor arguments' output' task' → Agree task task' →
      (runIn w arguments).1 = success → (runIn w arguments').1 = success →
      ∃ text, Leaves w (runIn w arguments).2 output text
        ∧ Leaves w (runIn w arguments').2 output' text)
    ∧ (∀ arguments arguments' flags debug output version version' configFile path,
      parse arguments = .ok (.perform flags (.generate debug output)
        ⟨version, configFile, some path⟩) →
      parse arguments' = .ok (.perform flags (.generate debug output)
        ⟨version', configFile, some path⟩) →
      Blank.trim version ≠ [] → Blank.trim version' ≠ [] →
      runIn w arguments = runIn w arguments')
    ∧ ∀ arguments, WritesResult w arguments := by
  refine ⟨?_, ?_, writesResult w⟩
  · rintro arguments arguments' output output' task task' ⟨flags, debug, hparse⟩
      ⟨flags', debug', hparse'⟩ hagree hsuccess hsuccess'
    rcases ensures_perform_generate hparse w with ⟨-, text, htext, hleaves⟩ | ⟨hfailure, -⟩
    · rcases ensures_perform_generate hparse' w with ⟨-, text', htext', hleaves'⟩ | ⟨hfailure, -⟩
      · obtain rfl := htext.unique htext' (hagree.alike w)
        exact ⟨text, hleaves, hleaves'⟩
      · -- the second run fails, then the first one, which are both said to succeed
        exact absurd hsuccess' hfailure
    · exact absurd hsuccess hfailure
  · intro arguments arguments' flags debug output version version' configFile path hparse hparse'
      hversion hversion'
    -- the version only says where to fetch the source, and a file is given
    rw [runIn, runIn, run, run, hparse, hparse']
    have heq : ∀ s, (perform s (.generate debug output) ⟨version, configFile, some path⟩ :
        ExceptT RunError (StateM World) Unit)
          = perform s (.generate debug output) ⟨version', configFile, some path⟩ :=
      fun s => generate_eq_of_source s debug output rfl rfl rfl hversion hversion'
    simp only [heq]

/-- A world with a source that registers one option. -/
def oneOption : World :=
  worldWith [("p.js", "p.command('run', d, h, \x7ba: \x7bdescribe: 'An option'\x7d\x7d);\n")]

/-- The run that tells as little as it can, to the stream of results. -/
def quietly : List Text := ["--quiet", "generate", "8.3.0", "--source", "p.js"].map Text.ofString

/-- The run that tells as much as it can, and writes a file. -/
def verbosely : List Text :=
  ["--verbose", "--json", "--no-color", "generate", "9.9", "--source", "p.js", "-o", "out.d.ts"].map
    Text.ofString

/-- The two runs differ in everything that must not matter: in what they tell, in the version, and
in where the text goes. -/
theorem declarations_depend_on_source_oneOption :
    ∃ text, Leaves oneOption (runIn oneOption quietly).2 none text
      ∧ Leaves oneOption (runIn oneOption verbosely).2 (some "out.d.ts") text := by
  have hquietly : parse quietly = .ok (.perform ⟨none, false, true, false⟩ (.generate false none)
      ⟨"8.3.0", none, some "p.js"⟩) := by
    decide +kernel
  have hverbosely : parse verbosely = .ok (.perform ⟨some .json, true, false, true⟩
      (.generate false (some "out.d.ts")) ⟨"9.9", none, some "p.js"⟩) := by
    decide +kernel
  exact (declarations_depend_on_source oneOption).1 _ _ _ _ _ _ ⟨_, _, hquietly⟩
    ⟨_, _, hverbosely⟩ ⟨rfl, rfl, nofun⟩ (by decide +kernel) (by decide +kernel)

end OptionTypes.CommandLine
