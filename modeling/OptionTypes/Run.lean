import OptionTypes.Config.Resolution
import OptionTypes.Declaration.Interface
import OptionTypes.Erasure
import OptionTypes.Registration
import OptionTypes.Report
import OptionTypes.Retrieval
import OptionTypes.Script
import OptionTypes.Store.AtomicWrite
import OptionTypes.Syntax.Dump

/-!
# Runs

A run takes a source, erases its types, reads the script that is left and evaluates the schemas of
commands. What becomes of the commands is either their declarations or a table of their options.

* `RunError` is every way in which a run fails, and `RunError.diagnosis?` what is told about the
  foreseen ones.
* `Run.commands` is the part that all runs share.
* `Run.generate` writes declarations: to a file, at once, or as a result. Nothing is written to
  either before all of them are there.
* `Run.inspect` lists the options of commands as a table. All rows are there before the first of
  them is written, yet a stream may refuse a later one.
-/

namespace OptionTypes

/-- Why a run fails. -/
inductive RunError where
  | blankVersion
  | config (e : ConfigError)
  | retrieval (e : RetrievalError)
  | erasure (e : Erasure.Error)
  | source (e : SourceError)
  | extraction (e : Failure)
  | declaration (e : Declaration.Error)
  | write (e : WriteFault)
  /-- The stream of results refuses the result. -/
  | stream (e : StreamFault)

/-- What is told about a failure: an exit code, a message, and what to do about it. -/
structure Diagnosis where
  exitCode : Nat
  message : Text
  suggestion : Option Text

namespace RunError

/-- What to do about a gap: an unknown identifier can be configured. -/
def suggestionFor (g : Gap) : Text :=
  match g.name? with
  | some name => "Add '" ++ name ++ "' under \"symbols\" in web-ext-types.json"
  | none => "Re-run with --debug and inspect the dumped syntax tree"

/-- What is told about a failure to configure a run. A file whose bytes or literals denote nothing
is not foreseen. -/
def diagnoseConfig : ConfigError → Option Diagnosis
  | .document (.encoding _) => none
  | .document (.number _) => none
  | .document (.escape _) => none
  | .document (.date _) => none
  | .document (.misfit _) => none
  | e => some ⟨1, e.message, none⟩

/-- What is told about a failure, if it is a foreseen one. -/
def diagnosis? : RunError → Option Diagnosis
  | blankVersion => some ⟨2, "Version must not be empty", none⟩
  | config e => diagnoseConfig e
  | retrieval (.badAddress _) => none
  | retrieval e => some ⟨6, e.message, none⟩
  | source (.fault f) =>
    some ⟨7, f.message, some "Re-run with --debug and inspect web-ext.stripped.js"⟩
  | extraction (.gap g) => some ⟨8, g.message, some (suggestionFor g)⟩
  | _ => none

/-- A word for the part of a run that fails, for a log. -/
def stage : RunError → String
  | blankVersion => "version"
  | config _ => "configuration"
  | retrieval _ => "retrieval"
  | erasure _ => "erasure"
  | source _ => "source"
  | extraction _ => "extraction"
  | declaration _ => "declaration"
  | write _ => "write"
  | stream _ => "stream"

end RunError

namespace Run

open Report

variable {m : Type → Type} [Monad m] [Host m]

/-- A step that may fail, as part of a run. -/
def step {ε α : Type} (wrap : ε → RunError) (x : m (Except ε α)) : ExceptT RunError m α :=
  ExceptT.mk (do return (← x).mapError wrap)

/-- A computation that may fail, as part of a run. -/
def attempt {ε α : Type} (wrap : ε → RunError) (x : Except ε α) : ExceptT RunError m α :=
  ExceptT.mk (pure (x.mapError wrap))

/-- A message of a run. -/
def note (s : Settings) (n : Notice) (message : Text) : ExceptT RunError m Unit :=
  ExceptT.lift (tell s n message)

/-- What a run works on. -/
structure Task where
  version : Text
  /-- The file of a configuration that is asked for. -/
  configFile : Option Text
  /-- The file that holds the source; without one it is fetched. -/
  sourceFile : Option Text

/-! ## From a source to commands -/

/-- The source of a run. -/
def sourceText (s : Settings) (config : Config) (version : Text) (file : Option Text) :
    ExceptT RunError m Text := do
  match file with
  | some path =>
    note s .progress ("Reading " ++ path)
    step .retrieval (Retrieval.load path)
  | none =>
    note s .progress ("Fetching web-ext " ++ version ++ " source")
    step .retrieval (Retrieval.fetch version config.urlTemplate (.float config.timeout))

/-- The file that keeps a source. -/
def originalFile : Text := "web-ext.original.js"

/-- The file that keeps the script in a source. -/
def strippedFile : Text := "web-ext.stripped.js"

/-- The file that keeps the tree of a script. -/
def treeFile : Text := "web-ext.ast.json"

/-- Keep an intermediate result in the directory for them. -/
def keep (s : Settings) (config : Config) (file content : Text) : ExceptT RunError m Unit := do
  let path := (Path.ofText config.debugDir).child file
  step .write (AtomicWrite.write path content)
  note s .detail ("Wrote " ++ path.toText)

/-- The text that is kept of a tree. -/
def treeText (script : Script) : Except Json.WriteError Text := do
  return (← Json.write .indented (Syntax.dump script.source script.root)) ++ "\n"

/-- Say whether a command was found. -/
def noteCommand (s : Settings) (c : Command) : ExceptT RunError m Unit :=
  if c.matched then
    note s .detail
      ("Command '" ++ c.name ++ "': " ++ Text.ofNat c.options.length ++ " option(s)")
  else
    note s .warning
      ("No option schema found for command '" ++ c.name ++ "'; rendering an empty interface")

/-- The commands with given names, as the source of a run registers them. -/
def commands (s : Settings) (config : Config) (debug : Bool) (version : Text)
    (file : Option Text) (names : List Text) : ExceptT RunError m (List Command) := do
  let text ← sourceText s config version file
  if debug then keep s config originalFile text
  let stripped ← attempt .erasure (Erasure.erase text)
  if debug then keep s config strippedFile stripped
  let script ← attempt .source (Script.read stripped)
  if debug then
    keep s config treeFile (← attempt (fun e => .declaration (.json e)) (treeText script))
  let found ← attempt .extraction (Registration.extractAll script config.symbols names)
  found.forM (noteCommand s)
  return found

/-- The configuration of a run and its version without blanks around it, which must not be empty. -/
def prepare (t : Task) : ExceptT RunError m (Config × Text) := do
  let version := Blank.trim t.version
  if version.isEmpty then throw .blankVersion
  return (← step .config (Resolution.resolve t.configFile), version)

/-! ## Declarations -/

/-- The text of the declarations for all configured commands. -/
def declarations (s : Settings) (t : Task) (debug : Bool) : ExceptT RunError m Text := do
  let (config, version) ← prepare t
  let found ← commands s config debug version t.sourceFile config.commands
  attempt .declaration (Declaration.renderAll (.ofConfig config) found)

/-- Write the declarations to a file, or as a result. -/
def generate (s : Settings) (t : Task) (debug : Bool) (output : Option Text) :
    ExceptT RunError m Unit := do
  let text ← declarations s t debug
  match output with
  | some path =>
    step .write (AtomicWrite.write (Path.ofText path) text)
    note s .success ("Wrote " ++ path)
  | none => step .stream (present [Settings.data text])

/-! ## Tables of options -/

/-- The headers of a table of options. -/
def headers : List Text :=
  ["Command", "Option", "Property", "Type", "Required", "Default"].map Text.ofString

/-- The row for an option. -/
def row (style : Declaration.Style) (command key : Text) (d : Descriptor) :
    Except Json.WriteError (List Text) := do
  let type ← Declaration.Property.type command key d style.typeOverrides
  let default ← if d.hasDefault then Declaration.Comment.defaultText d.default else .ok "-"
  return [command, key, Declaration.Property.name key d style.preferredNames, type,
    if Declaration.Property.isRequired d then "Yes" else "", default]

/-- The rows for all options of commands. -/
def rows (style : Declaration.Style) : List Command → Except Json.WriteError (List (List Text))
  | [] => .ok []
  | c :: cs => do
    return (← c.options.mapM fun (key, d) => row style c.name key d) ++ (← rows style cs)

/-- The title of a table of options. -/
def title (version : Text) (count : Nat) : Text :=
  "web-ext " ++ version ++ " -- Options (" ++ Text.ofNat count ++ ")"

/-- List the options of one command, or of all configured ones where its name is empty or not
given. -/
def inspect (s : Settings) (t : Task) (command : Option Text) : ExceptT RunError m Unit := do
  let (config, version) ← prepare t
  let names :=
    match command with
    | some name => if name.isEmpty then config.commands else [name]
    | none => config.commands
  let found ← commands s config false version t.sourceFile names
  let failed := fun e => RunError.declaration (.json e)
  let lines ← attempt failed (rows (.ofConfig config) found)
  let pieces ← attempt failed (s.pieces headers lines (some (title version lines.length)))
  step .stream (present pieces)

end Run

end OptionTypes
