import OptionTypes.Config
import OptionTypes.Config.Document
import OptionTypes.Host

/-!
# The configuration of a run

What holds for a run is laid together from three layers: the standard configuration, a file, and
variables. The file is the one that is asked for, or else the first of three names that is a file in
the current directory. Two variables replace one field each where they are not empty.

* `Resolution.overlay` is pure: the configuration out of the members of a file and the variables.
* `Resolution.resolve` asks the surroundings for them.
-/

namespace OptionTypes

/-- Why a run has no configuration. -/
inductive ConfigError where
  | document (e : DocumentError)
  | invalid (issues : List Check.Issue)

namespace ConfigError

/-- The wording of the failure. Issues are not listed. -/
def message : ConfigError → Text
  | document e => e.message
  | invalid _ => "Invalid configuration"

end ConfigError

namespace Resolution

/-- The names of the configuration file of a project, the preferred one first. -/
def projectNames : List String :=
  ["web-ext-types.json", "web-ext-types.yaml", "web-ext-types.yml"]

/-- The variable that replaces the address of the source. -/
def addressVariable : Text := "WEB_EXT_TYPES_URL_TEMPLATE"

/-- The variable that replaces the directory for intermediate results. -/
def debugVariable : Text := "WEB_EXT_TYPES_DEBUG_DIR"

/-- The values of the variables that replace fields. -/
structure Variables where
  address : Option Text
  debugDirectory : Option Text

/-- The member for a field that a variable replaces; an empty variable replaces nothing. -/
def variableMember (field : String) : Option Text → Members
  | some t => if t.isEmpty then [] else [(.text field, .text t)]
  | none => []

/-- The members that variables stand for. -/
def Variables.members (v : Variables) : Members :=
  variableMember "url_template" v.address ++ variableMember "debug_dir" v.debugDirectory

/-- The standard configuration with the members of a file and the variables laid over it. -/
def overlay (file : Option Members) (values : Variables) : Check.Checked Config := do
  let base ←
    match file with
    | some members => Config.standard.merge members
    | none => .ok .standard
  let members := values.members
  if members.isEmpty then return base else base.merge members

variable {m : Type → Type} [Monad m] [Host m]

/-- The first of some names that is a file in a directory. -/
def firstFile (directory : Path) : List String → m (Option Path)
  | [] => return none
  | name :: rest => do
    let path := directory.child (Text.ofString name)
    if ← Host.isFile path then return some path else firstFile directory rest

/-- The configuration file of the project in the current directory. -/
def projectFile : m (Option Path) := do firstFile (← Host.directory) projectNames

/-- The members of a configuration file. -/
def load (path : Path) : m (Except DocumentError Members) := do
  if ← Host.isFile path then
    match ← Host.read path with
    | .ok bytes => return Document.members path bytes
    | .error e => return .error (.unreadable path e)
  else return .error (.notFound path)

/-- The variables that replace fields. -/
def readVariables : m Variables := do
  return ⟨← Host.lookup addressVariable, ← Host.lookup debugVariable⟩

/-- The configuration of a run, with the file that is asked for if there is one. -/
def resolve (asked : Option Text) : m (Except ConfigError Config) := do
  let path ←
    match asked with
    | some t => pure (some (Path.ofText t))
    | none => projectFile
  let file ←
    match path with
    | none => pure (.ok none)
    | some p => do
      let loaded ← load p
      pure (loaded.map some)
  match file with
  | .error e => return .error (.document e)
  | .ok members =>
    let values ← readVariables
    return (overlay members values).mapError .invalid

end Resolution

end OptionTypes
