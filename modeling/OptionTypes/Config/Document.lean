import OptionTypes.Json.Reader
import OptionTypes.Store.Fault
import OptionTypes.Store.Path
import OptionTypes.Text.Blank
import OptionTypes.Text.Case
import OptionTypes.Text.Utf8.Message
import OptionTypes.Yaml.Reader

/-!
# Configuration documents

A configuration file holds the members of one object, as JSON or YAML. A file whose extension is
`.json` has to be JSON; any other is read as JSON if it is that, and as YAML otherwise. An empty
document holds no members.

`Document.members` is pure: the members or the failure follow from the path, for its extension and
for messages, and from the bytes of the file.
-/

namespace OptionTypes

/-- Why a configuration file is of no use. -/
inductive DocumentError where
  | notFound (path : Path)
  | unreadable (path : Path) (e : StoreFault)
  | notJson (path : Path) (document : Text) (rule : Json.Violation) (position : Nat)
  | notYaml (path : Path)
  | notObject (path : Path) (type : String)
  /-- The bytes encode no text. -/
  | encoding (e : Utf8.DecodeError)
  | number (e : Reading.Error)
  | escape (e : Escape.Error)
  | date (message : String)
  | misfit (e : Yaml.Misfit)

namespace DocumentError

/-- The wording of the failure. -/
def message : DocumentError → Text
  | notFound path => "Config file not found: " ++ path.toText
  | unreadable path e =>
    "Failed to read config file " ++ path.toText ++ ": " ++ Text.ofString e.message
  | notJson path document rule position =>
    "Invalid JSON in config " ++ path.toText ++ ": " ++ Json.describe document rule position
  | notYaml path => "Invalid YAML in config " ++ path.toText
  | notObject path type =>
    "Config " ++ path.toText ++ " must be a JSON/YAML object (got " ++ Text.ofString type ++ ")"
  | encoding e => e.message
  | number e => e.message
  | escape e => Text.ofString e.message
  | date message => Text.ofString message
  | misfit e => e.message

end DocumentError

namespace Document

/-- The extension of files that have to be JSON. -/
def jsonExtension : Text := ".json"

/-- The value of a YAML document at a path. -/
def readYaml (path : Path) (chars : List Char) : Except DocumentError Value :=
  match Yaml.read chars with
  | .ok v => .ok v
  | .error .malformed => .error (.notYaml path)
  | .error (.escape e) => .error (.escape e)
  | .error (.number e) => .error (.number e)
  | .error (.date message) => .error (.date message)
  | .error (.misfit e) => .error (.misfit e)

/-- The value of the document at a path. -/
def value (path : Path) (chars : List Char) : Except DocumentError Value :=
  let document := Text.ofChars chars
  match Json.read document with
  | .ok v => .ok v
  | .error (.number e) => .error (.number e)
  | .error (.violation rule position) =>
    if Case.lower path.extension = jsonExtension then
      .error (.notJson path document rule position)
    else readYaml path chars

/-- The members that a value holds. -/
def membersOf (path : Path) : Value → Except DocumentError Members
  | .null => .ok []
  | .object ms => .ok ms
  | v => .error (.notObject path v.typeName)

/-- The members of a file at a path. Every line end is read as LF. -/
def members (path : Path) (bytes : Bytes) : Except DocumentError Members := do
  let chars ← (Utf8.decode bytes).mapError .encoding
  membersOf path (← value path (Blank.unifyLines chars))

end Document

end OptionTypes
