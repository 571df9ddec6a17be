import OptionTypes.CommandLine.Reader
import OptionTypes.Run
import OptionTypes.Store.DataDirectory

/-!
# The command line

`web-ext-types [flags] generate VERSION` writes declarations, `web-ext-types [flags] inspect
VERSION` lists options. Flags that say how a run reports stand before the command.

* `CommandLine.parse` is what arguments ask for.
* `CommandLine.run` does it and gives the exit code. A failure that is not foreseen leaves a log in
  the directory for data.
-/

namespace OptionTypes.CommandLine

open Report

/-! ## What arguments ask for -/

/-- What a command does. -/
inductive Action where
  | generate (debug : Bool) (output : Option Text)
  | inspect (command : Option Text)

/-- What arguments ask for. -/
inductive Invocation where
  | version
  | help
  | perform (flags : Flags) (action : Action) (task : Run.Task)

/-- The options before a command. -/
def commonOptions : List Known :=
  [⟨"--version", none, false⟩, ⟨"--help", none, false⟩, ⟨"--json", none, false⟩,
    ⟨"--plain", none, false⟩, ⟨"--no-color", none, false⟩, ⟨"--quiet", some 'q', false⟩,
    ⟨"--verbose", some 'v', false⟩]

/-- The options of every command. -/
def taskOptions : List Known :=
  [⟨"--help", none, false⟩, ⟨"--config", none, true⟩, ⟨"--source", none, true⟩]

/-- The options for declarations. -/
def generateOptions : List Known :=
  taskOptions ++ [⟨"--output", some 'o', true⟩, ⟨"--debug", some 'd', false⟩]

/-- The options for tables. -/
def inspectOptions : List Known := taskOptions ++ [⟨"--command", some 'c', true⟩]

/-- The flags that options stand for. JSON goes before plain text. -/
def flagsOf (a : Arguments) : Flags where
  form := if a.gives "--json" then some .json else if a.gives "--plain" then some .plain else none
  noColour := a.gives "--no-color"
  quiet := a.gives "--quiet"
  verbose := a.gives "--verbose"

/-- The one operand of a command. -/
def versionOf : List Text → Except UsageError Text
  | [] => .error (.missingOperand "VERSION")
  | [version] => .ok version
  | _ :: extra :: _ => .error (.unexpectedOperand extra)

/-- What the arguments of a command ask for. Help goes before a missing operand. -/
def parseCommand (flags : Flags) (known : List Known) (action : Arguments → Action)
    (arguments : List Text) : Except UsageError Invocation := do
  let a ← read known true arguments
  if a.gives "--help" then return .help
  let version ← versionOf a.operands
  return .perform flags (action a) ⟨version, a.value? "--config", a.value? "--source"⟩

/-- What declarations are asked for. -/
def generateAction (a : Arguments) : Action := .generate (a.gives "--debug") (a.value? "--output")

/-- What table is asked for. -/
def inspectAction (a : Arguments) : Action := .inspect (a.value? "--command")

/-- What options ask for on their own, whatever follows them; the first one counts. -/
def immediate? (a : Arguments) : Option Invocation :=
  a.options.findSome? fun o =>
    if o.long = "--version" then some .version
    else if o.long = "--help" then some .help
    else none

/-- What an unknown command asks for: it may be an option that follows `--`. -/
def parseUnknown (name : Text) (arguments : List Text) : Except UsageError Invocation := do
  if !givesOptions name then .error (.unknownCommand name)
  else
    match immediate? (← read commonOptions false arguments) with
    | some i => return i
    | none => .error (.unknownCommand name)

/-- What arguments ask for. -/
def parse (arguments : List Text) : Except UsageError Invocation := do
  let a ← read commonOptions false arguments
  match immediate? a with
  | some i => return i
  | none =>
    match a.operands with
    | [] => .error .missingCommand
    | name :: rest =>
      if name = Text.ofString "generate" then
        parseCommand (flagsOf a) generateOptions generateAction rest
      else if name = Text.ofString "inspect" then
        parseCommand (flagsOf a) inspectOptions inspectAction rest
      else parseUnknown name a.operands

/-! ## Doing it -/

/-- The line that tells the version of the program. -/
def versionLine : Text := "web-ext-types 0.1.0\n"

/-- How to use the program. -/
def usage : Text :=
  "Usage: web-ext-types [--json | --plain] [--no-color] [-q] [-v] COMMAND ...\n"
    ++ "  generate VERSION [-o FILE] [-d] [--config FILE] [--source FILE]\n"
    ++ "  inspect VERSION [-c COMMAND] [--config FILE] [--source FILE]\n"

/-- The exit code of a run that succeeds. -/
def success : Nat := 0

/-- The exit code of a failure that is not foreseen. -/
def crash : Nat := 1

/-- The exit code of arguments that are of no use. -/
def misuse : Nat := 2

variable {m : Type → Type} [Monad m] [Host m]

/-- Leave a log of a failure in the directory for data; its path. -/
def leaveLog (e : RunError) : m Path := do
  let logs := (← DataDirectory.path).child "logs"
  let _ ← AtomicWrite.makeDirectories logs
  let log := logs.child ("crash-" ++ (← Host.timestamp) ++ ".log")
  let content := "The run failed in this part: " ++ e.stage ++ "\n"
  let _ ← Host.writeFile log (Utf8.encode content.toList)
  return log

/-- Tell why a run failed; its exit code. -/
def explain (s : Settings) (e : RunError) : m Nat := do
  match e.diagnosis? with
  | some d =>
    tell s .error d.message
    match d.suggestion with
    | some t => tell s .suggestion t
    | none => pure ()
    return d.exitCode
  | none =>
    let log ← leaveLog e
    tell s .error ("Unexpected error. Debug log: " ++ log.toText)
    return crash

/-- The flags of a run that asks for none. -/
def noFlags : Flags := ⟨none, false, false, false⟩

/-- Write a text about the program itself; the exit code. -/
def announce (t : Text) : m Nat := do
  match ← present [t] with
  | .ok () => return success
  | .error e => explain (← settings noFlags) (.stream e)

/-- Do what a command does. -/
def perform (s : Settings) (action : Action) (task : Run.Task) : ExceptT RunError m Unit :=
  match action with
  | .generate debug output => Run.generate s task debug output
  | .inspect command => Run.inspect s task command

/-- Do what arguments ask for; the exit code. -/
def run (arguments : List Text) : m Nat := do
  match parse arguments with
  | .error e =>
    Host.writeMessage (e.message ++ "\n")
    return misuse
  | .ok .version => announce versionLine
  | .ok .help => announce usage
  | .ok (.perform flags action task) =>
    let s ← settings flags
    match ← (perform s action task).run with
    | .ok () => return success
    | .error e => explain s e

end OptionTypes.CommandLine
