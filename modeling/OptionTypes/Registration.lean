import OptionTypes.Evaluation

/-!
# Registrations of commands

A script registers a command by a call such as

    program.command('run', 'Run the extension', commands.run, { target: … })

The callee is a member named `command`, the first argument a string that denotes the name, and the
fourth one an object, the schema of the command's options. Comments are no arguments. Of several
registrations of one command the first one counts, in the order in which their argument lists
start; so the inner call of a chain comes before the outer one.

* `Registration.schemaOf?` is the schema that one call registers for a command.
* `Registration.schema?` is the schema of a command in a whole script.
* `Registration.extract` is the command with its evaluated options.
-/

namespace OptionTypes.Registration

open Syntax

/-- The name of the member that registers a command. -/
def method : Text := "command"

/-- The place of the schema among the arguments, from zero. -/
def schemaPlace : Nat := 3

/-- Whether a call calls a member that registers commands. -/
def registers (source : Bytes) (call : Tree) : Bool :=
  match call.child? .callee with
  | none => false
  | some callee =>
    callee.is .memberExpression
      && match callee.child? .property with
        | none => false
        | some name => name.is .propertyIdentifier && name.text source = method

/-- The schema that a call with these arguments registers for a command. The name is read only
where enough arguments are given. -/
def schemaOf? (source : Bytes) (command : Text) (call arguments : Tree) :
    Except Escape.Error (Option Tree) := do
  if !registers source call then return none
  else
    let operands := arguments.operands
    match operands.head?, operands[schemaPlace]? with
    | some name, some schema =>
      if !name.is .string then return none
      else if (← Evaluation.stringValue source name) ≠ command then return none
      else return if schema.is .object then some schema else none
    | _, _ => return none

/-- The schema that a visit of a walk registers for a command, if it is the visit of the arguments
of a call. -/
def schemaAt? (source : Bytes) (command : Text) (v : Visit) : Except Escape.Error (Option Tree) :=
  match v.parent with
  | some call =>
    if v.tree.is .arguments && call.is .callExpression then schemaOf? source command call v.tree
    else .ok none
  | none => .ok none

/-- The first schema that visits register for a command. -/
def firstSchema? (source : Bytes) (command : Text) : List Visit → Except Escape.Error (Option Tree)
  | [] => .ok none
  | v :: rest => do
    match ← schemaAt? source command v with
    | some schema => return some schema
    | none => firstSchema? source command rest

/-- The schema of a command. -/
def schema? (script : Script) (command : Text) : Except Escape.Error (Option Tree) :=
  firstSchema? script.source command (walk true script.root)

/-- The options that the members of a schema describe. -/
def options (command : Text) : Members → Except Gap (List (Text × Descriptor))
  | [] => .ok []
  | (k, v) :: rest => do
    let descriptor ← Descriptor.ofValue command k v
    return (descriptor.name, descriptor) :: (← options command rest)

/-- The members of an object. -/
def membersOf : Value → Members
  | .object ms => ms
  | _ => []

/-- A command as a script registers it. -/
def extract (script : Script) (symbols : List (Text × Value)) (command : Text) :
    Except Failure Command := do
  match ← (schema? script command).mapError .escape with
  | none => return ⟨command, [], false⟩
  | some schema =>
    let value ← Evaluation.evaluate script.source symbols schema
    return ⟨command, ← (options command (membersOf value)).mapError .gap, true⟩

/-- Several commands as a script registers them. -/
def extractAll (script : Script) (symbols : List (Text × Value)) (commands : List Text) :
    Except Failure (List Command) :=
  commands.mapM (extract script symbols)

end OptionTypes.Registration
