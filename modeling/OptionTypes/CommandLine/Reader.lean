import OptionTypes.Text.CodePoint

/-!
# Options and operands

The arguments of a command as options and operands. An option is a flag or has a value, and has a
long name, such as `--output`, and possibly a short one, such as `-o`. A value stands in the same
argument, as in `--output=x` and `-ox`, or in the next one, whatever that looks like. Several short
names may share one argument. What follows `--` is operands.

* `CommandLine.readOption` reads one argument.
* `CommandLine.read` reads all of them.
-/

namespace OptionTypes.CommandLine

/-- An option that a command knows. -/
structure Known where
  long : String
  short : Option Char
  hasValue : Bool

/-- Why arguments are of no use. -/
inductive UsageError where
  | unknownOption (name : Text)
  | missingValue (name : String)
  | unexpectedValue (name : String)
  | missingCommand
  | unknownCommand (name : Text)
  | missingOperand (name : String)
  | unexpectedOperand (operand : Text)
  deriving DecidableEq

namespace UsageError

/-- The wording of the failure. -/
def message : UsageError → Text
  | unknownOption name => "No such option: " ++ name
  | missingValue name => "Option '" ++ Text.ofString name ++ "' requires an argument."
  | unexpectedValue name => "Option '" ++ Text.ofString name ++ "' does not take a value."
  | missingCommand => "Missing command."
  | unknownCommand name => "No such command '" ++ name ++ "'."
  | missingOperand name => "Missing argument '" ++ Text.ofString name ++ "'."
  | unexpectedOperand operand => "Got unexpected extra argument (" ++ operand ++ ")"

end UsageError

/-- An option that is given: its long name, and its value if it has one. -/
structure Given where
  long : String
  value : Option Text
  deriving DecidableEq

/-- Options that one argument gives, and the one whose value is the next argument. -/
structure Step where
  given : List Given
  awaiting : Option String

/-- The option with a long name. -/
def long? (known : List Known) (name : Text) : Option Known :=
  known.find? fun k => Text.ofString k.long = name

/-- The option with a short name. -/
def short? (known : List Known) (c : CodePoint) : Option Known :=
  known.find? fun k => k.short.any fun s => .char s = c

/-- The options that short names in one argument give. What follows the name of an option with a
value is the value. -/
def readShort (known : List Known) : Text → Except UsageError Step
  | [] => .ok ⟨[], none⟩
  | c :: rest =>
    match short? known c with
    | none => .error (.unknownOption [.char '-', c])
    | some k =>
      if k.hasValue then
        .ok (if rest.isEmpty then ⟨[], some k.long⟩ else ⟨[⟨k.long, some rest⟩], none⟩)
      else do
        let more ← readShort known rest
        return { more with given := ⟨k.long, none⟩ :: more.given }

/-- The option of a long name with a value in the same argument, if there is one. -/
def readLong (k : Known) (attached : Option Text) : Except UsageError Step :=
  match k.hasValue, attached with
  | true, none => .ok ⟨[], some k.long⟩
  | true, some value => .ok ⟨[⟨k.long, some value⟩], none⟩
  | false, none => .ok ⟨[⟨k.long, none⟩], none⟩
  | false, some _ => .error (.unexpectedValue k.long)

/-- An argument up to its first equals sign, and what follows that. -/
def splitValue (argument : Text) : Text × Option Text :=
  let name := argument.takeWhile (· ≠ .char '=')
  (name, if name.length = argument.length then none else some (argument.drop (name.length + 1)))

/-- The options that an argument with a dash at its start gives. -/
def readOption (known : List Known) (argument : Text) : Except UsageError Step :=
  let (name, attached) := splitValue argument
  match long? known name with
  | some k => readLong k attached
  | none =>
    if argument.startsWith "--" then .error (.unknownOption name)
    else readShort known (argument.drop 1)

/-- Whether an argument gives options. A dash on its own does not. -/
def givesOptions (argument : Text) : Bool := argument.startsWith "-" && 1 < argument.length

/-- What arguments hold. -/
structure Arguments where
  options : List Given
  operands : List Text

/-- Arguments after further options. -/
def Arguments.withOptions (given : List Given) (a : Arguments) : Arguments :=
  { a with options := given ++ a.options }

/-- What arguments hold. Where operands and options may not be mixed, the first operand ends the
options. -/
def read (known : List Known) (mixed : Bool) : List Text → Except UsageError Arguments
  | [] => .ok ⟨[], []⟩
  | argument :: rest =>
    if argument = Text.ofString "--" then .ok ⟨[], rest⟩
    else if givesOptions argument then do
      let step ← readOption known argument
      match step.awaiting with
      | none => return (← read known mixed rest).withOptions step.given
      | some name =>
        match rest with
        | [] => .error (.missingValue name)
        | value :: rest =>
          return (← read known mixed rest).withOptions (step.given ++ [⟨name, some value⟩])
    else if mixed then do
      let a ← read known mixed rest
      return { a with operands := argument :: a.operands }
    else .ok ⟨[], argument :: rest⟩

namespace Arguments

/-- Whether an option is given. -/
def gives (a : Arguments) (long : String) : Bool := a.options.any (·.long = long)

/-- The value of an option; the last one counts. -/
def value? (a : Arguments) (long : String) : Option Text :=
  (a.options.reverse.find? (·.long = long)).bind Given.value

end Arguments

end OptionTypes.CommandLine
