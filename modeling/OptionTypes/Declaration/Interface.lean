import OptionTypes.Config
import OptionTypes.Declaration.Comment
import OptionTypes.Text.Words

/-!
# Interfaces

A command becomes an interface with one property per option, in the order of declaration.

* `Property.name`: the first preferred name among the other names of the option, otherwise its
  key, in camelCase.
* `Property.type`: the override for `command/key`, or a type inferred from the declared one. An
  option that is not mandatory may be undefined.
* `Property.isRequired`: mandatory options and options with a default are required.
* `Interface.render` and `renderAll` lay everything out.
-/

namespace OptionTypes.Declaration

/-- How declarations are written. -/
structure Style where
  typeOverrides : List (Text × Text)
  preferredNames : List Text
  width : Int

/-- The style that a configuration asks for. -/
def Style.ofConfig (c : Config) : Style := ⟨c.typeOverrides, c.preferredNames, c.wrapWidth⟩

/-- The value of a name in a list of pairs. -/
def lookup? (name : Text) (pairs : List (Text × Text)) : Option Text :=
  (pairs.find? fun (k, _) => k = name).map Prod.snd

namespace Property

/-- The name of the property for an option. -/
def name (key : Text) (d : Descriptor) (preferred : List Text) : Text :=
  Words.camel ((d.nameList.find? fun n => preferred.contains n).getD key)

/-- The text of one choice: a text as it is, another value as JSON. -/
def choiceText : Value → Except Json.WriteError Text
  | .text t => .ok t
  | v => Json.write .spaced v

/-- A choice as a string literal type. -/
def choiceLiteral (v : Value) : Except Json.WriteError Text := do
  let t ← choiceText v
  let escaped := Text.replace "'" "\\'" (Text.replace "\\" "\\\\" t)
  return "'" ++ escaped ++ "'"

/-- The choices as string literal types. -/
def choiceLiterals : List Value → Except Json.WriteError (List Text)
  | [] => .ok []
  | v :: vs => do return (← choiceLiteral v) :: (← choiceLiterals vs)

/-- The type of an array option: of its choices if it declares some, of any text otherwise. -/
def arrayType : Option (List Value) → Except Json.WriteError Text
  | none => .ok "string[]"
  | some [] => .ok "string[]"
  | some choices => do
    return "(" ++ Text.join " | " (← choiceLiterals choices) ++ ")[]"

/-- The type of an option before optionality is added. -/
def baseType (command key : Text) (d : Descriptor) (overrides : List (Text × Text)) :
    Except Json.WriteError Text :=
  match lookup? (command ++ "/" ++ key) overrides with
  | some t => .ok t
  | none =>
    match d.type with
    | none => .ok "unknown"
    | some t => if t = "array" then arrayType d.choices else .ok t

/-- The type of the property for an option. -/
def type (command key : Text) (d : Descriptor) (overrides : List (Text × Text)) :
    Except Json.WriteError Text := do
  let t ← baseType command key d overrides
  return if d.isMandatory then t else t ++ " | undefined"

/-- Whether the property is required. -/
def isRequired (d : Descriptor) : Bool := d.isMandatory || d.hasDefault

/-- The line of the property for an option. -/
def line (style : Style) (command key : Text) (d : Descriptor) : Except Error Text := do
  let t ← (type command key d style.typeOverrides).mapError .json
  return name key d style.preferredNames ++ (if isRequired d then "" else "?") ++ ": " ++ t

end Property

namespace Interface

/-- The lines for one option: its comment and its property. -/
def optionLines (style : Style) (command key : Text) (d : Descriptor) : Except Error (List Text) :=
  do
    let comment ← Comment.lines d style.width
    return comment ++ [← Property.line style command key d]

/-- The lines for all options. -/
def bodyLines (style : Style) (command : Text) : List (Text × Descriptor) →
    Except Error (List Text)
  | [] => .ok []
  | (key, d) :: rest => do
    return (← optionLines style command key d) ++ (← bodyLines style command rest)

/-- The name of the interface of a command. -/
def name (command : Text) : Text := Words.pascal command ++ "Options"

/-- The text of an interface with the given lines, without a line end after it. Blanks at the end
of a line are dropped. -/
def layout (interface : Text) (lines : List Text) : Text :=
  let body : Text := lines.flatMap fun line => Text.ofString "  " ++ Blank.trimEnd line ++ "\n"
  Text.ofString "export interface " ++ interface ++ " \x7b\n" ++ body ++ "\x7d"

/-- The interface of a command. -/
def render (style : Style) (c : Command) : Except Error Text := do
  return layout (name c.name) (← bodyLines style c.name c.options)

/-- The interfaces of commands. -/
def renderEach (style : Style) : List Command → Except Error (List Text)
  | [] => .ok []
  | c :: cs => do return (← render style c) :: (← renderEach style cs)

end Interface

/-- All interfaces, with a blank line between two of them and a line end after the last. -/
def renderAll (style : Style) (commands : List Command) : Except Error Text := do
  return Text.join "\n\n" (← Interface.renderEach style commands) ++ "\n"

end OptionTypes.Declaration
