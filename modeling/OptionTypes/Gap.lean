import OptionTypes.Descriptor
import OptionTypes.Number.Arithmetic
import OptionTypes.Text.Escape

/-!
# Why a schema is not understood

A `Gap` is an expression that the evaluation of a schema refuses, or an option of an unexpected
shape. It knows the text of the offending expression and, for an unknown identifier, its name.

A `Failure` is a gap or a literal that denotes nothing.
-/

namespace OptionTypes

/-- What a schema holds that is not understood. Texts are those of the expressions at fault. -/
inductive Gap where
  /-- A kind of expression that is not evaluated. -/
  | unsupported (kind : String) (expression : Text)
  /-- A member of an object literal that is not evaluated. -/
  | member (expression : Text)
  | spreadIntoObject (expression : Text)
  | spreadIntoList (expression : Text)
  | operator (symbol : String) (expression : Text)
  | arithmetic (cause : Arithmetic.Error) (expression : Text)
  | notNumber (expression : Text)
  | unresolved (name context : Text)
  | notObject (command : Text) (key : Key) (type : String)
  | shape (command : Text) (key : Key) (issues : List Check.Issue)

namespace Gap

/-- A key as messages show it. -/
def keyText : Key → Text
  | .text t => t
  | .null => "None"
  | .bool b => if b then "True" else "False"
  | .number (.int n) => Text.ofInt n
  | .number (.float x) => Text.ofString (Shortest.write x)
  | .foreign _ shown => shown

/-- The text of the expression at fault. -/
def expression : Gap → Text
  | unsupported _ e => e
  | member e => e
  | spreadIntoObject e => e
  | spreadIntoList e => e
  | operator _ e => e
  | arithmetic _ e => e
  | notNumber e => e
  | unresolved _ context => context
  | notObject _ key _ => keyText key
  | shape _ key _ => keyText key

/-- The name of an unknown identifier. -/
def name? : Gap → Option Text
  | unresolved name _ => some name
  | _ => none

/-- The wording of a gap. Issues with the shape of an option are not listed. -/
def message : Gap → Text
  | unsupported kind e => "Cannot evaluate " ++ Text.ofString kind ++ " in option schema: " ++ e
  | member e => "Cannot evaluate object member " ++ Quoted.quote e
  | spreadIntoObject e => "Cannot spread a non-object into an option schema: " ++ e
  | spreadIntoList e => "Cannot spread a non-iterable into an array: " ++ e
  | operator symbol e => "Unsupported operator " ++ Quoted.quote symbol ++ ": " ++ e
  | arithmetic cause e =>
    "Cannot evaluate arithmetic in option schema (" ++ Text.ofString cause.message ++ "): " ++ e
  | notNumber e => "Expected a number in option schema: " ++ e
  | unresolved name context =>
    "Unresolved identifier '" ++ name ++ "' in option schema: " ++ context
  | notObject command key type =>
    "Option '" ++ keyText key ++ "' of command '" ++ command ++ "' is not an object (got "
      ++ Text.ofString type ++ ")"
  | shape command key _ =>
    "Option '" ++ keyText key ++ "' of command '" ++ command ++ "' has an unexpected shape"

end Gap

/-- Why an expression has no value. -/
inductive Failure where
  | gap (g : Gap)
  | escape (e : Escape.Error)
  | number (e : Reading.Error)
  /-- A node lacks a part that its kind always has. -/
  | incomplete

/-- The descriptor that the value of an option describes. -/
def Descriptor.ofValue (command : Text) (key : Key) (v : Value) : Except Gap Descriptor :=
  match v with
  | .object ms => (Descriptor.ofMembers key ms).mapError (.shape command key)
  | v => .error (.notObject command key v.typeName)

end OptionTypes
