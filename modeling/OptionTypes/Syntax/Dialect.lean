import OptionTypes.Syntax.Program

/-!
# Dialects of scripts

Scripts come with types or without. A dialect is known by its name.
-/

namespace OptionTypes.Syntax

/-- A dialect of scripts. -/
inductive Dialect where
  | javascript
  | typescript
  deriving DecidableEq

namespace Dialect

/-- The dialects and their names. -/
def names : List (String × Dialect) := [("javascript", .javascript), ("typescript", .typescript)]

/-- A name that is no dialect's. -/
structure Unknown where
  name : Text
  deriving DecidableEq

/-- The wording of the failure. -/
def Unknown.message (u : Unknown) : Text := "Unknown grammar '" ++ u.name ++ "'"

/-- The dialect of a name. -/
def ofName (name : Text) : Except Unknown Dialect :=
  match names.find? fun (n, _) => Text.ofString n = name with
  | some (_, dialect) => .ok dialect
  | none => .error ⟨name⟩

/-- Whether scripts of a dialect have types. -/
def isTyped : Dialect → Bool
  | javascript => false
  | typescript => true

/-- The tree of a script in a dialect. -/
def parse (d : Dialect) (cs : List Char) : Tree := Syntax.parse d.isTyped cs

end Dialect

end OptionTypes.Syntax
