import OptionTypes.Text.CodePoint

/-!
# Paths

A path is a root, empty for a relative path, and the names below it. Empty names and single dots
vanish when a path is read; two dots stay, since what they mean depends on the files.
-/

namespace OptionTypes

/-- A path to a file or a directory. -/
structure Path where
  root : Text
  names : List Text
  deriving DecidableEq

namespace Path

/-- The code point between names. -/
def separator : CodePoint := .char '/'

/-- The name of the directory itself. -/
def here : Text := "."

/-- The name of the directory above. -/
def above : Text := ".."

/-- Whether a piece between separators is a name. -/
def isName (t : Text) : Bool := !t.isEmpty && t ≠ here

/-- The path that a text writes. Exactly two separators at the start are a root of their own. -/
def ofText (t : Text) : Path :=
  let slashes := (t.takeWhile (· = separator)).length
  let root := List.replicate (if slashes = 2 then 2 else min 1 slashes) separator
  ⟨root, (Text.splitOn separator t).filter isName⟩

/-- A relative path out of names. -/
def ofNames (names : List Text) : Path := ⟨[], names⟩

/-- The text of a path. -/
def toText (p : Path) : Text :=
  if p.root.isEmpty && p.names.isEmpty then here else p.root ++ Text.join [separator] p.names

/-- The last name of a path, empty if there is none. -/
def name (p : Path) : Text := p.names.getLast?.getD []

/-- The path without its last name. -/
def parent (p : Path) : Path := { p with names := p.names.dropLast }

/-- The path of a name below another path. -/
def child (p : Path) (name : Text) : Path := { p with names := p.names ++ [name] }

/-- The last dot of a name and what follows it. A dot at the start or the end of a name does not
count. -/
def extension (p : Path) : Text :=
  let afterDot := (p.name.reverse.takeWhile (· ≠ .char '.')).reverse
  let stem := p.name.length - afterDot.length - 1
  if afterDot.length = p.name.length || afterDot.isEmpty || stem = 0 then []
  else .char '.' :: afterDot

end Path

end OptionTypes
