import OptionTypes.Descriptor
import OptionTypes.Json.Writer
import OptionTypes.Text.Wrap

/-!
# Documentation comments

The comment that precedes a property of a declaration: the wrapped description and the default of
the option. An option with neither has no comment.

* `Comment.defaultText` is the default as compact JSON.
* `Comment.lines` are the lines of the comment.
-/

namespace OptionTypes.Declaration

/-- Why a declaration cannot be written. -/
inductive Error where
  | width (e : Wrap.InvalidWidth)
  | json (e : Json.WriteError)
  deriving DecidableEq

namespace Comment

/-- The description of an option, unless it is blank. -/
def description? (d : Descriptor) : Option Text :=
  d.description.filter fun t => !Blank.isAllBlank t

/-- The text of a default. -/
def defaultText (v : Value) : Except Json.WriteError Text := Json.write .compact v

/-- The lines for a description. -/
def descriptionLines (width : Int) : Option Text → Except Error (List Text)
  | none => .ok []
  | some t => do
    let segments ← (Wrap.wrap width t).mapError .width
    return segments.map (" * " ++ ·)

/-- The lines for a default, after a blank one if a description precedes them. -/
def defaultLines (d : Descriptor) (described : Bool) : Except Error (List Text) :=
  if d.hasDefault then do
    let t ← (defaultText d.default).mapError .json
    let gap : List Text := if described then [" *"] else []
    return gap ++ [" * @default " ++ t]
  else .ok []

/-- The lines of the comment, none if there is nothing to say. -/
def lines (d : Descriptor) (width : Int) : Except Error (List Text) :=
  let description := description? d
  if description.isNone && !d.hasDefault then .ok []
  else do
    let first ← descriptionLines width description
    let second ← defaultLines d description.isSome
    return ("/**" : Text) :: (first ++ second ++ [(" */" : Text)])

end Comment

end OptionTypes.Declaration
