import OptionTypes.Text.Blank
import OptionTypes.Text.Case

/-!
# Words of a name

An option is named in one of several conventions: `overwrite-dest`, `sourceDir`, `amoBaseURL`.
`Words.split` finds the words whatever the convention, in lower case:

1. a run of ASCII capitals counts as one capital followed by small letters,
2. a word starts at every capital and after every separator (`.`, `-`, `_` or a blank),
3. separators belong to no word, and empty words are dropped.

`Words.camel` and `Words.pascal` write the words in the two conventions of a declaration.
-/

namespace OptionTypes.Words

/-- Whether a code point separates words. -/
def isSeparator : CodePoint → Bool
  | .char '.' => true
  | .char '-' => true
  | .char '_' => true
  | c => Blank.isBlank c

/-- Whether a code point is an ASCII capital. -/
def isCapital (c : CodePoint) : Bool := c.is Case.isCapital

/-- Lower case of an ASCII capital; other code points stay. -/
def lowerCapital : CodePoint → CodePoint
  | .char c => .char (Case.lowerAscii c)
  | c => c

/-- Every capital that follows a capital becomes small. `inside` tells whether the code point
before the text is a capital. -/
def collapseFrom (inside : Bool) : Text → Text
  | [] => []
  | c :: rest =>
    if isCapital c then
      (if inside then lowerCapital c else c) :: collapseFrom true rest
    else c :: collapseFrom false rest

/-- Runs of capitals reduced to their first one. -/
def collapse (name : Text) : Text := collapseFrom false name

/-- The pieces of a text: a new one starts at every capital and after every separator. The first
piece holds what precedes the first boundary. -/
def pieces : Text → List Text
  | [] => [[]]
  | c :: rest =>
    if isSeparator c then [] :: pieces rest
    else
      match pieces rest with
      | [] => [[c]]
      | piece :: more =>
        if isCapital c then [] :: (c :: piece) :: more else (c :: piece) :: more

/-- The words of a name, in lower case. -/
def split (name : Text) : List Text :=
  ((pieces (collapse name)).filter (!·.isEmpty)).map Case.lower

/-- The name in camelCase: the first word small, every further word capitalised. -/
def camel (name : Text) : Text :=
  match split name with
  | [] => []
  | word :: more => word ++ more.flatMap Case.upperFirst

/-- The name in PascalCase: every word capitalised. -/
def pascal (name : Text) : Text := (split name).flatMap Case.upperFirst

end OptionTypes.Words
