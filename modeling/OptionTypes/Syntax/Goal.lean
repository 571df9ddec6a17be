import OptionTypes.Syntax.Reader

/-!
# What there is to read

The grammar is a set of goals, each read by a rule that may pursue further goals. A rule does not
call itself: it is handed a `Grammar`, which knows how the goals below it are read. Tying the knot
is left to the reader of whole programs, which bounds the depth.

A goal gives a list of trees, so that a sequence of statements or items is a goal like any other.
-/

namespace OptionTypes.Syntax

/-- Where an expression stands. -/
structure Context where
  /-- The operator `in` belongs to the header of a loop, not to the expression. -/
  noIn : Bool
  /-- A line end may end the expression. -/
  ends : Bool
  /-- A colon must follow the expression. -/
  colon : Bool

namespace Context

/-- Inside brackets. -/
def inner : Context := ⟨false, false, false⟩

/-- In a statement. -/
def statement : Context := ⟨false, true, false⟩

/-- In the header of a loop. -/
def header : Context := ⟨true, false, false⟩

/-- Between a question mark and its colon. -/
def between : Context := ⟨false, false, true⟩

end Context

/-- Sequences of items with commas between them. -/
inductive Items where
  | elements
  | arguments
  | members
  | patternElements
  | patternMembers
  | parameters
  | importSpecifiers
  | exportSpecifiers
  | typeParameters
  | typeArguments
  | enumMembers
  deriving DecidableEq

namespace Items

/-- The mark that closes a sequence. -/
def closing : Items → String
  | elements | patternElements => "]"
  | arguments | parameters => ")"
  | members | patternMembers | importSpecifiers | exportSpecifiers | enumMembers => "\x7d"
  | typeParameters | typeArguments => ">"

/-- Whether an item may be left out between two commas. -/
def holes : Items → Bool
  | elements | arguments | members | patternElements | patternMembers => true
  | _ => false

end Items

/-- The statements after which a sequence of statements ends. -/
inductive Ending where
  /-- The end of the source. -/
  | source
  /-- A closing brace. -/
  | brace
  /-- A closing brace or the next case. -/
  | case
  deriving DecidableEq

/-- What is to be read. -/
inductive Goal where
  | statement
  | statements (ending : Ending)
  | declarators (x : Context)
  | cases
  | classMembers
  /-- One expression, or several with commas between them. -/
  | expressions (x : Context)
  | commas (x : Context)
  | expression (x : Context)
  | climb (x : Context) (level : Nat)
  | climbOn (x : Context) (level : Nat) (left : Tree)
  | operand (x : Context)
  | constructed (x : Context)
  | suffixes (x : Context) (calls : Bool) (base : Tree)
  | items (sequence : Items)
  /-- What an assignment or a pattern may bind. -/
  | target
  | block (operator : Bool)
  | stringParts (quote : Char)
  | templateParts
  | decorators
  | modifiers (words : List String)
  | element
  | elementParts
  | attributes
  | type (ends : Bool)
  | typeOn (ends : Bool) (left : Tree)
  | typeSuffixes (ends : Bool) (base : Tree)
  | typeList (ends : Bool)
  | heritage
  /-- Tokens up to the bracket that closes the innermost open one. -/
  | balanced
  | dotted (base : Tree)

/-- How goals are read: with types or without, strictly or with repairs. -/
structure Grammar where
  typed : Bool
  lenient : Bool
  sub : Goal → Reader (List Tree)

namespace Grammar

/-- The goal that is one tree. -/
def one (G : Grammar) (g : Goal) : Reader Tree := do
  match ← G.sub g with
  | [t] => return t
  | _ => Reader.fail

/-- The setting of a statement's end. -/
def setting (G : Grammar) (operator : Bool) : Semicolon.Setting := ⟨G.typed, operator, false⟩

/-- Whether an expression ends here because its line does. -/
def endsHere (G : Grammar) (x : Context) : Reader Bool :=
  if x.ends then Reader.endsHere (G.setting true) else return false

end Grammar

/-- A sequence of items up to its closing mark, which is left unread. -/
def itemsOf (G : Grammar) (sequence : Items) (item : Reader Tree) : Reader (List Tree) := do
  let closing := sequence.closing
  let cs ← Reader.ahead
  if closing.toList.isPrefixOf cs then return []
  else if Reader.startsWithMark "," cs then
    if sequence.holes then return (← Reader.mark ",") :: (← G.sub (.items sequence))
    else Reader.fail
  else
    let first ← item
    let cs ← Reader.ahead
    if Reader.startsWithMark "," cs then
      return first :: (← Reader.mark ",") :: (← G.sub (.items sequence))
    else if closing.toList.isPrefixOf cs then return [first]
    else Reader.fail

end OptionTypes.Syntax
