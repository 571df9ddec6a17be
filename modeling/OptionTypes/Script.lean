import OptionTypes.Syntax.Dialect
import OptionTypes.Text.Blank
import OptionTypes.Text.Quoted

/-!
# Scripts

A script is a source without types together with its tree, in which nothing is at fault. Reading a
text that is none reports the first place where it does not fit the grammar.
-/

namespace OptionTypes

open Syntax

/-- A source and its tree. -/
structure Script where
  source : Bytes
  root : Tree

/-- The first place where a text does not fit the grammar: what is missing there, if it is that,
and the text at the place. -/
structure SyntaxFault where
  missing : Option String
  line : Nat
  column : Nat
  snippet : Text
  deriving DecidableEq

namespace SyntaxFault

/-- The longest piece of text that a message shows. -/
def snippetLimit : Nat := 40

/-- The message without the place. -/
def summary : Text := "Source could not be parsed as JavaScript"

/-- The wording of a fault. -/
def message (f : SyntaxFault) : Text :=
  let what : Text :=
    match f.missing with
    | some name => Text.ofString "missing '" ++ Text.ofString name ++ "'"
    | none => "unexpected syntax"
  let detail : Text :=
    if f.snippet.isEmpty then []
    else Text.ofString " near " ++ Quoted.quote (f.snippet.take snippetLimit)
  summary ++ ": " ++ what ++ " at line " ++ Text.ofNat f.line ++ ", column " ++ Text.ofNat f.column
    ++ detail

/-- The fault at a node of a source. -/
def atNode (source : Bytes) (t : Tree) : SyntaxFault where
  missing := if t.missing then some t.name else none
  line := Place.lineOf source t.start
  column := Place.columnOf source t.start
  snippet := Blank.firstLine (t.text source)

end SyntaxFault

/-- Why a text is no script. -/
inductive SourceError where
  | encoding (e : Utf8.EncodeError)
  | fault (f : SyntaxFault)
  deriving DecidableEq

/-- The script that a text is. -/
def Script.read (text : Text) : Except SourceError Script := do
  let chars ← (Utf8.charsOfText text).mapError .encoding
  let source := Utf8.encode chars
  let root := Dialect.javascript.parse chars
  match firstFault? root with
  | some t => .error (.fault (.atNode source t))
  | none => return ⟨source, root⟩

end OptionTypes
