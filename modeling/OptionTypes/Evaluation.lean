import OptionTypes.Gap
import OptionTypes.Script

/-!
# Evaluation of literals

A schema is evaluated without running anything: objects, lists, strings, templates, numbers, a few
operators and names that a table of symbols knows have values, functions stand for themselves, and
everything else is a gap.

Comments are passed over wherever operands are counted. The mutual definitions follow the tree: one
evaluates a node, the others go through its children.

* `Evaluation.eval` is the value of a node.
* `context` is the innermost member around a node within the innermost object; the gap of an
  unknown name shows it.
-/

namespace OptionTypes.Evaluation

open Syntax

/-- What an evaluation refers to: the source of the tree and the values of names. -/
structure Scope where
  source : Bytes
  symbols : List (Text × Value)

/-- The value of a name. -/
def Scope.find? (s : Scope) (name : Text) : Option Value :=
  (s.symbols.find? fun (k, _) => k = name).map Prod.snd

/-- The result of an evaluation. -/
abbrev Result := Except Failure

/-- A gap. -/
def refuse {α : Type} (g : Gap) : Result α := .error (.gap g)

/-- The value of a name at a node. -/
def lookup (s : Scope) (context : Option Tree) (t : Tree) : Result Value :=
  let name := t.text s.source
  match s.find? name with
  | some v => .ok v
  | none => refuse (.unresolved name ((context.getD t).text s.source))

/-- A text without its first and its last code point. -/
def withoutMarks (t : Text) : Text := (t.drop 1).dropLast

/-- The text that a string denotes. -/
def stringValue (source : Bytes) (t : Tree) : Except Escape.Error Text :=
  Escape.decode (withoutMarks (t.text source))

/-- The text that a piece of a template denotes. -/
def chunk (source : Bytes) (start stop : Nat) : Result Text :=
  (Escape.decode
    (Blank.unifyPairs (Text.ofChars (Utf8.decodeLossy (slice source start stop))))).mapError .escape

/-- The text of a value. -/
def textOf (v : Value) : Result Text := v.toText.mapError .number

/-- The number that a value counts as, if it does. -/
def number? : Value → Option Number
  | .bool b => some (.int (if b then 1 else 0))
  | .number n => some n
  | _ => none

/-- The number that the value of a node counts as. -/
def numberOf (s : Scope) (t : Tree) (v : Value) : Result Number :=
  match number? v with
  | some n => .ok n
  | none => refuse (.notNumber (t.text s.source))

/-- The arithmetic operator of a symbol. -/
def operator? : String → Option Operator
  | "+" => some .add
  | "-" => some .sub
  | "*" => some .mul
  | "/" => some .div
  | "%" => some .rem
  | "**" => some .pow
  | _ => none

/-- The value that the result of an operation is. -/
def ofResult : Arithmetic.Result → Value
  | .number n => .number n.normal
  | .complex re im => .complex re im

/-- Whether a value is a text. -/
def isText : Value → Bool
  | .text _ => true
  | _ => false

/-- A binary operation on the values of two nodes of a node. Texts are joined. -/
def operate (s : Scope) (whole left right : Tree) (op : Operator) (a b : Value) : Result Value :=
  if op = .add && (isText a || isText b) then do return .text ((← textOf a) ++ (← textOf b))
  else do
    let m ← numberOf s left a
    let n ← numberOf s right b
    match Arithmetic.apply op m n with
    | .ok r => return ofResult r
    | .error e => refuse (.arithmetic e (whole.text s.source))

/-- The symbol of an operator among the children of a node. -/
def symbolOf (children : List Tree) : String :=
  match children.find? fun c => c.field = some .operator with
  | some t => t.name
  | none => ""

/-- A unary operation on the value of a node's argument. -/
def operateUnary (s : Scope) (whole : Tree) (symbol : String) (v : Value) : Result Value :=
  match symbol with
  | "!" => .ok (.bool !v.truth)
  | "-" => do return .number (Arithmetic.negate (← numberOf s whole v)).normal
  | "+" => do return .number (← numberOf s whole v)
  | _ => refuse (.operator symbol (whole.text s.source))

/-- Members laid over others by a spread. -/
def spreadInto (s : Scope) (t : Tree) (ms : Members) : Value → Result Members
  | .object new => .ok (Members.insertAll ms new)
  | .null => .ok ms
  | _ => refuse (.spreadIntoObject (t.text s.source))

/-- The items that a value spreads into a list. -/
def spreadItems (s : Scope) (t : Tree) : Value → Result (List Value)
  | .text cs => .ok (cs.map fun c => .text [c])
  | .list vs => .ok vs
  | _ => refuse (.spreadIntoList (t.text s.source))

/-- Whether a child is an operand: named, and no comment. -/
def isOperand (t : Tree) : Bool := t.isNamed && !t.isComment

/-- The name of a kind in a message. -/
def spokenName (t : Tree) : String := t.name.map fun c => if c = '_' then ' ' else c

/-- The operators that do not always look at their right side. -/
inductive Choice where
  | or
  | and
  | coalesce

/-- The choosing operator of a symbol. -/
def choice? : String → Option Choice
  | "||" => some .or
  | "&&" => some .and
  | "??" => some .coalesce
  | _ => none

/-- Whether a choosing operator is satisfied with its left side. -/
def Choice.keepsLeft : Choice → Value → Bool
  | or, v => v.truth
  | and, v => !v.truth
  | coalesce, v => !v.isNull

mutual

/-- The value of a node. -/
def eval (s : Scope) (context : Option Tree) : Tree → Result Value
  | .node label field start stop missing children =>
    let t : Tree := .node label field start stop missing children
    match label with
    | .kind .object => do return .object (← evalMembers s [] children)
    | .kind .array => do return .list (← evalItems s context children)
    | .kind .string => do return .text (← (stringValue s.source t).mapError .escape)
    | .kind .templateString => do
      return .text (← evalParts s context (stop - 1) (start + 1) children)
    | .kind .number => do return .number (← (Literal.parse (t.text s.source)).mapError .number)
    | .kind .trueLiteral => .ok (.bool true)
    | .kind .falseLiteral => .ok (.bool false)
    | .kind .nullLiteral => .ok .null
    | .kind .undefinedLiteral => .ok .null
    | .kind .identifier =>
      if t.text s.source = "undefined" then .ok .null else lookup s context t
    | .kind .parenthesizedExpression => evalFirst s context children
    | .kind .unaryExpression =>
      let symbol := symbolOf children
      if symbol = "void" then .ok .null
      else do operateUnary s t symbol (← evalPart s context .argument children)
    | .kind .binaryExpression =>
      let symbol := symbolOf children
      match choice? symbol with
      | some choice => do
        let left ← evalPart s context .left children
        if choice.keepsLeft left then return left else evalPart s context .right children
      | none =>
        match operator? symbol with
        | none => refuse (.operator symbol (t.text s.source))
        | some op => do
          let left ← evalPart s context .left children
          let right ← evalPart s context .right children
          operate s t ((t.child? .left).getD t) ((t.child? .right).getD t) op left right
    | .kind .arrowFunction => .ok (.function (t.text s.source))
    | .kind .functionExpression => .ok (.function (t.text s.source))
    | .kind .generatorFunction => .ok (.function (t.text s.source))
    | _ => refuse (.unsupported (spokenName t) (t.text s.source))

/-- The value of the first child that plays a part. -/
def evalPart (s : Scope) (context : Option Tree) (f : Field) : List Tree → Result Value
  | [] => .error .incomplete
  | t :: ts => if t.field = some f then eval s context t else evalPart s context f ts

/-- The value of the first operand. -/
def evalFirst (s : Scope) (context : Option Tree) : List Tree → Result Value
  | [] => .error .incomplete
  | t :: ts => if isOperand t then eval s context t else evalFirst s context ts

/-- The key that the first child in a part denotes. -/
def evalKey (s : Scope) (context : Option Tree) (f : Field) : List Tree → Result Text
  | [] => .error .incomplete
  | t :: ts => if t.field = some f then evalKeyOf s context t else evalKey s context f ts

/-- The key that a node denotes. -/
def evalKeyOf (s : Scope) (context : Option Tree) : Tree → Result Text
  | .node label field start stop missing children =>
    let t : Tree := .node label field start stop missing children
    match label with
    | .kind .string => (stringValue s.source t).mapError .escape
    | .kind .number => do
      textOf (.number (← (Literal.parse (t.text s.source)).mapError .number))
    | .kind .computedPropertyName => do textOf (← evalFirst s context children)
    | _ => .ok (t.text s.source)

/-- The members written so far and those of the children of an object. -/
def evalMembers (s : Scope) (before : Members) : List Tree → Result Members
  | [] => .ok before
  | t :: ts =>
    if isOperand t then do evalMembers s (← evalMember s before t) ts else evalMembers s before ts

/-- The members written so far and what one child of an object adds. -/
def evalMember (s : Scope) (before : Members) : Tree → Result Members
  | .node label field start stop missing children =>
    let t : Tree := .node label field start stop missing children
    match label with
    | .kind .pair => do
      let key ← evalKey s (some t) .key children
      let value ← evalPart s (some t) .value children
      return before.insert (.text key) value
    | .kind .shorthandPropertyIdentifier => do
      return before.insert (.text (t.text s.source)) (← lookup s none t)
    | .kind .spreadElement => do spreadInto s t before (← evalFirst s none children)
    | .kind .methodDefinition => do
      let key ← evalKey s none .name children
      return before.insert (.text key) (.function (t.text s.source))
    | _ => refuse (.member (t.text s.source))

/-- The items of a list. -/
def evalItems (s : Scope) (context : Option Tree) : List Tree → Result (List Value)
  | [] => .ok []
  | t :: ts =>
    if t.is .spreadElement then do
      let first ← spreadItems s t (← evalInside s context t)
      return first ++ (← evalItems s context ts)
    else if isOperand t then do
      let first ← eval s context t
      return first :: (← evalItems s context ts)
    else evalItems s context ts

/-- The text of a template from an offset on: its pieces and the texts of its substitutions. -/
def evalParts (s : Scope) (context : Option Tree) (stop : Nat) (start : Nat) :
    List Tree → Result Text
  | [] => chunk s.source start stop
  | t :: ts =>
    if t.is .templateSubstitution then do
      let piece ← chunk s.source start t.start
      let value ← evalInside s context t
      let text ← textOf value
      return piece ++ text ++ (← evalParts s context stop t.stop ts)
    else evalParts s context stop start ts

/-- The value of the first operand inside a node. -/
def evalInside (s : Scope) (context : Option Tree) : Tree → Result Value
  | .node _ _ _ _ _ children => evalFirst s context children

end

/-- The value of an expression. -/
def evaluate (source : Bytes) (symbols : List (Text × Value)) (t : Tree) : Result Value :=
  eval ⟨source, symbols⟩ none t

end OptionTypes.Evaluation
