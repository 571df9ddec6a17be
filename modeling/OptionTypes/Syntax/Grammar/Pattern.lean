import OptionTypes.Syntax.Grammar.Type

/-!
# Names, patterns and parameters

The keys of members, what a declaration or an assignment binds, and the parameters of functions.
-/

namespace OptionTypes.Syntax.Pattern

open Reader

/-- A name that begins with a hash. -/
def privateName : Reader Tree := do
  match ← ahead with
  | '#' :: rest =>
    let n := Lexeme.word rest
    if n = 0 then fail else leaf (.kind .privatePropertyIdentifier) (n + 1)
  | _ => fail

/-- Whether characters begin a key. -/
def startsKey (cs : List Char) : Bool :=
  match cs with
  | [] => false
  | c :: _ => "\"'[#".toList.contains c || Lexeme.word cs ≠ 0 || Lexeme.number cs ≠ 0

/-- The key of a member: a word, a private name, a string, a number, or an expression between
brackets. -/
def key (G : Grammar) : Reader Tree := do
  let cs ← ahead
  match cs with
  | [] => fail
  | c :: _ =>
    if c = '[' then
      let opening ← mark "["
      let inner ← G.one (.expression .inner)
      return branch .computedPropertyName [opening, inner, ← mark "]"]
    else if c = '"' || c = '\'' then Literal.string G
    else if c = '#' then privateName
    else if Lexeme.word cs ≠ 0 then anyWord .propertyIdentifier
    else Literal.number

/-- The standard value after an equals sign. -/
def standard (G : Grammar) : Reader (Tree × Tree) := do
  let sign ← mark "="
  return (sign, (← G.one (.expression .inner)).withField .right)

/-- A bound target, with a standard value if there is one. -/
def targetWithStandard (G : Grammar) : Reader Tree := do
  let target ← G.one .target
  if ← atMark "=" then
    let (sign, value) ← standard G
    return branch .assignmentPattern [target.withField .left, sign, value]
  else return target

/-- Three dots and a target. -/
def rest (G : Grammar) : Reader Tree := do
  let dots ← mark "..."
  return branch .restPattern [dots, ← G.one .target]

/-- An item of an array pattern. -/
def element (G : Grammar) : Reader Tree := do
  if ← atMark "..." then rest G else targetWithStandard G

/-- A member of an object pattern. -/
def member (G : Grammar) : Reader Tree := do
  if ← atMark "..." then rest G
  else
    let name ← key G
    if ← atMark ":" then
      let colon ← mark ":"
      let value ← targetWithStandard G
      return branch .pairPattern [name.withField .key, colon, value.withField .value]
    else if name.is .propertyIdentifier then
      let short := name.withKind .shorthandPropertyIdentifierPattern
      if ← atMark "=" then
        let (sign, value) ← standard G
        return branch .objectAssignmentPattern [short.withField .left, sign, value]
      else return short
    else fail

/-- A pattern between braces or brackets. -/
def destructuring (G : Grammar) : Reader Tree := do
  if ← atMark "\x7b" then
    let opening ← mark "\x7b"
    let items ← G.sub (.items .patternMembers)
    return branch .objectPattern (opening :: items ++ [← mark "\x7d"])
  else
    let opening ← mark "["
    let items ← G.sub (.items .patternElements)
    return branch .arrayPattern (opening :: items ++ [← mark "]"])

/-- Whether the next token opens a pattern. -/
def atDestructuring : Reader Bool := do return (← atMark "\x7b") || (← atMark "[")

/-- A name or a pattern. -/
def binding (G : Grammar) : Reader Tree := do
  if ← atDestructuring then destructuring G else anyWord .identifier

/-- The kinds that an assignment may bind. -/
def isTarget (G : Grammar) (t : Tree) : Bool :=
  t.is .identifier || t.is .memberExpression || t.is .subscriptExpression
    || t.is .undefinedLiteral || (G.typed && (t.is .nonNullExpression || t.is .asExpression))

/-- What an assignment may bind: a pattern, a name, or a member of something. -/
def target (G : Grammar) : Reader Tree := do
  if ← atDestructuring then destructuring G
  else
    let base ←
      if ← atWord "this" then leaf (.kind .thisExpression) 4 else anyWord .identifier
    let whole ← G.one (.suffixes .inner true base)
    if isTarget G whole || (G.typed && whole.is .thisExpression) then return whole else fail

/-- The words that say who may use a member. -/
def accessWords : List String := ["public", "private", "protected"]

/-- Whether a word is a modifier here: what it modifies follows. -/
def modifies (w : String) (cs : List Char) : Bool :=
  startsWithWord w cs
    && (let after := (Cursor.atStart (cs.drop w.length)).skip.rest
      startsKey after || (after.head?.map ("*.\x7b".toList.contains ·)).getD false)

/-- A modifier as a node or a token. -/
def modifier (w : String) : Reader Tree := do
  let word ← keyword w
  if accessWords.contains w then return branch .accessibilityModifier [word]
  else if w = "override" then return branch .overrideModifier [word]
  else return word

/-- The modifiers that come next, out of a list of words. -/
def modifiers (G : Grammar) (words : List String) : Reader (List Tree) := do
  let cs ← ahead
  match words.find? fun w => modifies w cs with
  | none => return []
  | some w => return (← modifier w) :: (← G.sub (.modifiers words))

/-- The modifiers of a parameter. -/
def parameterWords : List String := accessWords ++ ["override", "readonly"]

/-- A parameter of a script with types. -/
def typedParameter (G : Grammar) : Reader Tree := do
  let decorators ← G.sub .decorators
  let words ← G.sub (.modifiers parameterWords)
  let name ← if ← atMark "..." then rest G else binding G
  let question ← if (← ahead).head? = some '?' then do pure [← part "?"] else pure []
  let type ← TypeGrammar.clause? G false
  let value ←
    if ← atMark "=" then do
      let (sign, value) ← standard G
      pure [sign, value.withField .value]
    else pure []
  let kind := if question.isEmpty then Kind.requiredParameter else Kind.optionalParameter
  return branch kind (decorators ++ words ++ [name.withField .pattern] ++ question ++ type ++ value)

/-- A parameter. -/
def parameter (G : Grammar) : Reader Tree :=
  if G.typed then typedParameter G else element G

/-- The parameters of a function between parentheses. -/
def parameters (G : Grammar) : Reader Tree := do
  let opening ← mark "("
  let items ← G.sub (.items .parameters)
  return (branch .formalParameters (opening :: items ++ [← mark ")"])).withField .parameters

end OptionTypes.Syntax.Pattern
