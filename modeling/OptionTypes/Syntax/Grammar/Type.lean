import OptionTypes.Syntax.Grammar.Literal

/-!
# Types

The types of a script that has them. Types are read to find out where they end and whether they are
types at all; the inside of an object type, a tuple or a parameter list is passed as a balanced
sequence of tokens.

A line end may end a type. A bracket on the next line then begins a new statement.
-/

namespace OptionTypes.Syntax.TypeGrammar

open Reader

/-- The brackets that open a group, with those that close it. -/
def groups : List (String × String) := [("(", ")"), ("[", "]"), ("\x7b", "\x7d")]

/-- A group between brackets, its inside passed without a look at the grammar. -/
def group (G : Grammar) : Reader Tree := do
  let cs ← ahead
  match groups.find? fun (opening, _) => opening.toList.isPrefixOf cs with
  | none => fail
  | some (opening, closing) =>
    let first ← part opening
    let inside ← G.sub .balanced
    return branch .typeExpression (first :: inside ++ [← part closing])

/-- Tokens up to a bracket that closes. -/
def balanced (G : Grammar) : Reader (List Tree) := do
  match ← ahead with
  | [] => fail
  | c :: rest =>
    if ")]\x7d".toList.contains c then return []
    else
      let first ←
        if "([\x7b".toList.contains c then group G
        else if c = '"' || c = '\'' then Literal.string G
        else if c = '\x60' then Literal.template G
        else if Lexeme.word (c :: rest) ≠ 0 then anyWord .typeIdentifier
        else if Lexeme.number (c :: rest) ≠ 0 then Literal.number
        else leaf (.token (String.singleton c)) 1
      return first :: (← G.sub .balanced)

/-- Types between angle brackets. -/
def arguments (G : Grammar) : Reader Tree := do
  let opening ← part "<"
  let types ← G.sub (.items .typeArguments)
  if types.isEmpty then fail
  else return (branch .typeArguments (opening :: types ++ [← part ">"])).withField .typeArguments

/-- What a type parameter is bounded by, after a word or a colon. -/
def bound? (G : Grammar) : Reader (List Tree) := do
  if ← atWord "extends" then return [← keyword "extends", ← G.one (.type false)]
  else if ← atMark ":" then return [← mark ":", ← G.one (.type false)]
  else return []

/-- A declared type parameter: modifiers, a name, a bound and a default. -/
def parameter (G : Grammar) : Reader Tree := do
  let modifiers ← G.sub (.modifiers ["const", "in", "out"])
  let name ← anyWord .typeIdentifier
  let bound ← bound? G
  let standard ← if ← atMark "=" then do pure [← mark "=", ← G.one (.type false)] else pure []
  return branch .typeExpression (modifiers ++ [name] ++ bound ++ standard)

/-- Type parameters between angle brackets. -/
def parameters (G : Grammar) : Reader Tree := do
  let opening ← part "<"
  let items ← G.sub (.items .typeParameters)
  return (branch .typeParameters (opening :: items ++ [← part ">"])).withField .typeParameters

/-- Type parameters if they come next. -/
def parameters? (G : Grammar) : Reader (List Tree) := do
  if G.typed && (← ahead).head? = some '<' then return [← parameters G] else return []

/-- The type of a function. -/
def function (G : Grammar) (ends : Bool) : Reader Tree := do
  let abstract ← keyword? "abstract"
  let new ← keyword? "new"
  let generics ← if ← atMark "<" then do pure [← parameters G] else pure []
  let formals ← if (← ahead).head? = some '(' then group G else fail
  let arrow ← mark "=>"
  let asserts ← keyword? "asserts"
  let result ← G.one (.type ends)
  let predicate ←
    if ← atWord "is" then do pure [← keyword "is", ← G.one (.type ends)] else pure []
  return branch .typeExpression
    (abstract ++ new ++ generics ++ [formals, arrow] ++ asserts ++ [result] ++ predicate)

/-- Words before a type that belong to it. -/
def operators : List String := ["keyof", "unique", "readonly", "typeof", "infer", "asserts"]

/-- The rest of a dotted name. -/
def dotted (G : Grammar) (base : Tree) : Reader (List Tree) := do
  if ← atMark "." then
    let dot ← mark "."
    let name ← if (← ahead).head? = some '#' then leaf (.token "#") 1 else anyWord .typeIdentifier
    G.sub (.dotted (branch .nestedIdentifier [base, dot, name]))
  else return [base]

/-- A dotted name with type arguments. -/
def named (G : Grammar) : Reader Tree := do
  let word ← anyWord .typeIdentifier
  let name ← G.one (.dotted word)
  let cs ← ahead
  if cs.head? = some '<' then
    match ← attempt (arguments G) with
    | some args => return branch .typeExpression [name, args]
    | none => return name
  else return name

/-- A type without operators after it. -/
def primary (G : Grammar) (ends : Bool) : Reader Tree := do
  let cs ← ahead
  match cs with
  | [] => fail
  | c :: rest =>
    if c = '(' then
      either (function G ends) do
        let opening ← mark "("
        let inner ← G.one (.type false)
        return branch .typeExpression [opening, inner, ← mark ")"]
    else if c = '<' then function G ends
    else if c = '\x7b' || c = '[' then group G
    else if c = '"' || c = '\'' then Literal.string G
    else if c = '\x60' then Literal.template G
    else if c = '?' then
      let sign ← part "?"
      return branch .typeExpression [sign, ← G.one (.type ends)]
    else if c = '*' then leaf (.token "*") 1
    else if c = '-' || c = '+' then
      let sign ← leaf (.token (String.singleton c)) 1
      return branch .typeExpression [sign, ← Literal.number]
    else if Lexeme.number (c :: rest) ≠ 0 then Literal.number
    else
      let w := String.ofList (wordAt cs)
      if w = "new" || w = "abstract" then either (function G ends) (named G)
      else if w = "import" then
        let callee ← keyword "import"
        let source ← group G
        G.one (.dotted (branch .typeExpression [callee, source]))
      else if operators.contains w then
        either (do
          let operator ← keyword w
          return branch .typeExpression [operator, ← G.one (.type ends)]) (named G)
      else named G

/-- Brackets after a type: arrays and look-ups. -/
def suffixes (G : Grammar) (ends : Bool) (base : Tree) : Reader (List Tree) := do
  let stop ← if ends then endsHere (G.setting false) else pure false
  if !stop && (← ahead).head? = some '[' then
    let brackets ← group G
    G.sub (.typeSuffixes ends (branch .typeExpression [base, brackets]))
  else return [base]

/-- What combines a type with the next one: unions, intersections, conditions. -/
def typeOn (G : Grammar) (ends : Bool) (left : Tree) : Reader (List Tree) := do
  let cs ← ahead
  if startsWithMark "|" cs || startsWithMark "&" cs then
    let operator ← leaf (.token (String.ofList (cs.take 1))) 1
    let right ← primary G ends
    let right ← G.one (.typeSuffixes ends right)
    G.sub (.typeOn ends (branch .typeExpression [left, operator, right]))
  else
    let stop ← if ends then endsHere (G.setting false) else pure false
    if !stop && startsWithWord "extends" cs then
      let word ← keyword "extends"
      let bound ← G.one (.type false)
      let question ← part "?"
      let yes ← G.one (.type false)
      let colon ← mark ":"
      let no ← G.one (.type ends)
      return [branch .typeExpression [left, word, bound, question, yes, colon, no]]
    else return [left]

/-- A type. A bar or an ampersand may stand in front. -/
def type (G : Grammar) (ends : Bool) : Reader (List Tree) := do
  let cs ← ahead
  if startsWithMark "|" cs || startsWithMark "&" cs then
    let operator ← leaf (.token (String.ofList (cs.take 1))) 1
    return [branch .typeExpression [operator, ← G.one (.type ends)]]
  else
    let base ← primary G ends
    let base ← G.one (.typeSuffixes ends base)
    either
      (do
        let whole ← G.one (.typeOn ends base)
        return [whole])
      (return [base])

/-- Types with commas between them. -/
def typeList (G : Grammar) (ends : Bool) : Reader (List Tree) := do
  let first ← G.one (.type ends)
  if ← atMark "," then return first :: (← mark ",") :: (← G.sub (.typeList ends))
  else return [first]

/-- A colon and a type. -/
def clause (G : Grammar) (ends : Bool) : Reader Tree := do
  let colon ← mark ":"
  return (branch .typeClause [colon, ← G.one (.type ends)]).withField .type

/-- A colon and a type if they come next. -/
def clause? (G : Grammar) (ends : Bool) : Reader (List Tree) := do
  if G.typed && (← atMark ":") then return [← clause G ends] else return []

/-- What a function returns: a type, or what it finds out about a parameter. -/
def result (G : Grammar) (ends : Bool) : Reader Tree := do
  let colon ← mark ":"
  let asserting : Reader Tree := do
    let word ← keyword "asserts"
    let subject ← anyWord .typeIdentifier
    let predicate ←
      if ← atWord "is" then do pure [← keyword "is", ← G.one (.type ends)] else pure []
    return branch .assertsClause ([colon, word, subject] ++ predicate)
  let predicate : Reader Tree := do
    let subject ← anyWord .typeIdentifier
    let word ← keyword "is"
    return branch .predicateClause [colon, subject, word, ← G.one (.type ends)]
  let plain : Reader Tree := do return branch .typeClause [colon, ← G.one (.type ends)]
  return (← either asserting (either predicate plain)).withField .returnType

/-- What a function returns if it says so. -/
def result? (G : Grammar) (ends : Bool) : Reader (List Tree) := do
  if G.typed && (← atMark ":") then return [← result G ends] else return []

end OptionTypes.Syntax.TypeGrammar
