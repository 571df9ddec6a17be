import OptionTypes.Syntax.Grammar.Pattern

/-!
# Functions and classes

Whatever has parameters and a body, and the members of objects and classes.
-/

namespace OptionTypes.Syntax.Callable

open Reader

/-- Parameters, and with types also type parameters and the type of the result. -/
def signature (G : Grammar) (ends : Bool) : Reader (List Tree) := do
  let generics ← TypeGrammar.parameters? G
  let formals ← Pattern.parameters G
  return generics ++ [formals] ++ (← TypeGrammar.result? G ends)

/-- Statements between braces. A missing semicolon after them belongs to them; `operator` tells
whether an operator could follow. -/
def block (G : Grammar) (operator : Bool) : Reader Tree := do
  let opening ← mark "\x7b"
  let inside ← G.sub (.statements .brace)
  let closing ← mark "\x7d"
  let _ ← passMissing (G.setting operator)
  return branchTo .statementBlock (opening :: inside ++ [closing]) (← offset)

/-- The body of a function. -/
def body (G : Grammar) (operator : Bool) : Reader Tree := do
  return (← G.one (.block operator)).withField .body

/-- The word `function` and what precedes the name of a function. -/
def head : Reader (List Tree × Bool) := do
  let async ← keyword? "async"
  let word ← keyword "function"
  let star ← mark? "*"
  return (async ++ [word] ++ star, !star.isEmpty)

/-- A function as an expression. -/
def expression (G : Grammar) : Reader Tree := do
  let (words, generator) ← head
  let name ←
    if ← atAnyWord then do pure [(← anyWord .identifier).withField .name] else pure []
  let parts ← signature G false
  let kind := if generator then Kind.generatorFunction else Kind.functionExpression
  return branch kind (words ++ name ++ parts ++ [← body G true])

/-- A function as a declaration. With types it may lack a body. -/
def declaration (G : Grammar) : Reader Tree := do
  let (words, generator) ← head
  let name := (← anyWord .identifier).withField .name
  let parts ← signature G true
  if ← atMark "\x7b" then
    let kind := if generator then Kind.generatorFunctionDeclaration else Kind.functionDeclaration
    return branch kind (words ++ [name] ++ parts ++ [← body G false])
  else if G.typed then
    statement .functionSignature ⟨true, false, true⟩ (words ++ [name] ++ parts)
  else fail

/-- The result of an arrow function: an expression or statements. -/
def arrowBody (G : Grammar) (x : Context) : Reader (List Tree) := do
  let arrow ← mark "=>"
  if ← atMark "\x7b" then return [arrow, ← body G true]
  else return [arrow, (← G.one (.expression x)).withField .body]

/-- An arrow function with one plain parameter. -/
def arrowOfName (G : Grammar) (x : Context) (async : List Tree) : Reader Tree := do
  let name := (← anyWord .identifier).withField .parameter
  return branch .arrowFunction (async ++ [name] ++ (← arrowBody G x))

/-- An arrow function with parameters between parentheses. -/
def arrow (G : Grammar) (x : Context) (async : List Tree) : Reader Tree := do
  let parts ← signature G false
  return branch .arrowFunction (async ++ parts ++ (← arrowBody G x))

/-! ## Members of objects -/

/-- The modifiers of a method. -/
def methodWords : List String := ["static", "async", "get", "set"]

/-- A value as the standard of a field or the value of a key. -/
def value (G : Grammar) (x : Context) : Reader Tree := do
  return (← G.one (.expression x)).withField .value

/-- Whether parameters come next. -/
def atSignature (G : Grammar) : Reader Bool := do
  let cs ← ahead
  return cs.head? = some '(' || (G.typed && cs.head? = some '<')

/-- A key and its value. A value that is missing is marked where mistakes are repaired. -/
def pair (G : Grammar) (name : Tree) : Reader Tree := do
  let colon ← mark ":"
  let start := [name.withField .key, colon]
  if G.lenient && ((← atMark ",") || (← atMark "\x7d")) then
    let n ← offset
    return branch .pair (start ++ [.node (.kind .identifier) (some .value) n n true []])
  else return branch .pair (start ++ [← value G .inner])

/-- A member of an object. -/
def objectMember (G : Grammar) : Reader Tree := do
  if ← atMark "..." then
    let dots ← mark "..."
    return branch .spreadElement [dots, ← G.one (.expression .inner)]
  else
    let decorators ← G.sub .decorators
    let words ← G.sub (.modifiers methodWords)
    let star ← mark? "*"
    let name ← Pattern.key G
    let question ← if G.typed then mark? "?" else pure []
    let before := decorators ++ words ++ star
    if ← atSignature G then
      let parts ← signature G false
      return branch .methodDefinition
        (before ++ [name.withField .name] ++ question ++ parts ++ [← body G false])
    else if !before.isEmpty || !question.isEmpty then fail
    else if ← atMark ":" then pair G name
    else if name.is .propertyIdentifier then
      return name.withKind .shorthandPropertyIdentifier
    else fail

/-! ## Classes -/

/-- A decorator before a class or a member. -/
def decorator (G : Grammar) : Reader Tree := do
  let sign ← part "@"
  let subject ←
    if ← atMark "(" then do
      let opening ← mark "("
      let inner ← G.one (.expression .inner)
      pure (branch .parenthesizedExpression [opening, inner, ← mark ")"])
    else do
      let name ← anyWord .identifier
      let whole ← G.one (.dotted name)
      if (← behind).head? = some '(' then
        let opening ← mark "("
        let items ← G.sub (.items .arguments)
        let args := branch .arguments (opening :: items ++ [← mark ")"])
        pure (branch .callExpression [whole.withField .callee, args.withField .arguments])
      else pure whole
  return (branch .decorator [sign, subject]).withField .decorator

/-- The decorators that come next. -/
def decorators (G : Grammar) : Reader (List Tree) := do
  if (← ahead).head? = some '@' then return (← decorator G) :: (← G.sub .decorators)
  else return []

/-- The modifiers of a class member. -/
def memberWords (G : Grammar) : List String :=
  if G.typed then
    Pattern.accessWords
      ++ ["static", "abstract", "override", "readonly", "declare", "accessor", "async", "get", "set"]
  else ["static", "accessor", "async", "get", "set"]

/-- A block that runs when the class is made. -/
def staticBlock (G : Grammar) : Reader Tree := do
  let word ← keyword "static"
  return (branch .classStaticBlock [word, ← body G false]).withField .member

/-- The index of a class: a key between brackets with its type, and the type of the values. -/
def indexSignature (G : Grammar) (words : List Tree) : Reader Tree := do
  let opening ← mark "["
  let name ← anyWord .identifier
  let colon ← mark ":"
  let key ← G.one (.type false)
  let closing ← mark "]"
  return branch .indexSignature
    (words ++ [opening, name, colon, key, closing] ++ (← TypeGrammar.clause? G true))

/-- The end of a member that has no body. -/
def memberEnd (G : Grammar) (s : Semicolon.Setting) : Reader (List Tree) := do
  if G.typed && (← atMark ",") then return [← mark ","] else semicolon s

/-- A field: its key, its type and its value. -/
def field (G : Grammar) (before : List Tree) (name : Tree) (after : List Tree) :
    Reader (List Tree) := do
  let type ← TypeGrammar.clause? G true
  let value ←
    if ← atMark "=" then do
      let sign ← mark "="
      pure [sign, ← value G .statement]
    else pure []
  let kind := if G.typed then Kind.publicFieldDefinition else Kind.fieldDefinition
  let part := if G.typed then Field.name else Field.property
  let whole := branch kind (before ++ [name.withField part] ++ after ++ type ++ value)
  return whole.withField .member :: (← memberEnd G (G.setting (!value.isEmpty)))

/-- A method: its key, its signature and its body. With types it may lack a body. -/
def method (G : Grammar) (before : List Tree) (name : Tree) (after : List Tree) :
    Reader (List Tree) := do
  let parts ← signature G true
  let all := before ++ [name.withField .name] ++ after ++ parts
  if ← atMark "\x7b" then
    let whole := (branch .methodDefinition (all ++ [← body G false])).withField .member
    return whole :: (← mark? ";")
  else if G.typed then
    let kind :=
      if before.any (·.isToken "abstract") then Kind.abstractMethodSignature
      else Kind.methodSignature
    return (branch kind all).withField .member :: (← memberEnd G ⟨true, false, true⟩)
  else fail

/-- A member of a class and what separates it from the next one. -/
def classMember (G : Grammar) : Reader (List Tree) := do
  let cs ← ahead
  if startsWithMark ";" cs then return [← mark ";"]
  else if startsWithWord "static" cs
      && (Cursor.atStart (cs.drop 6)).skip.rest.head? = some '\x7b' then
    return [← staticBlock G]
  else
    let decorators ← G.sub .decorators
    let words ← G.sub (.modifiers (memberWords G))
    let before := decorators ++ words
    let index : Reader (List Tree) := do
      if !G.typed then fail
      else
        let whole ← indexSignature G before
        return whole.withField .member :: (← memberEnd G (G.setting false))
    let rest : Reader (List Tree) := do
      let star ← mark? "*"
      let name ← Pattern.key G
      let after ← if !G.typed then pure [] else do pure ((← mark? "?") ++ (← mark? "!"))
      if ← atSignature G then method G (before ++ star) name after
      else if star.isEmpty then field G before name after
      else fail
    either index rest

/-- The members of a class up to the closing brace. -/
def classMembers (G : Grammar) : Reader (List Tree) := do
  if ← atMark "\x7d" then return []
  else
    let first ← classMember G
    return first ++ (← G.sub .classMembers)

/-- What a class is derived from, in a script with types: values with type arguments. -/
def heritage (G : Grammar) : Reader (List Tree) := do
  let base ← anyWord .identifier
  let whole ← G.one (.suffixes .inner true base)
  let args ← if (← ahead).head? = some '<' then do pure [← TypeGrammar.arguments G] else pure []
  let first := whole.withField .value :: args
  if ← atMark "," then return first ++ [← mark ","] ++ (← G.sub .heritage) else return first

/-- The clauses between the name of a class and its body. -/
def heritageClauses (G : Grammar) : Reader (List Tree) := do
  if G.typed then
    let extends_ ←
      if ← atWord "extends" then do
        let word ← keyword "extends"
        let bases ← either (G.sub .heritage) (do return [← G.one (.operand .inner)])
        pure [branch .extendsClause (word :: bases)]
      else pure []
    let implements ←
      if ← atWord "implements" then do
        let word ← keyword "implements"
        pure [branch .implementsClause (word :: (← G.sub (.typeList false)))]
      else pure []
    let all := extends_ ++ implements
    if all.isEmpty then return [] else return [branch .classHeritage all]
  else if ← atWord "extends" then
    let word ← keyword "extends"
    return [branch .classHeritage [word, ← G.one (.operand .inner)]]
  else return []

/-- A class. -/
def classOf (G : Grammar) (kind : Kind) (before : List Tree) : Reader Tree := do
  let word ← keyword "class"
  let cs ← ahead
  let named := Lexeme.word cs ≠ 0
    && !startsWithWord "extends" cs && !(G.typed && startsWithWord "implements" cs)
  let name ← if named then do pure [(← anyWord .identifier).withField .name] else pure []
  let generics ← TypeGrammar.parameters? G
  let clauses ← heritageClauses G
  let opening ← mark "\x7b"
  let members ← G.sub .classMembers
  let body := (branch .classBody (opening :: members ++ [← mark "\x7d"])).withField .body
  return branch kind (before ++ [word] ++ name ++ generics ++ clauses ++ [body])

end OptionTypes.Syntax.Callable
