import OptionTypes.Syntax.Grammar.Expression
import OptionTypes.Syntax.Grammar.Module

/-!
# Statements

A statement is told by the word or mark that it begins with; everything else is an expression or
a labelled statement. With types there are further declarations, which begin with words that are
also ordinary names: they are declarations only if they can be read as such.
-/

namespace OptionTypes.Syntax.Statement

open Reader

/-! ## Declarations of names -/

/-- The equals sign and the value of a declared name. Where mistakes are repaired, a value that is
missing leaves the sign as a fault. -/
def initializer (G : Grammar) (x : Context) : Reader (List Tree) := do
  let sign ← mark "="
  let value : Reader (List Tree) := do
    return [sign, (← G.one (.expression x)).withField .value]
  let missing : Reader (List Tree) := do
    if G.lenient && (← atMark ";") then
      return [.node .fault none sign.start sign.stop false [sign]]
    else fail
  if G.lenient then either value missing else value

/-- One declared name with its type and its value. -/
def declarator (G : Grammar) (x : Context) : Reader Tree := do
  let name := (← Pattern.binding G).withField .name
  let definite ← if G.typed then mark? "!" else pure []
  let type ← TypeGrammar.clause? G x.ends
  let value ← if ← atMark "=" then initializer G x else pure []
  return branch .variableDeclarator ([name] ++ definite ++ type ++ value)

/-- Declared names with commas between them. -/
def declarators (G : Grammar) (x : Context) : Reader (List Tree) := do
  let first ← declarator G x
  if ← atMark "," then return first :: (← mark ",") :: (← G.sub (.declarators x))
  else return [first]

/-- The word that declares names. -/
def declaringWord : Reader (Tree × Kind) := do
  let cs ← ahead
  if startsWithWord "var" cs then return (← keyword "var", .variableDeclaration)
  else if startsWithWord "let" cs then
    return ((← keyword "let").withField .kind, .lexicalDeclaration)
  else return ((← keyword "const").withField .kind, .lexicalDeclaration)

/-- Whether the last of some declarators has a value. -/
def endsInValue (ts : List Tree) : Bool :=
  match ts.getLast? with
  | some t => (t.child? .value).isSome
  | none => false

/-- Declared names with their word and semicolon. -/
def bindings (G : Grammar) (x : Context) : Reader Tree := do
  let (word, kind) ← declaringWord
  let names ← G.sub (.declarators x)
  if x.ends then statement kind (G.setting (endsInValue names)) (word :: names)
  else return branch kind (word :: names ++ [← mark ";"])

/-- Whether `let` declares names here, and is not a name itself. -/
def letDeclares (cs : List Char) : Bool :=
  let after := (Cursor.atStart (cs.drop 3)).skip.rest
  (after.head?.map fun c => c = '[' || c = '\x7b').getD false
    || (Lexeme.word after ≠ 0 && !startsWithWord "in" after && !startsWithWord "of" after
      && !startsWithWord "instanceof" after)

/-! ## Control flow -/

/-- Parentheses around an expression, in a part of a statement. -/
def condition (G : Grammar) (f : Field) : Reader Tree := do
  let opening ← mark "("
  let inside ← G.sub (.expressions .inner)
  return (branch .parenthesizedExpression (opening :: inside ++ [← mark ")"])).withField f

/-- A statement as a part of another one. -/
def substatement (G : Grammar) (f : Field) : Reader Tree := do
  return (← G.one .statement).withField f

/-- A choice between statements. -/
def if_ (G : Grammar) : Reader Tree := do
  let word ← keyword "if"
  let test ← condition G .condition
  let yes ← substatement G .consequence
  if ← atWord "else" then
    let other ← keyword "else"
    let no := branch .elseClause [other, ← G.one .statement]
    return branch .ifStatement [word, test, yes, no.withField .alternative]
  else return branch .ifStatement [word, test, yes]

/-- The cases of a switch up to the closing brace. -/
def cases (G : Grammar) : Reader (List Tree) := do
  if ← atMark "\x7d" then return []
  else
    let head ←
      if ← atWord "case" then do
        let word ← keyword "case"
        let value ← G.sub (.expressions .inner)
        pure (Kind.switchCase, word :: value.map (·.withField .value))
      else do pure (Kind.switchDefault, [← keyword "default"])
    let colon ← mark ":"
    let body ← G.sub (.statements .case)
    let all := branch head.1 (head.2 ++ [colon] ++ body.map (·.withField .body))
    return all :: (← G.sub .cases)

/-- A switch. -/
def switch (G : Grammar) : Reader Tree := do
  let word ← keyword "switch"
  let value ← condition G .value
  let opening ← mark "\x7b"
  let cases ← G.sub .cases
  let body := branch .switchBody (opening :: cases ++ [← mark "\x7d"])
  return branch .switchStatement [word, value, body.withField .body]

/-- The header of a loop over the parts of something, after its parenthesis. -/
def eachHeader (G : Grammar) : Reader (List Tree) := do
  let cs ← ahead
  let declared := startsWithWord "var" cs || startsWithWord "const" cs
    || (startsWithWord "let" cs && letDeclares cs)
  let left ←
    if declared then do
      let (word, _) ← declaringWord
      let name := (← Pattern.binding G).withField .left
      let type ← TypeGrammar.clause? G false
      let value ←
        if ← atMark "=" then do
          let sign ← mark "="
          pure [sign, (← G.one (.expression .header)).withField .value]
        else pure []
      pure ([word.withField .kind, name] ++ type ++ value)
    else if ← atMark "(" then do pure [← condition G .left]
    else do pure [(← G.one .target).withField .left]
  let operator ← if ← atWord "in" then keyword "in" else keyword "of"
  let right ← G.sub (.expressions .inner)
  return left ++ [operator.withField .operator] ++ right.map (·.withField .right)

/-- A loop over the parts of something. -/
def forEach (G : Grammar) : Reader Tree := do
  let word ← keyword "for"
  let await ← keyword? "await"
  let opening ← mark "("
  let header ← eachHeader G
  let closing ← mark ")"
  return branch .forInStatement
    ([word] ++ await ++ [opening] ++ header ++ [closing, ← substatement G .body])

/-- A semicolon alone, as a part of a statement. -/
def empty (f : Field) : Reader Tree := do
  return (branch .emptyStatement [← mark ";"]).withField f

/-- A loop with a start, a condition and a step. -/
def forThree (G : Grammar) : Reader Tree := do
  let word ← keyword "for"
  let opening ← mark "("
  let cs ← ahead
  let start ←
    if startsWithMark ";" cs then do pure [← empty .initializer]
    else if startsWithWord "var" cs || startsWithWord "const" cs
        || (startsWithWord "let" cs && letDeclares cs) then do
      pure [(← bindings G .header).withField .initializer]
    else do
      let inside ← G.sub (.expressions .header)
      pure (inside.map (·.withField .initializer) ++ [← mark ";"])
  let test ←
    if ← atMark ";" then do pure [← empty .condition]
    else do
      let inside ← G.sub (.expressions .inner)
      pure (inside.map (·.withField .condition) ++ [← mark ";"])
  let step ←
    if ← atMark ")" then pure []
    else do pure ((← G.sub (.expressions .inner)).map (·.withField .increment))
  let closing ← mark ")"
  return branch .forStatement
    ([word, opening] ++ start ++ test ++ step ++ [closing, ← substatement G .body])

/-- A loop with its condition in front. -/
def while_ (G : Grammar) : Reader Tree := do
  let word ← keyword "while"
  let test ← condition G .condition
  return branch .whileStatement [word, test, ← substatement G .body]

/-- A loop with its condition at the end. The semicolon after it may be left out anywhere. -/
def do_ (G : Grammar) : Reader Tree := do
  let word ← keyword "do"
  let body ← substatement G .body
  let again ← keyword "while"
  let test ← condition G .condition
  let all := [word, body, again, test]
  if ← passMissing (G.setting false) then return branchTo .doStatement all (← offset)
  else return branch .doStatement (all ++ (← mark? ";"))

/-- Statements with handlers. -/
def try_ (G : Grammar) : Reader Tree := do
  let word ← keyword "try"
  let body ← Callable.body G false
  let handler ←
    if ← atWord "catch" then do
      let word ← keyword "catch"
      let parameter ←
        if ← atMark "(" then do
          let opening ← mark "("
          let name := (← Pattern.binding G).withField .parameter
          let type ← TypeGrammar.clause? G false
          pure ([opening, name] ++ type ++ [← mark ")"])
        else pure []
      let clause := branch .catchClause (word :: parameter ++ [← Callable.body G false])
      pure [clause.withField .handler]
    else pure []
  let finalizer ←
    if ← atWord "finally" then do
      let word ← keyword "finally"
      pure [(branch .finallyClause [word, ← Callable.body G false]).withField .finalizer]
    else pure []
  return branch .tryStatement ([word, body] ++ handler ++ finalizer)

/-- Statements with the members of an object in scope. -/
def with_ (G : Grammar) : Reader Tree := do
  let word ← keyword "with"
  let object ← condition G .object
  return branch .withStatement [word, object, ← substatement G .body]

/-- A jump out of a loop or to its next round. -/
def jump (G : Grammar) (w : String) (kind : Kind) : Reader Tree := do
  let word ← keyword w
  let label ←
    if !(← endsHere (G.setting false)) && (← atAnyWord) then do
      pure [(← anyWord .statementIdentifier).withField .label]
    else pure []
  statement kind (G.setting false) (word :: label)

/-- The end of a function, perhaps with a value. -/
def return_ (G : Grammar) : Reader Tree := do
  let word ← keyword "return"
  if (← endsHere (G.setting false)) || (← atMark ";") then
    statement .returnStatement (G.setting false) [word]
  else
    let value ← G.sub (.expressions .statement)
    statement .returnStatement (G.setting true) (word :: value)

/-- An exception. -/
def throw_ (G : Grammar) : Reader Tree := do
  let word ← keyword "throw"
  let value ← G.sub (.expressions .statement)
  statement .throwStatement (G.setting true) (word :: value)

/-- An expression as a statement. -/
def expression (G : Grammar) : Reader Tree := do
  let value ← G.sub (.expressions .statement)
  statement .expressionStatement (G.setting true) value

/-- A statement with a label. -/
def labeled (G : Grammar) : Reader Tree := do
  let label := (← anyWord .statementIdentifier).withField .label
  let colon ← mark ":"
  return branch .labeledStatement [label, colon, ← substatement G .body]

/-! ## Declarations of the layer of types -/

/-- A name for a type. -/
def typeAlias (G : Grammar) : Reader Tree := do
  let word ← keyword "type"
  let name := (← anyWord .typeIdentifier).withField .name
  let generics ← TypeGrammar.parameters? G
  let sign ← mark "="
  let value := (← G.one (.type true)).withField .value
  statement .typeAliasDeclaration (G.setting false) ([word, name] ++ generics ++ [sign, value])

/-- The shape of an object under a name. -/
def interface (G : Grammar) : Reader Tree := do
  let word ← keyword "interface"
  let name := (← anyWord .typeIdentifier).withField .name
  let generics ← TypeGrammar.parameters? G
  let bases ←
    if ← atWord "extends" then do
      let word ← keyword "extends"
      pure (word :: (← G.sub (.typeList false)))
    else pure []
  let body ← if ← atMark "\x7b" then TypeGrammar.group G else fail
  return branch .interfaceDeclaration
    ([word, name] ++ generics ++ bases ++ [body.withField .body])

/-- A member of an enumeration. -/
def enumMember (G : Grammar) : Reader Tree := do
  let name ← Pattern.key G
  if ← atMark "=" then
    let sign ← mark "="
    return branch .enumAssignment
      [name.withField .name, sign, (← G.one (.expression .inner)).withField .value]
  else return name.withField .name

/-- An enumeration. -/
def enum (G : Grammar) : Reader Tree := do
  let const ← keyword? "const"
  let word ← keyword "enum"
  let name := (← anyWord .identifier).withField .name
  let opening ← mark "\x7b"
  let members ← G.sub (.items .enumMembers)
  let body := (branch .enumBody (opening :: members ++ [← mark "\x7d"])).withField .body
  return branch .enumDeclaration (const ++ [word, name, body])

/-- A module inside a script. -/
def module_ (G : Grammar) (w : String) (kind : Kind) : Reader Tree := do
  let word ← keyword w
  let name ←
    if ← atAnyWord then do
      let base ← anyWord .identifier
      G.one (.dotted base)
    else Literal.string G
  let body ←
    if ← atMark "\x7b" then do pure [← Callable.body G false] else pure []
  if body.isEmpty then statement kind (G.setting false) [word, name.withField .name]
  else return branch kind ([word, name.withField .name] ++ body)

/-- A class that may leave methods to others. -/
def abstractClass (G : Grammar) (decorators : List Tree) : Reader Tree := do
  let word ← keyword "abstract"
  Callable.classOf G .abstractClassDeclaration (decorators ++ [word])

/-- Something that exists elsewhere. -/
def ambient (G : Grammar) : Reader Tree := do
  let word ← keyword "declare"
  let cs ← ahead
  if startsWithWord "global" cs then
    let scope ← keyword "global"
    return branch .ambientDeclaration [word, scope, ← G.one (.block false)]
  else
    let exports : Reader Tree := do
      let scope ← keyword "module"
      let dot ← mark "."
      let name ← anyWord .propertyIdentifier
      let type ← TypeGrammar.clause G true
      statement .ambientDeclaration (G.setting false) [word, scope, dot, name, type]
    let declaration : Reader Tree := do
      let t ← G.one .statement
      let declares := t.is .functionSignature || t.is .functionDeclaration
        || t.is .generatorFunctionDeclaration || t.is .classDeclaration
        || t.is .abstractClassDeclaration || t.is .lexicalDeclaration
        || t.is .variableDeclaration || t.is .moduleDeclaration || t.is .internalModule
        || t.is .typeAliasDeclaration || t.is .enumDeclaration || t.is .interfaceDeclaration
      if declares then return branch .ambientDeclaration [word, t] else fail
    either exports declaration

/-- The declarations that begin with an ordinary name. -/
def typeDeclarations (G : Grammar) : List (String × Reader Tree) :=
  [("type", typeAlias G), ("interface", interface G), ("enum", enum G),
    ("namespace", module_ G "namespace" .internalModule),
    ("module", module_ G "module" .moduleDeclaration),
    ("abstract", abstractClass G []), ("declare", ambient G)]

/-! ## Exports -/

/-- Whether characters begin a declaration. -/
def declares (G : Grammar) (cs : List Char) : Bool :=
  let words := ["function", "class", "var", "let", "const", "async", "@"]
    ++ (if G.typed then (typeDeclarations G).map Prod.fst else [])
  words.any (fun w => startsWithWord w cs) || cs.head? = some '@'

/-- A declaration that is exported. -/
def declaration (G : Grammar) : Reader Tree := do
  let cs ← ahead
  let t ←
    if startsWithWord "function" cs || startsWithWord "async" cs then Callable.declaration G
    else if startsWithWord "class" cs then Callable.classOf G .classDeclaration []
    else if cs.head? = some '@' then do
      let decorators ← G.sub .decorators
      Callable.classOf G .classDeclaration decorators
    else G.one .statement
  if t.is .expressionStatement || t.is .labeledStatement then fail else return t

/-- The standard export of a function or class, which may lack a name. -/
def standardDeclaration (G : Grammar) : Reader Tree := do
  let cs ← ahead
  if startsWithWord "class" cs then
    let t ← Callable.classOf G .classDeclaration []
    if (t.child? .name).isSome then return t else fail
  else declaration G

/-- An export. -/
def exportStatement (G : Grammar) (decorators : List Tree) : Reader Tree := do
  let word ← keyword "export"
  let before := decorators ++ [word]
  let cs ← ahead
  let declared : Reader Tree := do
    return branch .exportStatement (before ++ [(← declaration G).withField .declaration])
  if startsWithMark "*" cs then Module.exportAll G before
  else if startsWithMark "\x7b" cs then Module.exportNames G before
  else if startsWithWord "default" cs then
    Module.exportStandard G before (standardDeclaration G) fun cs =>
      declares G cs && !startsWithWord "let" cs
  else if G.typed then
    if startsWithMark "=" cs then
      let sign ← mark "="
      let value ← G.one (.expression .statement)
      statement .exportStatement (G.setting true) (before ++ [sign, value])
    else if startsWithWord "as" cs then
      let as_ ← keyword "as"
      let scope ← keyword "namespace"
      let name ← anyWord .identifier
      statement .exportStatement (G.setting false) (before ++ [as_, scope, name])
    else if startsWithWord "import" cs then
      let import_ ← keyword "import"
      return branch .exportStatement (before ++ [← Module.importAlias G [import_]])
    else if startsWithWord "type" cs then
      either declared do
        let type ← keyword "type"
        if ← atMark "*" then Module.exportAll G (before ++ [type])
        else Module.exportNames G (before ++ [type])
    else declared
  else if declares G cs then declared
  else fail

/-! ## All statements -/

/-- Statements between braces, or an object as a statement: a labelled statement right after the
brace gives way to an object. -/
def braces (G : Grammar) : Reader Tree := fun c =>
  match Callable.block G false c with
  | .error m =>
    match expression G c with
    | .ok r => .ok r
    | .error n => .error (m.further n)
  | .ok (t, d) =>
    let labeled := match t.operands with
      | first :: _ => first.is .labeledStatement
      | [] => false
    if labeled then
      match expression G c with
      | .ok r => .ok r
      | .error _ => .ok (t, d)
    else .ok (t, d)

/-- Whether a word begins a function declaration here. -/
def asyncFunction (cs : List Char) : Bool :=
  startsWithWord "async" cs
    && (let c := (Cursor.atStart (cs.drop 5))
      startsWithWord "function" c.skip.rest && !c.lineBreakAhead)

/-- A statement that begins with a word. -/
def ofWord (G : Grammar) (cs : List Char) (w : String) : Reader Tree :=
  if w = "var" then bindings G .statement
  else if w = "const" then
    if G.typed then either (bindings G .statement) (enum G) else bindings G .statement
  else if w = "let" && letDeclares cs then bindings G .statement
  else if w = "function" || asyncFunction cs then Callable.declaration G
  else if w = "class" then
    either (do
      let t ← Callable.classOf G .classDeclaration []
      if (t.child? .name).isSome then
        let _ ← passMissing (G.setting false)
        return t
      else fail) (expression G)
  else if w = "if" then if_ G
  else if w = "for" then either (forEach G) (forThree G)
  else if w = "while" then while_ G
  else if w = "do" then do_ G
  else if w = "switch" then switch G
  else if w = "try" then try_ G
  else if w = "with" then with_ G
  else if w = "break" then jump G "break" .breakStatement
  else if w = "continue" then jump G "continue" .continueStatement
  else if w = "debugger" then do
    let word ← keyword "debugger"
    statement .debuggerStatement (G.setting false) [word]
  else if w = "return" then return_ G
  else if w = "throw" then throw_ G
  else if w = "import" then
    let after := (Cursor.atStart (cs.drop 6)).skip.rest
    if after.head? = some '(' || after.head? = some '.' then expression G
    else Module.importStatement G
  else if w = "export" then exportStatement G []
  else
    let plain : Reader Tree := do
      if ← succeeds (do let _ ← anyWord .identifier; mark ":") then labeled G else expression G
    match (if G.typed then (typeDeclarations G).find? fun (name, _) => name = w else none) with
    | some (_, declaration) => either declaration plain
    | none => plain

/-- A statement. -/
def statement_ (G : Grammar) : Reader Tree := do
  let cs ← ahead
  if startsWithMark "\x7b" cs then braces G
  else if startsWithMark ";" cs then return branch .emptyStatement [← mark ";"]
  else if cs.head? = some '@' then
    let decorators ← G.sub .decorators
    if ← atWord "export" then exportStatement G decorators
    else if ← atWord "abstract" then abstractClass G decorators
    else Callable.classOf G .classDeclaration decorators
  else if Lexeme.word cs ≠ 0 then ofWord G cs (String.ofList (wordAt cs))
  else expression G

/-- Statements up to what ends their sequence. -/
def statements (G : Grammar) (ending : Ending) : Reader (List Tree) := do
  let cs ← ahead
  let stop :=
    match ending with
    | .source => cs.isEmpty
    | .brace => cs.head? = some '\x7d'
    | .case => cs.head? = some '\x7d' || startsWithWord "case" cs || startsWithWord "default" cs
  if stop then return []
  else
    let first ← G.one .statement
    return first :: (← G.sub (.statements ending))

end OptionTypes.Syntax.Statement
