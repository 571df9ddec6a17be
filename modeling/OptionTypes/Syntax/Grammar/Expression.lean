import OptionTypes.Syntax.Grammar.Callable
import OptionTypes.Syntax.Grammar.Element

/-!
# Expressions

Binary operators are read by climbing: `climb` reads an operand and goes on while the next operator
binds at least as tightly as the level asks. Assignments and arrow functions are operands, because
their left sides are and their right sides take all that follows.

Where a line end may end the expression, every step first asks whether it does.
-/

namespace OptionTypes.Syntax.Expression

open Reader

/-! ## Operators -/

/-- Binary punctuation with its level. -/
def levels : List (String × Nat) :=
  [("??", 1), ("||", 2), ("&&", 3), ("|", 4), ("^", 5), ("&", 6),
    ("==", 7), ("!=", 7), ("===", 7), ("!==", 7),
    ("<", 8), ("<=", 8), (">", 8), (">=", 8),
    ("<<", 9), (">>", 9), (">>>", 9), ("+", 10), ("-", 10),
    ("*", 11), ("/", 11), ("%", 11), ("**", 12)]

/-- The level of `in` and `instanceof`. -/
def relationLevel : Nat := 8

/-- The binary operator at the start of characters and its level. -/
def binaryAt? (x : Context) (cs : List Char) : Option (String × Nat) :=
  if Lexeme.word cs ≠ 0 then
    if startsWithWord "instanceof" cs then some ("instanceof", relationLevel)
    else if startsWithWord "in" cs && !x.noIn then some ("in", relationLevel)
    else none
  else levels.find? fun (m, _) => startsWithMark m cs

/-- The level that the right operand of an operator is read at. -/
def rightLevel (operator : String) (level : Nat) : Nat :=
  if operator = "**" then level else level + 1

/-- Operators that combine with an assignment. -/
def augmenting : List String :=
  ["+=", "-=", "*=", "/=", "%=", "**=", "<<=", ">>=", ">>>=", "&=", "^=", "|=", "&&=", "||=", "??="]

/-- An operand marked as an operator. -/
def operatorLeaf (text : String) (n : Nat) : Reader Tree := do
  return (← leaf (.token text) n).withField .operator

/-- A condition with its two outcomes. -/
def ternary (G : Grammar) (x : Context) (condition : Tree) : Reader Tree := do
  let question ← leaf (.token "?") 1
  let yes := (← G.one (.expression .between)).withField .consequence
  let colon ← mark ":"
  let no := (← G.one (.expression x)).withField .alternative
  return branch .ternaryExpression [condition.withField .condition, question, yes, colon, no]

/-- An expression with its type changed or checked. -/
def casting (G : Grammar) (x : Context) (word : String) (left : Tree) : Reader Tree := do
  let operator ← keyword word
  let type ←
    if word = "as" && (← atWord "const") then keyword "const" else G.one (.type x.ends)
  return branch (if word = "as" then .asExpression else .satisfiesExpression)
    [left, operator, type]

/-- Operators after a left operand, as long as they bind tightly enough. -/
def climbOn (G : Grammar) (x : Context) (level : Nat) (left : Tree) : Reader (List Tree) := do
  if ← G.endsHere x then return [left]
  else
    let cs ← ahead
    match binaryAt? x cs with
    | some (operator, l) =>
      if l < level then return [left]
      else
        let sign ← operatorLeaf operator operator.length
        let right := (← G.one (.climb x (rightLevel operator l))).withField .right
        G.sub (.climbOn x level (branch .binaryExpression [left.withField .left, sign, right]))
    | none =>
      if startsWithMark "?" cs && level ≤ 1 then
        G.sub (.climbOn x level (← ternary G x left))
      else if G.typed && level ≤ relationLevel && startsWithWord "as" cs then
        G.sub (.climbOn x level (← casting G x "as" left))
      else if G.typed && level ≤ relationLevel && startsWithWord "satisfies" cs then
        G.sub (.climbOn x level (← casting G x "satisfies" left))
      else return [left]

/-- An operand and the operators after it that bind at least as tightly as a level. -/
def climb (G : Grammar) (x : Context) (level : Nat) : Reader (List Tree) := do
  let left ← G.one (.operand x)
  G.sub (.climbOn x level left)

/-- Further expressions after commas. -/
def commas (G : Grammar) (x : Context) : Reader (List Tree) := do
  if !(← G.endsHere x) && (← atMark ",") then
    let comma ← mark ","
    let next ← G.one (.expression x)
    return comma :: next :: (← G.sub (.commas x))
  else return []

/-- One expression, or a sequence of them. -/
def expressions (G : Grammar) (x : Context) : Reader (List Tree) := do
  let first ← G.one (.expression x)
  let more ← G.sub (.commas x)
  if more.isEmpty then return [first] else return [branch .sequenceExpression (first :: more)]

/-! ## Operands -/

/-- Parentheses around an expression. With types a type may follow the expression. -/
def parentheses (G : Grammar) : Reader Tree := do
  let opening ← mark "("
  let inside ← G.sub (.expressions .inner)
  let type ← TypeGrammar.clause? G false
  return branch .parenthesizedExpression (opening :: inside ++ type ++ [← mark ")"])

/-- An arrow function after whose result a colon follows where one has to. -/
def typedArrow (G : Grammar) (x : Context) : Reader Tree := do
  let t ← Callable.arrow G x []
  if x.colon && !(← atMark ":") then fail else return t

/-- Parentheses, or the parameters of an arrow function. A colon after parentheses may announce the
type of the result; between a question mark and its colon another colon has to follow then. -/
def parenthesesOrArrow (G : Grammar) (x : Context) : Reader Tree := fun c =>
  match parentheses G c with
  | .error m =>
    match Callable.arrow G x [] c with
    | .ok r => .ok r
    | .error n => .error (m.further n)
  | .ok (t, d) =>
    let after := d.skip.rest
    if startsWithMark "=>" after then Callable.arrow G x [] c
    else if G.typed && startsWithMark ":" after then
      match typedArrow G x c with
      | .ok r => .ok r
      | .error _ => .ok (t, d)
    else .ok (t, d)

/-- A name, or an arrow function with that name as its parameter. -/
def nameOrArrow (G : Grammar) (x : Context) : Reader Tree := do
  if ← succeeds (do let _ ← anyWord .identifier; mark "=>") then Callable.arrowOfName G x []
  else anyWord .identifier

/-- What begins with `async`: a function, an arrow function, or the name. -/
def async (G : Grammar) (x : Context) : Reader Tree := do
  let name := nameOrArrow G x
  let word := keyword "async"
  if ← succeeds (do let _ ← word; if ← G.endsHere x then fail else pure ()) then
    if ← succeeds (do let _ ← word; keyword "function") then Callable.expression G
    else if ← succeeds (do let _ ← word; let _ ← anyWord .identifier; mark "=>") then
      Callable.arrowOfName G x [← word]
    else
      let opens ← succeeds do
        let _ ← word
        let cs ← ahead
        if cs.head? = some '(' || (G.typed && cs.head? = some '<') then pure () else fail
      if opens then either (do Callable.arrow G x [← word]) name else name
  else name

/-- The arguments of a call. -/
def arguments (G : Grammar) : Reader Tree := do
  let opening ← mark "("
  let items ← G.sub (.items .arguments)
  return (branch .arguments (opening :: items ++ [← mark ")"])).withField .arguments

/-- An item of a list or an argument of a call. -/
def element (G : Grammar) : Reader Tree := do
  if ← atMark "..." then
    let dots ← mark "..."
    return branch .spreadElement [dots, ← G.one (.expression .inner)]
  else G.one (.expression .inner)

/-- A new instance, or the target of the constructor that runs. -/
def new (G : Grammar) (x : Context) : Reader Tree := do
  let word ← keyword "new"
  if ← atMark "." then
    let dot ← mark "."
    return branch .metaProperty [word, dot, ← keyword "target"]
  else
    let base := (← G.one (.constructed x)).withField .constructed
    let generics ←
      if G.typed && (← ahead).head? = some '<' then do
        match ← attempt (TypeGrammar.arguments G) with
        | some args => pure [args]
        | none => pure []
      else pure []
    if ← atMark "(" then
      return branch .newExpression ([word, base] ++ generics ++ [← arguments G])
    else return branch .newExpression ([word, base] ++ generics)

/-- What begins with `import`: a call that loads a module, or what is known about this one. -/
def importing : Reader Tree := do
  let word ← keyword "import"
  if ← atMark "." then
    let dot ← mark "."
    return branch .metaProperty [word, dot, ← keyword "meta"]
  else if ← atMark "(" then return word.withKind .importCallee
  else fail

/-- Words that denote a value by themselves. -/
def wordKinds : List (String × Kind) :=
  [("this", .thisExpression), ("super", .superExpression), ("true", .trueLiteral),
    ("false", .falseLiteral), ("null", .nullLiteral), ("undefined", .undefinedLiteral)]

/-- An operand that begins with a word. -/
def wordPrimary (G : Grammar) (x : Context) (w : String) : Reader Tree :=
  match wordKinds.find? fun (name, _) => name = w with
  | some (_, kind) => leaf (.kind kind) w.length
  | none =>
    if w = "function" then Callable.expression G
    else if w = "class" then Callable.classOf G .classExpression []
    else if w = "new" then new G x
    else if w = "import" then importing
    else if w = "async" then async G x
    else nameOrArrow G x

/-- A type in angle brackets before an operand, or a generic arrow function. -/
def angled (G : Grammar) (x : Context) : Reader Tree :=
  if G.typed then
    either (Callable.arrow G x []) do
      let args ← TypeGrammar.arguments G
      return branch .typeAssertion [args, ← G.one (.operand x)]
  else G.one .element

/-- A list between brackets. -/
def array (G : Grammar) : Reader Tree := do
  let opening ← mark "["
  let items ← G.sub (.items .elements)
  return branch .array (opening :: items ++ [← mark "]"])

/-- An object between braces. -/
def object (G : Grammar) : Reader Tree := do
  let opening ← mark "\x7b"
  let members ← G.sub (.items .members)
  return branch .object (opening :: members ++ [← mark "\x7d"])

/-- A class with decorators. -/
def decorated (G : Grammar) : Reader Tree := do
  let decorators ← G.sub .decorators
  Callable.classOf G .classExpression decorators

/-- An operand without operators and suffixes. -/
def primary (G : Grammar) (x : Context) : Reader Tree := do
  let cs ← ahead
  match cs with
  | [] => fail
  | c :: _ =>
    if c = '(' then parenthesesOrArrow G x
    else if c = '[' then array G
    else if c = '\x7b' then object G
    else if c = '"' || c = '\'' then Literal.string G
    else if c = '\x60' then Literal.template G
    else if c = '/' then Literal.regex
    else if c = '<' then angled G x
    else if c = '#' then Pattern.privateName
    else if c = '@' then decorated G
    else if Lexeme.word cs ≠ 0 then wordPrimary G x (String.ofList (wordAt cs))
    else Literal.number

/-! ## Suffixes -/

/-- The name of a member. -/
def memberName : Reader Tree := do
  let name ← if (← ahead).head? = some '#' then Pattern.privateName else anyWord .propertyIdentifier
  return name.withField .property

/-- An expression between brackets. -/
def index (G : Grammar) : Reader (List Tree) := do
  let opening ← mark "["
  let inside ← G.sub (.expressions .inner)
  return opening :: inside.map (·.withField .index) ++ [← mark "]"]

/-- What follows the mark of an optional chain. -/
def optionalSuffix (G : Grammar) (base : Tree) : Reader Tree := do
  let chain := (← leaf (.kind .optionalChain) 2).withField .optionalChain
  if ← atMark "[" then
    return branch .subscriptExpression ([base.withField .object, chain] ++ (← index G))
  else if (← atMark "(") then
    return branch .callExpression [base.withField .callee, chain, ← arguments G]
  else if G.typed && (← ahead).head? = some '<' then
    let args ← TypeGrammar.arguments G
    return branch .callExpression [base.withField .callee, chain, args, ← arguments G]
  else return branch .memberExpression [base.withField .object, chain, ← memberName]

/-- Whether type arguments may end before these characters without a call: what follows cannot
begin an operand. -/
def endsTypeArguments (cs : List Char) : Bool :=
  match cs with
  | [] => true
  | c :: _ =>
    !(Lexeme.word cs ≠ 0 || Lexeme.number cs ≠ 0 || "\"'([\x7b+-!~<>/#@".toList.contains c)
      || startsWithWord "in" cs || startsWithWord "instanceof" cs || startsWithWord "as" cs
      || startsWithWord "satisfies" cs || startsWithWord "of" cs

/-- Type arguments after an operand, with the call that they belong to if there is one. -/
def generic (G : Grammar) (base : Tree) : Reader Tree := do
  let args ← TypeGrammar.arguments G
  let cs ← ahead
  if cs.head? = some '(' then
    return branch .callExpression [base.withField .callee, args, ← arguments G]
  else if cs.head? = some '\x60' then
    return branch .callExpression
      [base.withField .callee, args, (← Literal.template G).withField .arguments]
  else if endsTypeArguments cs then return branch .instantiationExpression [base, args]
  else fail

/-- The suffix of an operand that comes next, if there is one. Calls may be left to what
precedes. -/
def suffix? (G : Grammar) (calls : Bool) (base : Tree) : Reader (Option Tree) := do
  let cs ← ahead
  if startsWithMark "." cs then
    let dot ← mark "."
    return some (branch .memberExpression [base.withField .object, dot, ← memberName])
  else if startsWithMark "?." cs && calls then return some (← optionalSuffix G base)
  else if startsWithMark "[" cs then
    return some (branch .subscriptExpression (base.withField .object :: (← index G)))
  else if startsWithMark "(" cs && calls then
    return some (branch .callExpression [base.withField .callee, ← arguments G])
  else if cs.head? = some '\x60' then
    return some (branch .callExpression
      [base.withField .callee, (← Literal.template G).withField .arguments])
  else if (startsWithMark "++" cs || startsWithMark "--" cs) && calls then
    let operator ← operatorLeaf (String.ofList (cs.take 2)) 2
    return some (branch .updateExpression [base.withField .argument, operator])
  else if G.typed && startsWithMark "!" cs then
    return some (branch .nonNullExpression [base, ← mark "!"])
  else if G.typed && cs.head? = some '<' && calls then attempt (generic G base)
  else return none

/-- An operand with all its suffixes. -/
def suffixes (G : Grammar) (x : Context) (calls : Bool) (base : Tree) : Reader (List Tree) := do
  if ← G.endsHere x then return [base]
  else
    match ← suffix? G calls base with
    | some whole => G.sub (.suffixes x calls whole)
    | none => return [base]

/-- What is constructed by `new`: an operand whose suffixes are no calls. -/
def constructed (G : Grammar) (x : Context) : Reader (List Tree) := do
  let base ← if ← atWord "new" then new G x else primary G x
  G.sub (.suffixes x false base)

/-! ## Assignments and unary operators -/

/-- Whether an assignment may have an operand on its left side. -/
def isAssignable (G : Grammar) (t : Tree) : Bool :=
  Pattern.isTarget G t || t.is .parenthesizedExpression

/-- The assignment that an operand begins, or the operand itself. -/
def assignment (G : Grammar) (x : Context) (left : Tree) : Reader Tree := do
  let cs ← ahead
  if !isAssignable G left then return left
  else if startsWithMark "=" cs then
    let sign ← mark "="
    let right := (← G.one (.expression x)).withField .right
    return branch .assignmentExpression [left.withField .left, sign, right]
  else
    match augmenting.find? fun m => startsWithMark m cs with
    | none => return left
    | some m =>
      let operator ← operatorLeaf m m.length
      let right := (← G.one (.expression x)).withField .right
      return branch .augmentedAssignmentExpression [left.withField .left, operator, right]

/-- The assignment of a pattern. -/
def patternAssignment (G : Grammar) (x : Context) : Reader Tree := do
  let left := (← Pattern.destructuring G).withField .left
  let sign ← mark "="
  let right := (← G.one (.expression x)).withField .right
  return branch .assignmentExpression [left, sign, right]

/-- An operand with its suffixes, or the assignment that it begins. -/
def assignable (G : Grammar) (x : Context) : Reader Tree := do
  let plain : Reader Tree := do
    let base ← primary G x
    let whole ← G.one (.suffixes x true base)
    assignment G x whole
  if ← Pattern.atDestructuring then
    let value : Reader Tree := do
      let t ← plain
      if (t.is .object || t.is .array) && (← atMark "=") then fail else return t
    either value (patternAssignment G x)
  else plain

/-- An operator before its operand. -/
def unary (G : Grammar) (x : Context) (kind : Kind) (operator : String) : Reader Tree := do
  let sign ← operatorLeaf operator operator.length
  return branch kind [sign, (← G.one (.operand x)).withField .argument]

/-- Whether an expression may begin with these characters. -/
def startsOperand (cs : List Char) : Bool :=
  match cs with
  | [] => false
  | c :: _ => !(")]\x7d,;:=?*.&|^%>".toList.contains c)
    && !startsWithWord "in" cs && !startsWithWord "of" cs

/-- What a generator hands out. -/
def yield_ (G : Grammar) (x : Context) : Reader Tree := do
  let word ← keyword "yield"
  if ← G.endsHere x then return branch .yieldExpression [word]
  else if ← atMark "*" then
    let star ← mark "*"
    return branch .yieldExpression [word, star, ← G.one (.expression x)]
  else if startsOperand (← ahead) then
    return branch .yieldExpression [word, ← G.one (.expression x)]
  else return branch .yieldExpression [word]

/-- Punctuation that stands before its operand. -/
def signs : List String := ["!", "~", "-", "+"]

/-- An operand: unary operators, assignments, arrow functions, or a primary with its suffixes. -/
def operand (G : Grammar) (x : Context) : Reader Tree := do
  let cs ← ahead
  if Lexeme.word cs ≠ 0 then
    let w := String.ofList (wordAt cs)
    if w = "typeof" || w = "void" || w = "delete" then unary G x .unaryExpression w
    else if w = "await" then
      let word ← keyword "await"
      return branch .awaitExpression [word, ← G.one (.operand x)]
    else if w = "yield" then yield_ G x
    else assignable G x
  else
    match signs.find? fun m => startsWithMark m cs with
    | some m => unary G x .unaryExpression m
    | none =>
      if startsWithMark "++" cs then unary G x .updateExpression "++"
      else if startsWithMark "--" cs then unary G x .updateExpression "--"
      else assignable G x

end OptionTypes.Syntax.Expression
