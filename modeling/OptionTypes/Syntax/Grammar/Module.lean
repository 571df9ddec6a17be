import OptionTypes.Syntax.Grammar.Callable

/-!
# Imports and exports

What a script takes from other modules and what it gives away. With types the word `type` or
`typeof` restricts a whole statement or a single name to the layer of types.
-/

namespace OptionTypes.Syntax.Module

open Reader

/-- The name of something in a module: a word or a string. -/
def exportedName (G : Grammar) : Reader Tree := do
  if ← atAnyWord then anyWord .identifier else Literal.string G

/-- A name and, after `as`, another one. -/
def renamed (G : Grammar) (before : List Tree) (kind : Kind) : Reader Tree := do
  let name := (← exportedName G).withField .name
  if ← atWord "as" then
    let word ← keyword "as"
    return branch kind
      (before ++ [name, word, (← exportedName G).withField .alternativeName])
  else return branch kind (before ++ [name])

/-- Whether a name of the layer of types comes next: the word is followed by another name. -/
def atTypeOnly (G : Grammar) (w : String) : Reader Bool := do
  let cs ← ahead
  if !G.typed || !startsWithWord w cs then return false
  else
    let after := (Cursor.atStart (cs.drop w.length)).skip.rest
    if Lexeme.word after = 0 then return false
    else if startsWithWord "as" after then
      let beyond := (Cursor.atStart (after.drop 2)).skip.rest
      return startsWithWord "as" beyond
        || !(Lexeme.word beyond ≠ 0)
    else return true

/-- An imported or exported name, with a word in front that restricts it to types. -/
def specifier (G : Grammar) (kind : Kind) : Reader Tree := do
  if ← atTypeOnly G "type" then renamed G [← keyword "type"] kind
  else if ← atTypeOnly G "typeof" then renamed G [← keyword "typeof"] kind
  else renamed G [] kind

/-- The word `from` and the source of a module. -/
def fromClause (G : Grammar) : Reader (List Tree) := do
  let word ← keyword "from"
  return [word, (← Literal.string G).withField .source]

/-- Attributes of an imported module. -/
def attributes? (G : Grammar) : Reader (List Tree) := do
  if ← atWord "with" then
    let word ← keyword "with"
    let opening ← mark "\x7b"
    let members ← G.sub (.items .members)
    let object := branch .object (opening :: members ++ [← mark "\x7d"])
    return [branch .importAttribute [word, object]]
  else return []

/-- All names of a module under one, or a list of names. -/
def names (G : Grammar) : Reader Tree := do
  if ← atMark "*" then
    let star ← mark "*"
    let word ← keyword "as"
    return branch .namespaceImport [star, word, ← anyWord .identifier]
  else
    let opening ← mark "\x7b"
    let items ← G.sub (.items .importSpecifiers)
    return branch .namedImports (opening :: items ++ [← mark "\x7d"])

/-- What is imported: a standard name, further names, or both. -/
def importClause (G : Grammar) : Reader Tree := do
  if ← atAnyWord then
    let name ← anyWord .identifier
    if ← atMark "," then
      let comma ← mark ","
      return branch .importClause [name, comma, ← names G]
    else return branch .importClause [name]
  else return branch .importClause [← names G]

/-- A name that stands for another module or a part of one. -/
def importAlias (G : Grammar) (before : List Tree) : Reader Tree := do
  let name ← anyWord .identifier
  let sign ← mark "="
  if ← succeeds (do let _ ← keyword "require"; mark "(") then
    let word ← keyword "require"
    let opening ← mark "("
    let source := (← Literal.string G).withField .source
    let clause := branch .importRequireClause [name, sign, word, opening, source, ← mark ")"]
    statement .importStatement (G.setting false) (before ++ [clause])
  else
    let base ← anyWord .identifier
    let whole ← G.one (.dotted base)
    statement .importAlias (G.setting false) (before ++ [name, sign, whole])

/-- An import. -/
def importStatement (G : Grammar) : Reader Tree := do
  let word ← keyword "import"
  let finish (parts : List Tree) : Reader Tree := do
    let attributes ← attributes? G
    statement .importStatement (G.setting false) (parts ++ attributes)
  let plain (before : List Tree) : Reader Tree := do
    let clause ← importClause G
    finish (before ++ [clause] ++ (← fromClause G))
  let cs ← ahead
  if cs.head? = some '"' || cs.head? = some '\'' then
    finish [word, (← Literal.string G).withField .source]
  else if G.typed then
    let restricted (w : String) : Reader Tree := do
      let type ← keyword w
      plain [word, type]
    if startsWithWord "typeof" cs then restricted "typeof"
    else if startsWithWord "type" cs then
      either (plain [word]) (either (restricted "type") (importAlias G [word]))
    else either (plain [word]) (importAlias G [word])
  else plain [word]

/-- Exported names between braces. -/
def exportClause (G : Grammar) : Reader Tree := do
  let opening ← mark "\x7b"
  let items ← G.sub (.items .exportSpecifiers)
  return branch .exportClause (opening :: items ++ [← mark "\x7d"])

/-- The source of exported names if there is one. -/
def fromClause? (G : Grammar) : Reader (List Tree) := do
  if ← atWord "from" then fromClause G else return []

/-- Everything that a module exports, perhaps under a name. -/
def exportAll (G : Grammar) (before : List Tree) : Reader Tree := do
  let star ← mark "*"
  let all ←
    if ← atWord "as" then do
      let word ← keyword "as"
      pure [branch .namespaceExport [star, word, ← exportedName G]]
    else pure [star]
  let source ← fromClause G
  statement .exportStatement (G.setting false)
    (before ++ all ++ source ++ (← attributes? G))

/-- Exported names, perhaps out of another module. -/
def exportNames (G : Grammar) (before : List Tree) : Reader Tree := do
  let clause ← exportClause G
  let source ← fromClause? G
  statement .exportStatement (G.setting false) (before ++ [clause] ++ source ++ (← attributes? G))

/-- The standard export: a declaration or a value. -/
def exportStandard (G : Grammar) (before : List Tree) (declaration : Reader Tree)
    (declares : List Char → Bool) : Reader Tree := do
  let word ← keyword "default"
  let value : Reader Tree := do
    let t := (← G.one (.expression .statement)).withField .value
    statement .exportStatement (G.setting true) (before ++ [word, t])
  if declares (← ahead) then
    either (do
      let t := (← declaration).withField .declaration
      return branch .exportStatement (before ++ [word, t])) value
  else value

end OptionTypes.Syntax.Module
