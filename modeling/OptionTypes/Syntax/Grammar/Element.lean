import OptionTypes.Syntax.Grammar.Literal

/-!
# Elements

Elements of markup within a script. Between the tags of an element text stands as it is, so nothing
is skipped there.
-/

namespace OptionTypes.Syntax.Element

open Reader

/-- Whether a character may stand in the name of a tag or an attribute. -/
def isNamePart (c : Char) : Bool :=
  c.isAlphanum || c = '_' || c = '$' || c = '-' || c = '.' || c = ':'

/-- The name of a tag or an attribute. -/
def name : Reader Tree := do
  let cs ← ahead
  let n := (cs.takeWhile isNamePart).length
  if n = 0 || (cs.head?.map Char.isDigit).getD true then fail else leaf (.kind .identifier) n

/-- An expression between braces, which may be left out. -/
def expression (G : Grammar) : Reader Tree := do
  let opening ← mark "\x7b"
  let inside ←
    if ← atMark "\x7d" then pure []
    else if ← atMark "..." then do
      let dots ← mark "..."
      pure [branch .spreadElement [dots, ← G.one (.expression .inner)]]
    else G.sub (.expressions .inner)
  return branch .jsxExpression (opening :: inside ++ [← mark "\x7d"])

/-- The value of an attribute. -/
def attributeValue (G : Grammar) : Reader Tree := do
  match ← ahead with
  | [] => fail
  | c :: rest =>
    if c = '"' || c = '\'' then
      let n := (rest.takeWhile (· != c)).length
      if n = rest.length then fail else leaf (.kind .string) (n + 2)
    else if c = '\x7b' then expression G
    else G.one .element

/-- One attribute of a tag. -/
def attribute_ (G : Grammar) : Reader Tree := do
  if ← atMark "\x7b" then return (← expression G).withField .jsxAttribute
  else
    let name ← name
    let value ← if ← atMark "=" then do pure [← mark "=", ← attributeValue G] else pure []
    return (branch .jsxAttribute (name :: value)).withField .jsxAttribute

/-- The attributes of a tag. -/
def attributes (G : Grammar) : Reader (List Tree) := do
  let cs ← ahead
  if cs.head? = some '>' || cs.head? = some '/' then return []
  else return (← attribute_ G) :: (← G.sub .attributes)

/-- What stands between the tags of an element. -/
def parts (G : Grammar) : Reader (List Tree) := do
  match ← behind with
  | [] => fail
  | '<' :: rest =>
    if (Cursor.atStart rest).skip.rest.head? = some '/' then return []
    else return (← G.one .element) :: (← G.sub .elementParts)
  | '\x7b' :: _ => return (← expression G) :: (← G.sub .elementParts)
  | cs =>
    let n := (cs.takeWhile fun c => c != '<' && c != '\x7b').length
    return (← leafHere (.kind .jsxText) n) :: (← G.sub .elementParts)

/-- An element: one tag that closes itself, or two tags with what stands between them. -/
def element (G : Grammar) : Reader Tree := do
  let opening ← part "<"
  let cs ← ahead
  let tag ← if cs.head? = some '>' then pure [] else do pure [(← name).withField .name]
  let attributes ← G.sub .attributes
  if (← ahead).head? = some '/' then
    let slash ← part "/"
    return branch .jsxSelfClosingElement
      (opening :: tag ++ attributes ++ [slash, ← part ">"])
  else
    let first := branch .jsxOpeningElement (opening :: tag ++ attributes ++ [← part ">"])
    let inside ← G.sub .elementParts
    let less ← part "<"
    let slash ← part "/"
    let closing ←
      if (← ahead).head? = some '>' then pure [] else do pure [(← name).withField .name]
    let last := branch .jsxClosingElement ([less, slash] ++ closing ++ [← part ">"])
    return branch .jsxElement
      ([first.withField .openTag] ++ inside ++ [last.withField .closeTag])

end OptionTypes.Syntax.Element
