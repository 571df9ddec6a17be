import OptionTypes.Yaml.Scalar
import OptionTypes.Yaml.Tag

/-!
# Tokens of YAML documents

The tokens of a document: what it writes, and the bounds of the blocks that its indents form.

Whether a piece of text is a key is known only when the colon after it is found. So every place
where a key may begin is remembered; the colon then puts the token of the key there, and the bound
of a new block before it where the key is further indented. A key ends on the line where it begins
and has at most 1024 characters.

The tokens are kept with the latest first while a document is read. Where it is malformed they end
with a fault.
-/

namespace OptionTypes.Yaml

/-- A token. -/
inductive Token where
  | directive (d : Directive)
  | documentStart
  | documentEnd
  | sequenceStart
  | mappingStart
  | blockEnd
  | entry
  | key
  | value
  | listOpen
  | listClose
  | objectOpen
  | objectClose
  | comma
  | anchor (name : List Char)
  | repetition (name : List Char)
  | tag (t : WrittenTag)
  | scalar (plain : Bool) (text : Text)
  | fault (e : Error)
  deriving DecidableEq

/-- A place where a key may have begun: the number of tokens before it, and whether only a key can
stand there. -/
structure Candidate where
  before : Nat
  required : Bool
  index : Nat
  line : Nat
  column : Nat

/-- What is known while the tokens of a document are read. -/
structure Scanner where
  place : Place
  tokens : List Token
  /-- The indents of the blocks around the place, innermost first; -1 is that of the document. -/
  indents : List Int
  /-- One candidate for every flow collection around the place and one for the block, innermost
  first. -/
  candidates : List (Option Candidate)
  /-- Whether a key may begin here. -/
  keyAllowed : Bool

namespace Scanner

/-- A scanner at the start of a document. -/
def atStart (cs : List Char) : Scanner := ⟨.atStart cs, [], [], [none], true⟩

/-- The indent of the innermost block. -/
def indent (s : Scanner) : Int := s.indents.head?.getD (-1)

/-- Whether the place is inside a flow collection. -/
def inFlow (s : Scanner) : Bool := 1 < s.candidates.length

/-- The scanner after one more token. -/
def push (t : Token) (s : Scanner) : Scanner := { s with tokens := t :: s.tokens }

/-- The scanner with a token put behind the first `n` ones. -/
def insertAt (n : Nat) (t : Token) (s : Scanner) : Scanner :=
  let later := s.tokens.length - n
  { s with tokens := s.tokens.take later ++ t :: s.tokens.drop later }

/-- The result of a step. -/
abbrev Result := Except Error Scanner

/-- Go on from the place. -/
def run {α : Type} (a : Scan α) (s : Scanner) : Except Error (α × Scanner) := do
  let (x, place) ← a s.place
  return (x, { s with place })

/-- Whether a candidate is too far away to be a key. -/
def isStale (p : Place) (c : Candidate) : Bool := c.line != p.line || 1024 < p.index - c.index

/-- Give up the candidates that are too far away. -/
def dropStale (s : Scanner) : Result := do
  let stale := fun (c : Option Candidate) => (c.map (isStale s.place)).getD false
  if s.candidates.any fun c => stale c && (c.map (·.required)).getD false then .error .malformed
  else return { s with candidates := s.candidates.map fun c => if stale c then none else c }

/-- Give up the candidate of the innermost collection. -/
def dropCandidate (s : Scanner) : Result :=
  match s.candidates with
  | some c :: rest =>
    if c.required then .error .malformed else .ok { s with candidates := none :: rest }
  | _ => .ok s

/-- Remember that a key may begin here. -/
def saveCandidate (s : Scanner) : Result := do
  if !s.keyAllowed then return s
  else
    let s ← s.dropCandidate
    let p := s.place
    let required := !s.inFlow && s.indent == p.column
    let new : Candidate := ⟨s.tokens.length, required, p.index, p.line, p.column⟩
    return { s with candidates := some new :: s.candidates.drop 1 }

/-- End the blocks that are further indented than a column. -/
def unwind (column : Int) (s : Scanner) : Scanner :=
  if s.inFlow then s
  else
    let ended := s.indents.takeWhile fun i => column < i
    { s with
      indents := s.indents.drop ended.length
      tokens := List.replicate ended.length .blockEnd ++ s.tokens }

/-- Whether a block begins at a column, with the indent remembered if so. -/
def addIndent (column : Nat) (s : Scanner) : Bool × Scanner :=
  if s.indent < column then (true, { s with indents := (column : Int) :: s.indents })
  else (false, s)

/-- Begin a block at the place if it is further indented. -/
def openBlock (t : Token) (s : Scanner) : Scanner :=
  let (new, s) := s.addIndent s.place.column
  if new then s.push t else s

/-- Pass blanks, comments and line ends. A line end outside flow collections lets a key begin. -/
def toNextToken : Nat → Scanner → Result
  | 0, _ => .error .malformed
  | n + 1, s => do
    let (broken, s) ← s.run do
      Scan.skipSpaces
      Scan.skipComment
      Scan.lineBreak
    if broken.isEmpty then return s
    else toNextToken n (if s.inFlow then s else { s with keyAllowed := true })

/-- Pass `n` characters and add a token. -/
def passing (n : Nat) (t : Token) (s : Scanner) : Scanner :=
  { s with place := s.place.forward n }.push t

/-- A mark between documents. -/
def documentMark (t : Token) (s : Scanner) : Result := do
  let s ← (s.unwind (-1)).dropCandidate
  return { s with keyAllowed := false }.passing 3 t

/-- A directive. -/
def directive (s : Scanner) : Result := do
  let s ← (s.unwind (-1)).dropCandidate
  let (d, s) ← { s with keyAllowed := false }.run Directive.scan
  return s.push (.directive d)

/-- The opening of a flow collection. -/
def openFlow (t : Token) (s : Scanner) : Result := do
  let s ← s.saveCandidate
  return { s with candidates := none :: s.candidates, keyAllowed := true }.passing 1 t

/-- The end of a flow collection. -/
def closeFlow (t : Token) (s : Scanner) : Result := do
  let s ← s.dropCandidate
  return { s with candidates := s.candidates.drop 1, keyAllowed := false }.passing 1 t

/-- A comma between items. -/
def comma (s : Scanner) : Result := do
  let s ← s.dropCandidate
  return { s with keyAllowed := true }.passing 1 .comma

/-- The dash of an item. -/
def entry (s : Scanner) : Result := do
  if !s.inFlow && !s.keyAllowed then .error .malformed
  else
    let s := if s.inFlow then s else s.openBlock .sequenceStart
    let s ← s.dropCandidate
    return { s with keyAllowed := true }.passing 1 .entry

/-- The question mark of a key. -/
def explicitKey (s : Scanner) : Result := do
  if !s.inFlow && !s.keyAllowed then .error .malformed
  else
    let s := if s.inFlow then s else s.openBlock .mappingStart
    let s ← s.dropCandidate
    return { s with keyAllowed := !s.inFlow }.passing 1 .key

/-- The colon before a value. It makes a key of what it follows if that may be one. -/
def value (s : Scanner) : Result := do
  match s.candidates with
  | some c :: rest =>
    let s := { s with candidates := none :: rest }
    let s := s.insertAt c.before .key
    let (new, s) := if s.inFlow then (false, s) else s.addIndent c.column
    let s := if new then s.insertAt c.before .mappingStart else s
    return { s with keyAllowed := false }.passing 1 .value
  | _ =>
    if !s.inFlow && !s.keyAllowed then .error .malformed
    else
      let s := if s.inFlow then s else s.openBlock .mappingStart
      return { s with keyAllowed := !s.inFlow }.passing 1 .value

/-- The name of an anchor after its mark. -/
def anchorName : Scan (List Char) := do
  Scan.forward 1
  let name ← Scan.name
  Scan.expect fun c => Place.isBlank c || "?:,]\x7d%@\x60".toList.contains c
  return name

/-- A token that may begin a key, and what follows its mark. -/
def starting {α : Type} (a : Scan α) (token : α → Token) (s : Scanner) : Result := do
  let s ← s.saveCandidate
  let (x, s) ← { s with keyAllowed := false }.run a
  return s.push (token x)

/-- A block of lines. -/
def block (folded : Bool) (s : Scanner) : Result := do
  let s ← { s with keyAllowed := true }.dropCandidate
  let (cs, s) ← s.run (Scalar.block folded s.indent)
  return s.push (.scalar false (Text.ofChars cs))

/-- A plain scalar. A key may begin after it if a line ended. -/
def plain (s : Scanner) : Result := do
  let s ← s.saveCandidate
  let least := (s.indent + 1).toNat
  let ((cs, broken), s) ← s.run (Scalar.plain s.inFlow least)
  return { s with keyAllowed := broken }.push (.scalar true (Text.ofChars cs))

/-- The characters that cannot begin a plain scalar, save that three of them can before text. -/
def marks : List Char := "-?:,[]\x7b\x7d#&*!|>'\"%@\x60".toList

/-- Whether a plain scalar begins at the place. -/
def atPlain (s : Scanner) : Bool :=
  let c := s.place.peek
  !(Place.isBlank c || marks.contains c)
    || (!Place.isBlank (s.place.peekAt 1)
      && (c == '-' || (!s.inFlow && (c == '?' || c == ':'))))

/-- The next token, which begins at the place. -/
def token (s : Scanner) : Result :=
  let p := s.place
  let c := p.peek
  let alone := Place.isBlank (p.peekAt 1)
  if c == '%' && p.column == 0 then s.directive
  else if p.column == 0 && p.atMark "---" then s.documentMark .documentStart
  else if p.column == 0 && p.atMark "..." then s.documentMark .documentEnd
  else if c == '[' then s.openFlow .listOpen
  else if c == '\x7b' then s.openFlow .objectOpen
  else if c == ']' then s.closeFlow .listClose
  else if c == '\x7d' then s.closeFlow .objectClose
  else if c == ',' then s.comma
  else if c == '-' && alone then s.entry
  else if c == '?' && (s.inFlow || alone) then s.explicitKey
  else if c == ':' && (s.inFlow || alone) then s.value
  else if c == '*' then s.starting anchorName .repetition
  else if c == '&' then s.starting anchorName .anchor
  else if c == '!' then s.starting WrittenTag.scan .tag
  else if c == '|' && !s.inFlow then s.block false
  else if c == '>' && !s.inFlow then s.block true
  else if c == '\'' then s.starting (Scalar.quoted false) (.scalar false)
  else if c == '"' then s.starting (Scalar.quoted true) (.scalar false)
  else if s.atPlain then s.plain
  else .error .malformed

/-- The tokens of what is left, after those read before. -/
def tokensFrom : Nat → Scanner → List Token
  | 0, s => (Token.fault .malformed :: s.tokens).reverse
  | n + 1, s =>
    let next : Except Error (Scanner ⊕ Scanner) := do
      let s ← s.toNextToken (s.place.rest.length + 1)
      let s ← s.dropStale
      let s := s.unwind s.place.column
      if s.place.rest.isEmpty then
        let s ← (s.unwind (-1)).dropCandidate
        return .inl s
      else return .inr (← s.token)
    match next with
    | .error e => (Token.fault e :: s.tokens).reverse
    | .ok (.inl s) => s.tokens.reverse
    | .ok (.inr s) => tokensFrom n s

end Scanner

/-- Whether a character may stand in a document. -/
def isPrintable (c : Char) : Bool :=
  let n := c.toNat
  n == 0x09 || n == 0x0A || n == 0x0D || (0x20 ≤ n && n ≤ 0x7E) || n == 0x85
    || (0xA0 ≤ n && n ≤ 0xD7FF) || (0xE000 ≤ n && n ≤ 0xFFFD) || 0x10000 ≤ n

/-- The tokens of a document. A mark of byte order at its start is passed. -/
def tokens (cs : List Char) : List Token :=
  if !cs.all isPrintable then [.fault .malformed]
  else
    let start := Scanner.atStart cs
    let start :=
      if start.place.peek == Char.ofNat 0xFEFF then { start with place := start.place.forward 1 }
      else start
    start.tokensFrom (cs.length + 1)

end OptionTypes.Yaml
