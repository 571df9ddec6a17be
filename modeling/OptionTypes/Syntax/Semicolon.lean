import OptionTypes.Syntax.Cursor

/-!
# Semicolons that are not written

A statement may end without a semicolon before a closing brace, at the end of the source, and at a
line end after which the next token cannot continue the statement. `Semicolon.inserted` decides
this at a place, looking ahead over blanks and comments; `Semicolon.place?` finds the first such
place between the comments that follow.

Where an operator could stand a comment is part of the statement that it follows, unless a closing
brace comes next. Scripts with types leave every comment to the statement that it follows.
-/

namespace OptionTypes.Syntax.Semicolon

/-- What is known where a semicolon may be missing. -/
structure Setting where
  typed : Bool
  /-- Whether the expression before could be continued by an operator. -/
  operator : Bool
  /-- Whether a function without a body may end here. -/
  signature : Bool := false

/-- Whether a character is a blank for this purpose; a blank that binds is not. -/
def isSpace (c : Char) : Bool :=
  let n := c.toNat
  (0x09 ≤ n && n ≤ 0x0D) || n == 0x20 || n == 0x85 || n == 0x1680
    || (0x2000 ≤ n && n ≤ 0x200A && n != 0x2007) || n == 0x2028 || n == 0x2029 || n == 0x205F
    || n == 0x3000

/-- Whether a character ends a line for this purpose. -/
def isBreak (typed : Bool) (c : Char) : Bool :=
  c == '\n' || (!typed && (c == Char.ofNat 0x2028 || c == Char.ofNat 0x2029))

/-- Whether a character is a letter, as far as `in` and `instanceof` are concerned. -/
def isLetter (c : Char) : Bool :=
  ('a' ≤ c && c ≤ 'z') || ('A' ≤ c && c ≤ 'Z') || (0x80 ≤ c.toNat && !isSpace c)

/-- Whether what follows a letter `i` at the start of a line begins a new statement: the operators
`in` and `instanceof` do not. -/
def afterI : List Char → Bool
  | 'n' :: rest =>
    if !(rest.head?.map isLetter).getD false then false
    else if "stanceof".toList.isPrefixOf rest then (rest[8]?.map isLetter).getD false
    else true
  | _ => true

/-- The characters which, at the start of a line, continue the statement before. -/
def continuing : List Char := "\x60,:;*%><=?^|&/".toList

/-- Whether a token at the start of a line begins a new statement. -/
def startsStatement (s : Setting) : List Char → Bool
  | [] => true
  | c :: rest =>
    if continuing.contains c then false
    else if c = '[' || c = '(' then s.typed && !s.operator
    else if c = '\x7b' then !s.signature
    else if c = '.' then !s.typed && (rest.head?.map Char.isDigit).getD false
    else if c = '+' then rest.head? = some '+'
    else if c = '-' then rest.head? = some '-'
    else if c = '!' then rest.head? ≠ some '='
    else if c = 'i' then afterI rest
    else true

/-- What the look-ahead over blanks and comments is in the middle of. -/
inductive Gap where
  | blank
  | slash
  | line
  | block (star : Bool)

/-- Whether the line after a break begins a new statement; every comment before it is passed. A
slash that begins no comment continues the statement. -/
def afterBreak (s : Setting) : Gap → List Char → Bool
  | .blank, c :: rest =>
    if isSpace c then afterBreak s .blank rest
    else if c = '/' then afterBreak s .slash rest
    else startsStatement s (c :: rest)
  | .slash, c :: rest =>
    if c = '/' then afterBreak s .line rest
    else if c = '*' then afterBreak s (.block false) rest
    else false
  | .slash, [] => false
  | .line, c :: rest => afterBreak s (if c = '\n' then .blank else .line) rest
  | .block star, c :: rest =>
    if star && c = '/' then afterBreak s .blank rest else afterBreak s (.block (c = '*')) rest
  | _, [] => true

/-- Whether a closing brace ends a statement. In a script with types a colon after it means that
the brace closes a pattern. -/
def atBrace (s : Setting) (rest : List Char) : Bool :=
  if s.typed && (rest.dropWhile isSpace).head? = some ':' then s.operator else true

/-- Where the decision about a missing semicolon stands. -/
inductive Mode where
  /-- Before any comment. -/
  | outside
  | slash
  | line
  | block (star broken : Bool)
  /-- After a comment whose line has ended, or which another comment follows at once. -/
  | gap
  /-- Right after a block comment with a line end inside. -/
  | broken
  /-- Right after a block comment within one line. -/
  | closed

/-- Whether a semicolon is missing here. Without an operator to wait for, a comment that a line end
follows is enough. -/
def decide (s : Setting) : Mode → List Char → Bool
  | .outside, [] => true
  | .outside, c :: rest =>
    if c = '\x7d' then atBrace s rest
    else if isBreak s.typed c then afterBreak s .blank rest
    else if isSpace c then decide s .outside rest
    else if c = '/' && !s.typed then decide s .slash rest
    else false
  | .slash, [] => false
  | .slash, c :: rest =>
    if c = '/' then decide s .line rest
    else if c = '*' then decide s (.block false false) rest
    else false
  | .line, [] => !s.operator
  | .line, c :: rest => decide s (if isBreak s.typed c then .gap else .line) rest
  | .gap, [] => !s.operator
  | .gap, c :: rest =>
    if isSpace c then decide s .gap rest
    else if c = '/' then decide s .slash rest
    else if !s.operator && c != ',' && c != '=' then true
    else c = '\x7d'
  | .block .., [] => !s.operator
  | .block star broken, c :: rest =>
    if star && c = '/' then
      decide s (if rest.head? = some '/' then .gap else if broken then .broken else .closed) rest
    else decide s (.block (c = '*') (broken || isBreak s.typed c)) rest
  | .broken, [] => !s.operator
  | .broken, c :: rest =>
    if !s.operator && c != ',' && c != '=' then true
    else if c = '\x7d' then true
    else if isBreak s.typed c then afterBreak s .blank rest
    else if isSpace c then decide s .outside rest
    else false
  | .closed, [] => false
  | .closed, c :: rest =>
    if c = '\x7d' then true
    else if isBreak s.typed c then afterBreak s .blank rest
    else if isSpace c then decide s .outside rest
    else false

/-- Whether a semicolon is missing at a place. -/
def inserted (s : Setting) (cs : List Char) : Bool := decide s .outside cs

/-- The first place between the comments that follow at which a semicolon is missing. -/
def place? (s : Setting) (c : Cursor) : Option Cursor := c.pauses.find? fun p => inserted s p.rest

end OptionTypes.Syntax.Semicolon
