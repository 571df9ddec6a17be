import OptionTypes.Syntax.Lexeme
import OptionTypes.Syntax.Semicolon

/-!
# Reading trees from a source

A reader goes on from a cursor and gives a result and the cursor after it, or it is stuck at a token
that does not fit. Of two failed alternatives the one that got further counts.

After a reader the cursor stands right behind the last token, so that what follows decides whether
blanks and comments belong to a statement. The primitives pass them before they look.
-/

namespace OptionTypes.Syntax

/-- A token that does not fit: its offset, and where the token before it ends. -/
structure Stuck where
  offset : Nat
  behind : Nat
  deriving DecidableEq

/-- The failure that got further. -/
def Stuck.further (a b : Stuck) : Stuck := if a.offset < b.offset then b else a

/-- Reading from a cursor. -/
abbrev Reader := StateT Cursor (Except Stuck)

namespace Reader

variable {α : Type}

/-- The next token does not fit. -/
def fail : Reader α := fun c => .error ⟨c.skip.position, c.position⟩

/-- The first alternative, or the second where the first fails. -/
def either (a b : Reader α) : Reader α := fun c =>
  match a c with
  | .ok r => .ok r
  | .error m =>
    match b c with
    | .ok r => .ok r
    | .error n => .error (m.further n)

/-- A result, or nothing where the reader fails; then nothing is read. -/
def attempt (a : Reader α) : Reader (Option α) := fun c =>
  match a c with
  | .ok (x, d) => .ok (some x, d)
  | .error _ => .ok (none, c)

/-- The result of a reader without moving. -/
def look (a : Reader α) : Reader α := fun c =>
  match a c with
  | .ok (x, _) => .ok (x, c)
  | .error n => .error n

/-- Whether a reader succeeds; nothing is read. -/
def succeeds (a : Reader α) : Reader Bool := fun c =>
  match a c with
  | .ok _ => .ok (true, c)
  | .error _ => .ok (false, c)

/-- The characters from the next token on. -/
def ahead : Reader (List Char) := fun c => .ok (c.skip.rest, c)

/-- The characters right behind the last token. -/
def behind : Reader (List Char) := fun c => .ok (c.rest, c)

/-- The next `n` characters as a leaf, after blanks and comments. -/
def leaf (label : Label) (n : Nat) : Reader Tree := fun c =>
  let c := c.skip
  let d := c.advance n
  .ok (.node label none c.position d.position false [], d)

/-- The next `n` characters as a leaf, at once. -/
def leafHere (label : Label) (n : Nat) : Reader Tree := fun c =>
  let d := c.advance n
  .ok (.node label none c.position d.position false [], d)

/-! ## Words and punctuation -/

/-- Whether characters begin with exactly this piece of punctuation. -/
def startsWithMark (mark : String) (cs : List Char) : Bool :=
  let m := mark.toList
  m.isPrefixOf cs && Lexeme.punctuation cs = m.length

/-- The word at the start of characters. -/
def wordAt (cs : List Char) : List Char := cs.take (Lexeme.word cs)

/-- Whether characters begin with exactly this word. -/
def startsWithWord (w : String) (cs : List Char) : Bool := wordAt cs = w.toList

/-- Whether the next token is this piece of punctuation. -/
def atMark (mark : String) : Reader Bool := do return startsWithMark mark (← ahead)

/-- Whether the next token is this word. -/
def atWord (w : String) : Reader Bool := do return startsWithWord w (← ahead)

/-- Whether the next token is a word. -/
def atAnyWord : Reader Bool := do return Lexeme.word (← ahead) != 0

/-- This piece of punctuation. -/
def mark (m : String) : Reader Tree := do
  if ← atMark m then leaf (.token m) m.length else fail

/-- This word. -/
def keyword (w : String) : Reader Tree := do
  if ← atWord w then leaf (.token w) w.length else fail

/-- These characters, even where a longer piece of punctuation begins. -/
def part (m : String) : Reader Tree := do
  if m.toList.isPrefixOf (← ahead) then leaf (.token m) m.length else fail

/-- This piece of punctuation if it comes next. -/
def mark? (m : String) : Reader (List Tree) := do
  if ← atMark m then return [← mark m] else return []

/-- This word if it comes next. -/
def keyword? (w : String) : Reader (List Tree) := do
  if ← atWord w then return [← keyword w] else return []

/-- Any word, as a leaf of a kind. -/
def anyWord (k : Kind) : Reader Tree := do
  let n := Lexeme.word (← ahead)
  if n = 0 then fail else leaf (.kind k) n

/-! ## Nodes -/

/-- A node around its children, which are not empty. -/
def branch (k : Kind) (children : List Tree) : Tree :=
  .ofKind k ((children.head?.map Tree.start).getD 0) ((children.getLast?.map Tree.stop).getD 0)
    children

/-- A node around its children that reaches further. -/
def branchTo (k : Kind) (children : List Tree) (stop : Nat) : Tree :=
  .ofKind k ((children.head?.map Tree.start).getD stop) stop children

/-! ## Ends of statements -/

/-- The offset right behind the last token. -/
def offset : Reader Nat := fun c => .ok (c.position, c)

/-- Whether a semicolon is missing here. -/
def endsHere (s : Semicolon.Setting) : Reader Bool := fun c =>
  .ok ((Semicolon.place? s c).isSome, c)

/-- The place where a semicolon is missing, if there is one; comments before it are passed. -/
def passMissing (s : Semicolon.Setting) : Reader Bool := fun c =>
  match Semicolon.place? s c with
  | some p => .ok (true, p)
  | none => .ok (false, c)

/-- The semicolon of a statement, or the place where it is missing. -/
def semicolon (s : Semicolon.Setting) : Reader (List Tree) := do
  if ← passMissing s then return [] else return [← mark ";"]

/-- A node around its children and the semicolon of a statement. -/
def statement (k : Kind) (s : Semicolon.Setting) (children : List Tree) : Reader Tree := do
  let last ← semicolon s
  return branchTo k (children ++ last) (← offset)

end Reader

end OptionTypes.Syntax
