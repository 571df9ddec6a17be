import OptionTypes.Syntax.Tree

/-!
# Places in a source

A cursor is a place in a source together with the comments found before it. Blanks and comments
may stand between any two tokens; `Cursor.skip` passes them and `Cursor.pauses` lists the places
between the comments, which is where the end of a statement may be found.

Both follow from one scan, which is structural on the characters: in the middle of a comment it
remembers where the comment began.
-/

namespace OptionTypes.Syntax

/-- Whether a character separates tokens. -/
def isBlank (c : Char) : Bool :=
  let n := c.toNat
  (0x09 ≤ n && n ≤ 0x0D) || n == 0x20 || n == 0x85 || n == 0xA0 || n == 0x1680
    || (0x2000 ≤ n && n ≤ 0x200B) || n == 0x2028 || n == 0x2029 || n == 0x202F || n == 0x205F
    || n == 0x2060 || n == 0x3000 || n == 0xFEFF

/-- Whether a character ends a comment that runs to the end of its line. -/
def isLineEnd (c : Char) : Bool :=
  c == '\n' || c == '\r' || c == Char.ofNat 0x2028 || c == Char.ofNat 0x2029

/-- A place in a source: what is left, the offset in bytes, and the comments passed, nearest
first. -/
structure Cursor where
  rest : List Char
  position : Nat
  comments : List Tree

namespace Cursor

/-- The cursor at the start of a source. -/
def atStart (cs : List Char) : Cursor := ⟨cs, 0, []⟩

/-- What the scan of blanks and comments is in the middle of. A comment remembers where it began;
`star` tells whether the last character was a star. -/
inductive Mode where
  | outside
  | line (start : Nat)
  | block (start : Nat) (entry : Cursor) (star : Bool)

/-- A comment as a leaf. -/
def commentLeaf (start stop : Nat) : Tree := .ofKind .comment start stop []

/-- The number of bytes of a character. -/
def width (c : Char) : Nat := Utf8.size c

/-- The scan of blanks and comments. The result is the place after them and the places right after
each comment, last first. A comment that is not closed is none. -/
def scan : Mode → Nat → List Tree → List Cursor → List Char → Cursor × List Cursor
  | .outside, n, found, pauses, [] => (⟨[], n, found⟩, pauses)
  | .outside, n, found, pauses, c :: rest =>
    if isBlank c then scan .outside (n + width c) found pauses rest
    else if c = '/' then
      match rest with
      | '/' :: _ => scan (.line n) (n + 1) found pauses rest
      | '*' :: _ => scan (.block n ⟨c :: rest, n, found⟩ true) (n + 1) found pauses rest
      | _ => (⟨c :: rest, n, found⟩, pauses)
    else (⟨c :: rest, n, found⟩, pauses)
  | .line start, n, found, pauses, [] =>
    let found := commentLeaf start n :: found
    (⟨[], n, found⟩, ⟨[], n, found⟩ :: pauses)
  | .line start, n, found, pauses, c :: rest =>
    if isLineEnd c then
      let found := commentLeaf start n :: found
      scan .outside (n + width c) found (⟨c :: rest, n, found⟩ :: pauses) rest
    else scan (.line start) (n + width c) found pauses rest
  | .block _ entry _, _, _, pauses, [] => (entry, pauses)
  | .block start entry star, n, found, pauses, c :: rest =>
    if star && c = '/' && start + 2 < n then
      let found := commentLeaf start (n + 1) :: found
      scan .outside (n + 1) found (⟨rest, n + 1, found⟩ :: pauses) rest
    else scan (.block start entry (c = '*' && start + 1 < n)) (n + width c) found pauses rest

/-- The cursor after the blanks and comments that follow. -/
def skip (c : Cursor) : Cursor := (scan .outside c.position c.comments [] c.rest).1

/-- The cursor itself and the places right after each comment that follows, in order. -/
def pauses (c : Cursor) : List Cursor :=
  c :: (scan .outside c.position c.comments [] c.rest).2.reverse

/-- The cursor `n` characters further on. -/
def advance : Nat → Cursor → Cursor
  | 0, c => c
  | _, ⟨[], p, cs⟩ => ⟨[], p, cs⟩
  | n + 1, ⟨a :: rest, p, cs⟩ => advance n ⟨rest, p + width a, cs⟩

/-- Whether nothing is left after blanks and comments. -/
def atEnd (c : Cursor) : Bool := c.skip.rest.isEmpty

/-- Whether a line ends between the cursor and the next token. -/
def lineBreakAhead (c : Cursor) : Bool :=
  go (c.skip.position - c.position) c.rest
where
  /-- Looks at the characters of the next `n` bytes. -/
  go : Nat → List Char → Bool
    | 0, _ => false
    | _, [] => false
    | n + 1, a :: rest => isLineEnd a || go (n + 1 - width a) rest

end Cursor

end OptionTypes.Syntax
