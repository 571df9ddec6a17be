import OptionTypes.Text.Blank

/-!
# Wrapping descriptions

A description is laid out in lines of a given width. Tabs reach to the next multiple of eight
columns, every other ASCII blank counts as one space, and a line is broken only where blanks
stand. A word wider than the line keeps a line of its own.

* `Wrap.expandTabs` and `Wrap.spaced` turn every ASCII blank into spaces.
* `Wrap.chunks` cuts a text into words and runs of spaces.
* `Wrap.fill` packs chunks into lines, as many as fit.
* `Wrap.wrap` is the whole, with the end mark of a comment broken up beforehand.
-/

namespace OptionTypes.Wrap

/-- Tabs become spaces up to the next multiple of eight columns; a line end restarts the count. -/
def expandTabs (t : Text) : Text := go 0 t
where
  go (column : Nat) : Text → Text
    | [] => []
    | .char '\t' :: rest =>
      let width := 8 - column % 8
      List.replicate width (.char ' ') ++ go (column + width) rest
    | .char '\n' :: rest => .char '\n' :: go 0 rest
    | .char '\r' :: rest => .char '\r' :: go 0 rest
    | c :: rest => c :: go (column + 1) rest

/-- Whether a code point is an ASCII blank. -/
def isBlank (c : CodePoint) : Bool := c.is Blank.isAsciiBlank

/-- Every ASCII blank becomes a space. -/
def spaced (t : Text) : Text := t.map fun c => if isBlank c then .char ' ' else c

/-- A piece of a description: a word, or a run of spaces. Neither is empty. -/
structure Chunk where
  blank : Bool
  text : Text
  deriving DecidableEq

/-- The maximal runs of spaces and of other code points, in order. -/
def chunks : Text → List Chunk
  | [] => []
  | c :: rest =>
    let blank := c == .char ' '
    match chunks rest with
    | [] => [⟨blank, [c]⟩]
    | chunk :: more =>
      if chunk.blank = blank then ⟨blank, c :: chunk.text⟩ :: more
      else ⟨blank, [c]⟩ :: chunk :: more

/-- Whether a chunk consists of blanks of any script. -/
def Chunk.isAllBlank (c : Chunk) : Bool := Blank.isAllBlank c.text

/-- The chunks at the start that fit into `room` columns, and the others. -/
def takeFitting (room : Nat) : List Chunk → List Chunk × List Chunk
  | [] => ([], [])
  | c :: rest =>
    if c.text.length ≤ room then
      let (line, more) := takeFitting (room - c.text.length) rest
      (c :: line, more)
    else ([], c :: rest)

/-- The text of a line, without a chunk of blanks at its end. -/
def lineText (line : List Chunk) : Text :=
  let kept :=
    match line.reverse with
    | [] => []
    | last :: before => if last.isAllBlank then before.reverse else line
  kept.flatMap Chunk.text

/-- One line and the chunks left for the next ones. Blanks at the start are dropped on every line
but the first; a first chunk that does not fit is taken all the same. -/
def oneLine (width : Nat) (first : Bool) (cs : List Chunk) : List Chunk × List Chunk :=
  let cs :=
    match cs with
    | [] => []
    | c :: rest => if !first && c.isAllBlank then rest else c :: rest
  match takeFitting width cs with
  | ([], []) => ([], [])
  | ([], c :: rest) => if c.text.length > width then ([c], rest) else ([], c :: rest)
  | fitting => fitting

/-- Chunks packed into lines. `fuel` bounds the number of lines; every line takes a chunk. -/
def fill (width : Nat) : Nat → Bool → List Chunk → List Text
  | 0, _, _ => []
  | _, _, [] => []
  | fuel + 1, first, cs =>
    let (line, rest) := oneLine width first cs
    let text := lineText line
    if text.isEmpty then fill width fuel first rest
    else text :: fill width fuel false rest

/-- The text with every end mark of a comment broken up by a backslash. -/
def guardEnd (t : Text) : Text := Text.replace "*/" "*\\/" t

/-- A width at which nothing can be wrapped. -/
structure InvalidWidth where
  width : Int
  deriving DecidableEq

/-- The wording of the failure. -/
def InvalidWidth.message (e : InvalidWidth) : Text :=
  "invalid width " ++ Text.ofInt e.width ++ " (must be > 0)"

/-- The lines of a description at a positive width. -/
def linesOf (width : Nat) (description : Text) : List Text :=
  let cs := chunks (spaced (expandTabs (guardEnd description)))
  fill width cs.length true cs

/-- The lines of a description, each at most `width` code points wide unless it holds one wider
word. The width must be positive. -/
def wrap (width : Int) (description : Text) : Except InvalidWidth (List Text) :=
  if width ≤ 0 then .error ⟨width⟩ else .ok (linesOf width.toNat description)

end OptionTypes.Wrap
