import OptionTypes.Terminal.Lines
import OptionTypes.Terminal.Markup

/-!
# Drawn tables

A table in a frame of lines, with emphasised headers and an optional title above it. A column is as
wide as its widest cell; where all of them together are too wide for the terminal, the widest ones
give way first, and their cells are broken into lines.

* `Table.fitted` is the widths that the columns get.
* `Table.draw` is the text of a table.
-/

namespace OptionTypes.Table

/-- What a table is drawn for: the width of the terminal, whether it knows styles at all, and
whether colours are wanted. -/
structure Look where
  width : Nat
  styled : Bool
  coloured : Bool

namespace Look

/-- A text in a style that is given by its number; nothing stays nothing. -/
def emphasise (l : Look) (style : String) (t : Text) : Text :=
  if !l.styled || t.isEmpty then t
  else Text.ofString "\x1b[" ++ Text.ofString style ++ "m" ++ t ++ "\x1b[0m"

/-- The style of headers: bold, and cyan where colours are wanted. -/
def headerStyle (l : Look) : String := if l.coloured then "1;36" else "1"

/-- The style of titles. -/
def titleStyle : String := "3"

end Look

/-- A column: the text of its header and of its cells. -/
structure Column where
  header : Text
  cells : List Text

/-- The columns of a table. A cell that a row lacks is empty, as is a header for further cells. -/
def columns (headers : List Text) (rows : List (List Text)) : List Column :=
  let count := rows.foldl (fun n row => max n row.length) headers.length
  let shownAt (row : List Text) (i : Nat) : Text :=
    Lines.clean (Markup.shown (row[i]?.getD []))
  (List.range count).map fun i => ⟨shownAt headers i, rows.map (shownAt · i)⟩

/-- The blanks on both sides of a cell. -/
def padding : Nat := 2

/-- Whether a code point ends a line of a cell. -/
def endsLine (c : CodePoint) : Bool := Blank.isLineEndNumber c.value

/-- The number of cells of the longest line of a text that follows `used` cells of a line. -/
def longestFrom (used : Nat) : Text → Nat
  | [] => used
  | c :: rest =>
    if endsLine c then max used (longestFrom 0 rest) else longestFrom (used + Cell.count c) rest

/-- The number of cells of the longest line of a text. -/
def longestLine (t : Text) : Nat := longestFrom 0 t

/-- The width of a cell where no more than `limit` is to be had. -/
def cellWidth (limit : Nat) (t : Text) : Nat :=
  if limit ≤ padding then limit else min (longestLine t + padding) limit

/-- The width of a column where no more than `limit` is to be had. -/
def Column.width (limit : Nat) (c : Column) : Nat :=
  (c.header :: c.cells).foldl (fun n t => max n (cellWidth limit t)) 0

/-- The nearest integer to `a / b`; a half goes to the even one. -/
def roundDiv (a b : Nat) : Nat :=
  let q := a / b
  let r := 2 * (a % b)
  if r < b then q else if b < r then q + 1 else if q % 2 = 0 then q else q + 1

/-- Widths from which `excess` is taken in equal shares, at most `most` from each of the widest
ones, of which `count` are left. -/
def shrink (widest most : Nat) (excess count : Nat) : List Nat → List Nat
  | [] => []
  | w :: ws =>
    if w = widest then
      let share := min most (roundDiv excess count)
      (w - share) :: shrink widest most (excess - share) (count - 1) ws
    else w :: shrink widest most excess count ws

/-- The width of columns side by side. -/
def total (ws : List Nat) : Nat := ws.foldl (· + ·) 0

/-- Widths that together are at most `room`: the widest columns give way to the next widest ones
until that holds. Every round takes at least one cell; `fuel` bounds their number. -/
def collapse (room : Nat) : Nat → List Nat → List Nat
  | 0, ws => ws
  | fuel + 1, ws =>
    let excess := total ws - room
    if excess = 0 then ws
    else
      let widest := ws.foldl max 0
      let next := (ws.filter (· ≠ widest)).foldl max 0
      collapse room fuel
        (shrink widest (min excess (widest - next)) excess (ws.count widest) ws)

/-- The widths that columns get where `room` is to be had for all of them. -/
def fitted (room : Nat) (cs : List Column) : List Nat :=
  let wanted := cs.map fun c => max 1 (c.width room)
  if total wanted ≤ room then wanted
  else (cs.zip (collapse room (total wanted) wanted)).map fun (c, w) => c.width w

/-- A line of a cell: pieces of text, each in one style. -/
abbrev Pieces := List Text

/-- The lines of a cell. A column that is too narrow for any text shows none. -/
def cellLines (width : Nat) (t : Text) : List Pieces :=
  if width ≤ padding then []
  else
    (Lines.wrap (width - padding) .ellipsis t).map fun line =>
      [Cell.blanks 1, Cell.padEnd (width - padding) line, Cell.blanks 1]

/-- How a part of the frame is drawn: at its start, within a column, between columns, at its end. -/
structure Rule where
  start : Char
  inside : Char
  between : Char
  stop : Char

/-- Texts of columns in a row between parts of the frame. -/
def Rule.row (r : Rule) (parts : List Text) : Text :=
  .char r.start :: Text.join [.char r.between] parts ++ [.char r.stop, .char '\n']

/-- A horizontal part of the frame. -/
def Rule.across (r : Rule) (widths : List Nat) : Text :=
  r.row (widths.map fun w => List.replicate w (.char r.inside))

/-- The top of the frame. -/
def top : Rule := ⟨'┏', '━', '┳', '┓'⟩

/-- A line of headers. -/
def headerLine : Rule := ⟨'┃', ' ', '┃', '┃'⟩

/-- What stands below the headers. -/
def belowHeaders : Rule := ⟨'┡', '━', '╇', '┩'⟩

/-- A line of cells. -/
def cellLine : Rule := ⟨'│', ' ', '│', '│'⟩

/-- The bottom of the frame. -/
def bottom : Rule := ⟨'└', '─', '┴', '┘'⟩

/-- The text of one row: as many lines as its highest cell has. The lines of headers stand at the
bottom of their row, those of other cells at the top. -/
def drawRow (r : Rule) (style : Text → Text) (header : Bool) (widths : List Nat)
    (texts : List Text) : Text :=
  let cells := (widths.zip texts).map fun (w, t) => (w, cellLines w t)
  let height := cells.foldl (fun n (_, lines) => max n lines.length) 1
  let filled := cells.map fun (w, lines) =>
    let missing := List.replicate (height - lines.length) [Cell.blanks w]
    if header then missing ++ lines else lines ++ missing
  (List.range height).flatMap fun i =>
    r.row (filled.map fun lines => (lines[i]?.getD []).flatMap style)

/-- The lines of a title above a table of some width. -/
def drawTitle (l : Look) (width : Nat) (title : Text) : Text :=
  (Lines.wrap width .fold (Markup.shown title)).flatMap fun line =>
    l.emphasise Look.titleStyle (Cell.center width (Blank.trimEnd line)) ++ "\n"

/-- The text of a table. Without columns it is one empty line. -/
def draw (l : Look) (headers : List Text) (rows : List (List Text)) (title : Option Text) : Text :=
  let cs := columns headers rows
  if cs.isEmpty then "\n"
  else
    let widths := fitted (l.width - (cs.length + 1)) cs
    let heading :=
      match title with
      | some t => if t.isEmpty then [] else drawTitle l (total widths + cs.length + 1) t
      | none => []
    heading ++ top.across widths
      ++ drawRow headerLine (l.emphasise l.headerStyle) true widths (cs.map Column.header)
      ++ belowHeaders.across widths
      ++ (List.range rows.length).flatMap (fun i =>
        drawRow cellLine id false widths (cs.map fun c => c.cells[i]?.getD []))
      ++ bottom.across widths

end OptionTypes.Table
