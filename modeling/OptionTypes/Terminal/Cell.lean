import OptionTypes.Terminal.WidthTable
import OptionTypes.Text.CodePoint

/-!
# Cells of a terminal

A terminal shows text in cells. Most code points fill one cell, some fill two, and controls and
marks that combine fill none.
-/

namespace OptionTypes.Cell

/-- Whether a number lies in one of some ranges. -/
def inRanges (ranges : Array (Nat × Nat)) (n : Nat) : Bool :=
  ranges.any fun (a, b) => a ≤ n && n ≤ b

/-- How many cells a code point fills. -/
def count (c : CodePoint) : Nat :=
  let n := c.value
  if 0x20 ≤ n && n < 0x7F then 1
  else if inRanges WidthTable.zeroCells n then 0
  else if inRanges WidthTable.twoCells n then 2
  else 1

/-- How many cells a text fills. -/
def size (t : Text) : Nat := t.foldl (fun n c => n + count c) 0

/-- Spaces. -/
def blanks (n : Nat) : Text := List.replicate n (.char ' ')

/-- The start of a text that fits into `room` cells. A space stands for a code point that would
fit only by half. -/
def fit : Nat → Text → Text
  | _, [] => []
  | room, c :: rest =>
    if count c ≤ room then c :: fit (room - count c) rest else blanks room

/-- A text with spaces after it, up to `width` cells. -/
def padEnd (width : Nat) (t : Text) : Text := t ++ blanks (width - size t)

/-- A text with spaces around it, up to `width` cells; an odd one goes to the end. -/
def center (width : Nat) (t : Text) : Text := padEnd width (blanks ((width - size t) / 2) ++ t)

/-- The first piece of a text and the others, where each fits into `width` cells and the first one
has `used` cells before it. -/
def chopFrom (width used : Nat) : Text → Text × List Text
  | [] => ([], [])
  | c :: rest =>
    if width < used + count c then
      let (piece, more) := chopFrom width (count c) rest
      ([], (c :: piece) :: more)
    else
      let (piece, more) := chopFrom width (used + count c) rest
      (c :: piece, more)

/-- The pieces of a text that fit into `width` cells each. -/
def chop (width : Nat) (t : Text) : List Text :=
  match chopFrom width 0 t with
  | ([], more) => more
  | (piece, more) => piece :: more

end OptionTypes.Cell
