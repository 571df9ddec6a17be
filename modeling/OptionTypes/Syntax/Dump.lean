import OptionTypes.Syntax.Tree
import OptionTypes.Value

/-!
# Dumps of trees

A tree as a value: every named node with its part, its kind, the bytes that it spans, its line, and
either its text or its named children.
-/

namespace OptionTypes.Syntax

mutual

/-- The dump of a node. -/
def dump (source : Bytes) : Tree → Value
  | .node label field start stop missing children =>
    let t := Tree.node label field start stop missing children
    let part := field.toList.map fun f => ("field", Value.str f.word)
    let head := [("type", Value.str t.name), ("start", .int start), ("end", .int stop),
      ("line", .int (Place.lineOf source start))]
    let tail :=
      if t.namedChildren.isEmpty then [("text", Value.text (t.text source))]
      else [("children", .list (dumpAll source children))]
    .record (part ++ head ++ tail)

/-- The dumps of the named ones among siblings. -/
def dumpAll (source : Bytes) : List Tree → List Value
  | [] => []
  | t :: ts => if t.isNamed then dump source t :: dumpAll source ts else dumpAll source ts

end

end OptionTypes.Syntax
