import OptionTypes.Yaml.Place

/-!
# Scalars of YAML documents

The texts of scalars as a document writes them: plain, between quotation marks, or as a block of
lines. Line ends inside a scalar are folded: a single one becomes a space, of several the first one
vanishes.

Loops over lines take a number of rounds that the length of what is left bounds.
-/

namespace OptionTypes.Yaml.Scalar

open Scan

/-- A line end followed by further ones, as a text. -/
def fold (first : List Char) (more : List Char) : List Char :=
  if first ≠ ['\n'] then first ++ more else if more.isEmpty then [' '] else more

/-! ## Between quotation marks -/

/-- What an escape of one letter stands for. -/
def simpleEscape? : Char → Option Char
  | '0' => some '\x00'
  | 'a' => some '\x07'
  | 'b' => some '\x08'
  | 't' => some '\t'
  | '\t' => some '\t'
  | 'n' => some '\n'
  | 'v' => some '\x0b'
  | 'f' => some '\x0c'
  | 'r' => some '\r'
  | 'e' => some '\x1b'
  | ' ' => some ' '
  | '"' => some '"'
  | '\\' => some '\\'
  | '/' => some '/'
  | 'N' => some (Char.ofNat 0x85)
  | '_' => some (Char.ofNat 0xA0)
  | 'L' => some (Char.ofNat 0x2028)
  | 'P' => some (Char.ofNat 0x2029)
  | _ => none

/-- How many hexadecimal digits follow the letter of a numeric escape. -/
def escapeDigits? : Char → Option Nat
  | 'x' => some 2
  | 'u' => some 4
  | 'U' => some 8
  | _ => none

/-- Further line ends inside quotation marks, with the blanks around them. No document may end
there. -/
def quotedBreaks : Nat → Scan (List Char)
  | 0 => fail
  | n + 1 => do
    if (← get).atDocumentMark then fail
    else
      skipWhile fun c => c == ' ' || c == '\t'
      if Place.isBreak (← peek) then return (← lineBreak) ++ (← quotedBreaks n) else return []

/-- An escape, after its backslash. -/
def escaped : Scan Text := do
  let c ← peek
  match simpleEscape? c, escapeDigits? c with
  | some stands, _ =>
    forward 1
    return [.char stands]
  | none, some count =>
    forward 1
    let digits := (← get).rest.take count
    if digits.length = count && digits.all Digit.isHex then
      match Escape.codePoint (Digit.ofHex digits) with
      | .ok stands =>
        forward count
        return [stands]
      | .error e => fun _ => .error (.escape e)
    else fail
  | none, none =>
    if Place.isBreak c then
      let _ ← lineBreak
      return Text.ofChars (← quotedBreaks (← bound))
    else fail

/-- Characters without a meaning of their own between quotation marks. -/
def isOrdinary (c : Char) : Bool := !(Place.isBlank c || c == '\'' || c == '"' || c == '\\')

/-- Text between quotation marks up to a blank, the end of a line, or the closing mark. -/
def quotedWord (double : Bool) : Nat → Scan Text
  | 0 => fail
  | n + 1 => do
    let run := Text.ofChars (← takeWhile isOrdinary)
    let c ← peek
    if !double && c == '\'' && (← peekAt 1) == '\'' then
      forward 2
      return run ++ [.char '\''] ++ (← quotedWord double n)
    else if (if double then c == '\'' else c == '"' || c == '\\') then
      forward 1
      return run ++ [.char c] ++ (← quotedWord double n)
    else if double && c == '\\' then
      forward 1
      let piece ← escaped
      return run ++ piece ++ (← quotedWord double n)
    else return run

/-- Blanks and line ends between quotation marks. -/
def quotedGap : Scan Text := do
  let blanks ← takeWhile fun c => c == ' ' || c == '\t'
  let c ← peek
  if c == Place.none then fail
  else if Place.isBreak c then
    let first ← lineBreak
    return Text.ofChars (fold first (← quotedBreaks (← bound)))
  else return Text.ofChars blanks

/-- The rest of a quoted scalar after its first word. -/
def quotedRest (double : Bool) : Nat → Scan Text
  | 0 => fail
  | n + 1 => do
    if (← peek) == (if double then '"' else '\'') then
      forward 1
      return []
    else
      let gap ← quotedGap
      let word ← quotedWord double (← bound)
      return gap ++ word ++ (← quotedRest double n)

/-- A scalar between quotation marks. -/
def quoted (double : Bool) : Scan Text := do
  forward 1
  let word ← quotedWord double (← bound)
  return word ++ (← quotedRest double (← bound))

/-! ## Plain -/

/-- The marks between and around the items of flow collections. -/
def flowMarks : List Char := ",?[]\x7b\x7d".toList

/-- How far a plain scalar reaches on its line before a blank. -/
def plainLength (flow : Bool) : List Char → Nat
  | [] => 0
  | c :: rest =>
    let next := rest.head?.getD Place.none
    let colonEnds := Place.isBlank next || (flow && next != '?' && flowMarks.contains next)
    if Place.isBlank c || (c == ':' && colonEnds) || (flow && flowMarks.contains c) then 0
    else plainLength flow rest + 1

/-- Line ends and spaces inside a plain scalar; nothing where a document ends. -/
def plainBreaks : Nat → Scan (Option (List Char))
  | 0 => fail
  | n + 1 => do
    let c ← peek
    if c == ' ' then
      forward 1
      plainBreaks n
    else if Place.isBreak c then
      let first ← lineBreak
      if (← get).atDocumentMark then return none
      else return (← plainBreaks n).map (first ++ ·)
    else return some []

/-- Blanks inside a plain scalar and whether a line ended among them. -/
def plainGap : Scan (List Char × Bool) := do
  let blanks ← takeWhile isSpace
  if Place.isBreak (← peek) then
    let first ← lineBreak
    if (← get).atDocumentMark then return ([], true)
    else
      match ← plainBreaks (← bound) with
      | none => return ([], true)
      | some more => return (fold first more, true)
  else return (blanks, false)

/-- A plain scalar that is more deeply indented than `indent` asks for; `gap` precedes. The flag
tells whether a line ended after it. -/
def plainFrom (flow : Bool) (indent : Nat) (gap : List Char) (broken : Bool) :
    Nat → Scan (List Char × Bool)
  | 0 => fail
  | n + 1 => do
    if (← peek) == '#' then return ([], broken)
    else
      let run := (← get).rest.take (plainLength flow (← get).rest)
      if run.isEmpty then return ([], broken)
      else
        forward run.length
        let (next, ended) ← plainGap
        if next.isEmpty || (← peek) == '#' || (!flow && (← column) < indent) then
          return (gap ++ run, ended)
        else
          let (more, ended) ← plainFrom flow indent next ended n
          return (gap ++ run ++ more, ended)

/-- A plain scalar, and whether a line ended after it. -/
def plain (flow : Bool) (indent : Nat) : Scan (List Char × Bool) := do
  plainFrom flow indent [] false (← bound)

/-! ## Blocks of lines -/

/-- What becomes of the line ends at the end of a block. -/
inductive Chomping where
  | strip
  | clip
  | keep

/-- The sign of a chomping. -/
def chomping? : Char → Option Chomping
  | '+' => some .keep
  | '-' => some .strip
  | _ => none

/-- The digit of an indent, which is not zero. -/
def increment? : Scan (Option Nat) := do
  let c ← peek
  if c.isDigit then
    if c == '0' then fail
    else
      forward 1
      return some (c.toNat - '0'.toNat)
  else return none

/-- The header of a block: its chomping and its indent, in either order. -/
def header : Scan (Chomping × Option Nat) := do
  let sign : Scan (Option Chomping) := do
    match chomping? (← peek) with
    | some c =>
      forward 1
      return some c
    | none => return none
  match ← sign with
  | some c =>
    let n ← increment?
    expect Place.isGap
    return (c, n)
  | none =>
    let n ← increment?
    let c ← if n.isSome then sign else pure none
    expect Place.isGap
    return (c.getD .clip, n)

/-- The line ends before a block and the indent of the widest line among them. -/
def leadingBreaks (widest : Nat) : Nat → Scan (List Char × Nat)
  | 0 => fail
  | n + 1 => do
    let c ← peek
    if c == ' ' then
      forward 1
      leadingBreaks (max widest (← column)) n
    else if Place.isBreak c then
      let first ← lineBreak
      let (more, widest) ← leadingBreaks widest n
      return (first ++ more, widest)
    else return ([], widest)

/-- Pass spaces up to a column. -/
def indentTo (indent : Nat) : Scan Unit := do
  let here ← column
  let run := ((← get).rest.take (indent - here)).takeWhile isSpace
  forward run.length

/-- Empty lines inside a block. -/
def blockBreaks (indent : Nat) : Nat → Scan (List Char)
  | 0 => fail
  | n + 1 => do
    indentTo indent
    if Place.isBreak (← peek) then return (← lineBreak) ++ (← blockBreaks indent n) else return []

/-- Whether a line of the block begins here. -/
def atBlockLine (indent : Nat) : Scan Bool := do
  return (← column) == indent && (← peek) != Place.none

/-- The lines of a block, after the empty lines before them. The result ends with the last line;
the line end after it and the empty lines that follow are apart. -/
def blockLines (folded : Bool) (indent : Nat) (breaks : List Char) :
    Nat → Scan (List Char × List Char × List Char)
  | 0 => fail
  | n + 1 => do
    let open_ := !((← peek) == ' ' || (← peek) == '\t')
    let line ← takeWhile fun c => !Place.isEnd c
    let last ← lineBreak
    let next ← blockBreaks indent (← bound)
    if ← atBlockLine indent then
      let c ← peek
      let joined := folded && last == ['\n'] && open_ && !(c == ' ' || c == '\t')
      let between := if joined then (if next.isEmpty then [' '] else []) else last
      let (more, last, after) ← blockLines folded indent next n
      return (breaks ++ line ++ between ++ more, last, after)
    else return (breaks ++ line, last, next)

/-- A block of lines inside a collection of an indent, which is -1 at the top. -/
def block (folded : Bool) (outer : Int) : Scan (List Char) := do
  forward 1
  let (chomping, increment) ← header
  endOfLine
  let least := (max 1 (outer + 1)).toNat
  let (breaks, indent) ←
    match increment with
    | none => do
      let (breaks, widest) ← leadingBreaks 0 (← bound)
      pure (breaks, max least widest)
    | some k => do
      let indent := least + k - 1
      pure (← blockBreaks indent (← bound), indent)
  let (body, last, after) ←
    if ← atBlockLine indent then blockLines folded indent breaks (← bound)
    else pure ([], [], breaks)
  match chomping with
  | .strip => return body
  | .clip => return body ++ last
  | .keep => return body ++ last ++ after

end OptionTypes.Yaml.Scalar
