import OptionTypes.Text.Utf8
import OptionTypes.Yaml.Place

/-!
# Tags of YAML documents

A tag says of what type a node is. It is written in full between angle brackets, or as a handle and
a suffix; a directive says what a handle stands for. Characters of a tag may be written as percent
escapes.
-/

namespace OptionTypes.Yaml

/-- A tag as a document writes it. Without a handle the suffix is the whole tag. -/
structure WrittenTag where
  handle : Option (List Char)
  suffix : List Char
  deriving DecidableEq

namespace WrittenTag

open Scan

/-- The bytes that percent escapes write. -/
def escapedBytes : Nat → Scan Bytes
  | 0 => fail
  | n + 1 => do
    if (← peek) == '%' then
      forward 1
      let digits := (← get).rest.take 2
      if digits.length = 2 && digits.all Digit.isHex then
        forward 2
        return (Digit.ofHex digits).toUInt8 :: (← escapedBytes n)
      else fail
    else return []

/-- Whether a character may stand in a tag as it is. -/
def isPlain (c : Char) : Bool := c.isAlphanum || "-;/?:@&=+$,_.!~*'()[]".toList.contains c

/-- The characters of a tag; there may be none. -/
def characters : Nat → Scan (List Char)
  | 0 => fail
  | n + 1 => do
    let run ← takeWhile isPlain
    if (← peek) == '%' then
      match Utf8.decode (← escapedBytes (← bound)) with
      | .ok piece => return run ++ piece ++ (← characters n)
      | .error _ => fail
    else return run

/-- The characters of a tag. -/
def body : Scan (List Char) := do
  let cs ← characters (← bound)
  if cs.isEmpty then fail else return cs

/-- A handle: an exclamation mark, and perhaps a name and another one. -/
def handleMark : Scan (List Char) := do
  expect (· == '!')
  if (← peekAt 1) == ' ' then
    forward 1
    return ['!']
  else
    forward 1
    let name ← takeWhile Place.isNamePart
    expect (· == '!')
    forward 1
    return '!' :: name ++ ['!']

/-- A tag at a node. -/
def scan : Scan WrittenTag := do
  let c ← peekAt 1
  let tag ←
    if c == '<' then do
      forward 2
      let cs ← body
      expect (· == '>')
      forward 1
      pure ⟨none, cs⟩
    else if Place.isBlank c then do
      forward 1
      pure ⟨none, ['!']⟩
    else do
      let ahead := ((← get).rest.drop 1).takeWhile fun c => !Place.isGap c
      let handle ←
        if ahead.contains '!' then handleMark
        else do
          forward 1
          pure ['!']
      pure ⟨some handle, ← body⟩
  expect Place.isGap
  return tag

end WrittenTag

/-- What precedes a document: the version of the format, or what a tag handle stands for. Other
directives say nothing. -/
inductive Directive where
  | version (major : Nat)
  | handle (handle expansion : List Char)
  | other
  deriving DecidableEq

namespace Directive

open Scan

/-- A number of digits. -/
def digits : Scan Nat := do
  let run ← takeWhile Char.isDigit
  if run.isEmpty then fail
  else if Reading.digitLimit < run.length then
    fun _ => .error (.number (.tooManyDigits run.length))
  else return Digit.ofDecimal run

/-- A directive, up to the end of its line. -/
def scan : Scan Directive := do
  forward 1
  let word ← name
  expect Place.isGap
  let directive ←
    if word = "YAML".toList then do
      skipSpaces
      let major ← digits
      expect (· == '.')
      forward 1
      let _ ← digits
      expect Place.isGap
      pure (.version major)
    else if word = "TAG".toList then do
      skipSpaces
      let handle ← WrittenTag.handleMark
      expect isSpace
      skipSpaces
      let expansion ← WrittenTag.body
      expect Place.isGap
      pure (.handle handle expansion)
    else do
      skipWhile fun c => !Place.isEnd c
      pure .other
  endOfLine
  return directive

end Directive

end OptionTypes.Yaml
