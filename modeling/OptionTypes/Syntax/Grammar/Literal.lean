import OptionTypes.Syntax.Goal

/-!
# Literals

Strings, templates, regular expressions and numbers. Between the marks of a string or template no
blank is skipped, so their parts are read at once.
-/

namespace OptionTypes.Syntax.Literal

open Reader

/-- The parts of a string after its opening mark, up to and with the closing one. -/
def stringParts (G : Grammar) (quote : Char) : Reader (List Tree) := do
  match ← behind with
  | [] => fail
  | c :: rest =>
    if c = quote then return [← leafHere (.token (String.singleton quote)) 1]
    else if c = '\\' then
      match Lexeme.stringEscape? (c :: rest) with
      | none => fail
      | some n => return (← leafHere (.kind .escapeSequence) n) :: (← G.sub (.stringParts quote))
    else
      let n := Lexeme.fragment quote (c :: rest)
      if n = 0 then fail
      else return (← leafHere (.kind .stringFragment) n) :: (← G.sub (.stringParts quote))

/-- A string between quotation marks. -/
def string (G : Grammar) : Reader Tree := do
  match (← ahead).head? with
  | some c =>
    if c = '"' || c = '\'' then
      let opening ← leaf (.token (String.singleton c)) 1
      return branch .string (opening :: (← G.sub (.stringParts c)))
    else fail
  | none => fail

/-- An expression inside a template. -/
def substitution (G : Grammar) : Reader Tree := do
  let opening ← leafHere (.token "$\x7b") 2
  let inner ← G.sub (.expressions .inner)
  return branch .templateSubstitution (opening :: inner ++ [← mark "\x7d"])

/-- The parts of a template after its opening mark, up to and with the closing one. -/
def templateParts (G : Grammar) : Reader (List Tree) := do
  match ← behind with
  | [] => fail
  | '\x60' :: _ => return [← leafHere (.token "\x60") 1]
  | '$' :: '\x7b' :: _ => return (← substitution G) :: (← G.sub .templateParts)
  | '\\' :: rest =>
    match Lexeme.stringEscape? ('\\' :: rest) with
    | none => fail
    | some n => return (← leafHere (.kind .escapeSequence) n) :: (← G.sub .templateParts)
  | cs =>
    let n := Lexeme.templateFragment cs
    return (← leafHere (.kind .stringFragment) n) :: (← G.sub .templateParts)

/-- A template between backticks. -/
def template (G : Grammar) : Reader Tree := do
  if (← ahead).head? = some '\x60' then
    let opening ← leaf (.token "\x60") 1
    return branch .templateString (opening :: (← G.sub .templateParts))
  else fail

/-- A regular expression. -/
def regex : Reader Tree := do
  match ← ahead with
  | '/' :: rest =>
    match Lexeme.regexBody false rest with
    | none => fail
    | some 0 => fail
    | some n =>
      let opening ← leaf (.token "/") 1
      let body ← leafHere (.kind .regexPattern) n
      let closing ← leafHere (.token "/") 1
      let flags := ((← behind).takeWhile fun c => 'a' ≤ c && c ≤ 'z').length
      let tail ←
        if flags = 0 then pure []
        else do pure [(← leafHere (.kind .regexFlags) flags).withField .flags]
      return branch .regex ([opening, body.withField .pattern, closing] ++ tail)
  | _ => fail

/-- A number. -/
def number : Reader Tree := do
  let n := Lexeme.number (← ahead)
  if n = 0 then fail else leaf (.kind .number) n

end OptionTypes.Syntax.Literal
