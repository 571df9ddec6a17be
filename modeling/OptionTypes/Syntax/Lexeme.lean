import OptionTypes.Syntax.Cursor
import OptionTypes.Text.Digit

/-!
# Lexemes

How far a word, a piece of punctuation, a number or a regular expression reaches from a place. Every
function here looks at characters only and returns a number of characters, zero where the lexeme
does not begin.
-/

namespace OptionTypes.Syntax.Lexeme

/-- Characters that belong to no word. -/
def separators : List Char := ":;\x60\x22'@#.,|^&<=>+-*/\\%?!~()[]\x7b\x7d".toList

/-- Whether a character may stand in a word. -/
def isWordPart (c : Char) : Bool :=
  if c.isAlphanum then true
  else if c.toNat < 0x20 then false
  else !(separators.contains c || isBlank c)

/-- Whether a character may begin a word. -/
def isWordStart (c : Char) : Bool := isWordPart c && !c.isDigit

/-- The length of an escape at the start of the characters, if it may stand in a word. -/
def wordEscape? : List Char → Option Nat
  | '\\' :: 'u' :: '\x7b' :: rest =>
    let digits := rest.takeWhile Digit.isHex
    if digits.isEmpty || (rest.drop digits.length).head? ≠ some '\x7d' then none
    else some (digits.length + 4)
  | '\\' :: 'u' :: rest =>
    let digits := rest.take 4
    if digits.length = 4 && digits.all Digit.isHex then some 6 else none
  | _ => none

/-- The length of the rest of a word. `skip` characters belong to an escape. -/
def wordRest : Nat → List Char → Nat
  | _, [] => 0
  | skip + 1, _ :: rest => wordRest skip rest + 1
  | 0, c :: rest =>
    if isWordPart c then wordRest 0 rest + 1
    else
      match wordEscape? (c :: rest) with
      | some n => wordRest (n - 1) rest + 1
      | none => 0

/-- The length of the word at the start of the characters. -/
def word : List Char → Nat
  | [] => 0
  | c :: rest => if c.isDigit then 0 else wordRest 0 (c :: rest)

/-- The length of the longest piece of punctuation at the start of the characters. -/
def punctuation : List Char → Nat
  | '>' :: '>' :: '>' :: '=' :: _ => 4
  | '>' :: '>' :: '>' :: _ => 3
  | '>' :: '>' :: '=' :: _ => 3
  | '<' :: '<' :: '=' :: _ => 3
  | '*' :: '*' :: '=' :: _ => 3
  | '&' :: '&' :: '=' :: _ => 3
  | '|' :: '|' :: '=' :: _ => 3
  | '?' :: '?' :: '=' :: _ => 3
  | '=' :: '=' :: '=' :: _ => 3
  | '!' :: '=' :: '=' :: _ => 3
  | '.' :: '.' :: '.' :: _ => 3
  | '?' :: '.' :: c :: _ => if c.isDigit then 1 else 2
  | '=' :: '>' :: _ => 2
  | '>' :: '>' :: _ => 2
  | '<' :: '<' :: _ => 2
  | '*' :: '*' :: _ => 2
  | '&' :: '&' :: _ => 2
  | '|' :: '|' :: _ => 2
  | '?' :: '?' :: _ => 2
  | '?' :: '.' :: _ => 2
  | '+' :: '+' :: _ => 2
  | '-' :: '-' :: _ => 2
  | c :: '=' :: _ => if "=!<>+-*/%&|^".toList.contains c then 2 else 1
  | _ :: _ => 1
  | [] => 0

/-- The length of digits of one kind with single underscores between them. -/
def digits (p : Char → Bool) : List Char → Nat
  | [] => 0
  | c :: rest => if p c then 1 + more rest else 0
where
  /-- The length of what follows a digit. -/
  more : List Char → Nat
    | [] => 0
    | '_' :: c :: rest => if p c then 2 + more rest else 0
    | c :: rest => if p c then 1 + more rest else 0

/-- Whether a character is a binary digit. -/
def isBinary (c : Char) : Bool := c == '0' || c == '1'

/-- The length of a number with a base prefix. -/
def based : List Char → Nat
  | '0' :: x :: rest =>
    let n :=
      if x = 'x' || x = 'X' then digits Digit.isHex rest
      else if x = 'b' || x = 'B' then digits isBinary rest
      else if x = 'o' || x = 'O' then digits Digit.isOctal rest
      else 0
    if n = 0 then 0 else n + 2
  | _ => 0

/-- The length of the whole part of a number that may have a fraction: zero alone, or digits that
begin with another digit, after at most one zero. -/
def whole : List Char → Nat
  | '0' :: c :: rest => if '1' ≤ c && c ≤ '9' then 1 + digits Char.isDigit (c :: rest) else 1
  | c :: rest => if c.isDigit then digits Char.isDigit (c :: rest) else 0
  | [] => 0

/-- The length of an exponent. -/
def exponent : List Char → Nat
  | e :: rest =>
    if e = 'e' || e = 'E' then
      let sign := if rest.head? = some '+' || rest.head? = some '-' then 1 else 0
      let n := digits Char.isDigit (rest.drop sign)
      if n = 0 then 0 else 1 + sign + n
    else 0
  | [] => 0

/-- The length of a number with a fraction or an exponent. -/
def fractional (cs : List Char) : Nat :=
  let w := whole cs
  match cs.drop w with
  | '.' :: rest =>
    let f := digits Char.isDigit rest
    if w = 0 && f = 0 then 0 else w + 1 + f + exponent (rest.drop f)
  | rest =>
    let e := exponent rest
    if w = 0 || e = 0 then 0 else w + e

/-- The length of the number at the start of the characters: the longest of its notations. -/
def number (cs : List Char) : Nat :=
  let b := based cs
  let d := digits Char.isDigit cs
  let integer := max b d
  let big := if integer ≠ 0 && (cs.drop integer).head? = some 'n' then integer + 1 else integer
  max big (fractional cs)

/-- The length of the body of a regular expression, up to its closing slash. `inClass` tells
whether the place is inside brackets. -/
def regexBody (inClass : Bool) : List Char → Option Nat
  | [] => none
  | '\\' :: c :: rest => if c = '\n' then none else (regexBody inClass rest).map (· + 2)
  | c :: rest =>
    if c = '\n' then none
    else if c = '/' && !inClass then some 0
    else if c = '[' then (regexBody true rest).map (· + 1)
    else if c = ']' then (regexBody false rest).map (· + 1)
    else (regexBody inClass rest).map (· + 1)

/-- The length of an escape in a string or template, if it is one. -/
def stringEscape? : List Char → Option Nat
  | '\\' :: 'x' :: a :: b :: _ => if Digit.isHex a && Digit.isHex b then some 4 else none
  | '\\' :: 'x' :: _ => none
  | '\\' :: 'u' :: rest => wordEscape? ('\\' :: 'u' :: rest)
  | '\\' :: '\r' :: c :: _ =>
    if c = '\n' || c = Char.ofNat 0x2028 || c = Char.ofNat 0x2029 then some 3 else some 2
  | '\\' :: c :: rest =>
    if Digit.isOctal c then some (2 + ((rest.take 2).takeWhile Digit.isOctal).length) else some 2
  | _ => none

/-- The length of a piece of a string without escapes. -/
def fragment (quote : Char) (cs : List Char) : Nat :=
  (cs.takeWhile fun c => c != quote && c != '\\' && c != '\r' && c != '\n').length

/-- The length of a piece of a template without escapes and substitutions. -/
def templateFragment : List Char → Nat
  | [] => 0
  | '\x60' :: _ => 0
  | '\\' :: _ => 0
  | '$' :: '\x7b' :: _ => 0
  | _ :: rest => templateFragment rest + 1

end OptionTypes.Syntax.Lexeme
