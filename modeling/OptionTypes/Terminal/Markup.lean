import OptionTypes.Text.CodePoint

/-!
# Markup

A text for a terminal may hold tags in brackets, such as `[bold]`, which say how it looks and are
not shown. A backslash before a bracket takes its meaning away. `Markup.escape` writes a text so
that its brackets are shown, and `Markup.shown` is what a text with tags shows.

A tag starts with a lower-case letter, `#`, `/` or `@`, and holds no opening bracket.
-/

namespace OptionTypes.Markup

/-- The code point that takes the meaning of a bracket away. -/
def backslash : CodePoint := .char '\\'

/-- Whether a code point may follow the opening bracket of a tag. -/
def startsTag (c : CodePoint) : Bool :=
  c.is fun c => c.isLower || c == '#' || c == '/' || c == '@'

/-- The length of the tag at the start of a text, if there is one. -/
def tagLength? (t : Text) : Option Nat :=
  match t with
  | .char '[' :: c :: rest =>
    let inner := rest.takeWhile fun c => c ≠ .char '[' && c ≠ .char ']'
    if startsTag c && rest[inner.length]? = some (.char ']') then some (inner.length + 3) else none
  | _ => none

/-- Backslashes. -/
def backslashes (n : Nat) : Text := List.replicate n backslash

/-- A text rewritten around its tags. `before` says what stands for `n` backslashes and the code
point after them, given whether that one starts a tag, and whether the rest of the tag is kept.
`skip` code points belong to the tag found last, and `n` backslashes are not yet written. -/
def rewrite (before : Nat → Bool → CodePoint → Text × Bool) (skip : Nat) (keep : Bool) (n : Nat) :
    Text → Text
  | [] => backslashes n
  | c :: rest =>
    match skip with
    | k + 1 =>
      let more := rewrite before k keep 0 rest
      if keep then c :: more else more
    | 0 =>
      if c = backslash then rewrite before 0 true (n + 1) rest
      else
        match tagLength? (c :: rest) with
        | some length =>
          let (written, keep) := before n true c
          written ++ rewrite before (length - 1) keep 0 rest
        | none => (before n false c).1 ++ rewrite before 0 true 0 rest

/-- Every tag loses its meaning: backslashes before it are doubled, and one is added. -/
def escapeStep (n : Nat) (tag : Bool) (c : CodePoint) : Text × Bool :=
  (backslashes (if tag then 2 * n + 1 else n) ++ [c], true)

/-- What is shown for backslashes and what follows: half of them before a tag, which is shown
itself if their number is odd; one less before another bracket. -/
def showStep (n : Nat) (tag : Bool) (c : CodePoint) : Text × Bool :=
  if tag then
    if n % 2 = 1 then (backslashes (n / 2) ++ [c], true) else (backslashes (n / 2), false)
  else (backslashes (if c = .char '[' then n - 1 else n) ++ [c], true)

/-- A text written so that its tags are shown. A single backslash at the end is doubled. -/
def escape (t : Text) : Text :=
  let escaped := rewrite escapeStep 0 true 0 t
  if escaped.endsWith "\\" && !escaped.endsWith "\\\\" then escaped ++ [backslash] else escaped

/-- What a text with tags shows. -/
def shown (t : Text) : Text := rewrite showStep 0 true 0 t

end OptionTypes.Markup
