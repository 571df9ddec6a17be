/-!
# Text as code points

The values that flow from a schema into a declaration are sequences of Unicode code points in
which a surrogate may stand alone: the escape `\ud83d` of a script is such a text. `CodePoint`
keeps characters and lone surrogates apart, and `Text` is a list of them, so every list lemma
speaks about texts.

* `CodePoint.value` and `CodePoint.ofNat?` are inverse to each other.
* `Text.ofString` embeds the texts that hold no surrogate, `Text.chars?` goes back.
-/

namespace OptionTypes

/-- One Unicode code point: a character, or one of the 2048 surrogates standing alone. -/
inductive CodePoint where
  | char (c : Char)
  | surrogate (n : Fin 2048)
  deriving DecidableEq, Inhabited

namespace CodePoint

/-- The number of a code point. -/
def value : CodePoint → Nat
  | char c => c.toNat
  | surrogate n => 0xD800 + n.val

/-- The code point of a number, if it is one. -/
def ofNat? (n : Nat) : Option CodePoint :=
  if h : n.isValidChar then some (.char (Char.ofNatAux n h))
  else if h : 0xD800 ≤ n ∧ n < 0xE000 then some (.surrogate ⟨n - 0xD800, by omega⟩)
  else none

/-- Whether the code point is a surrogate. -/
def isSurrogate : CodePoint → Bool
  | char _ => false
  | surrogate _ => true

/-- The character of a code point, unless it is a surrogate. -/
def char? : CodePoint → Option Char
  | char c => some c
  | surrogate _ => none

/-- Whether the code point is a character with the property `p`. -/
def is (p : Char → Bool) : CodePoint → Bool
  | char c => p c
  | surrogate _ => false

@[simp] theorem value_char (c : Char) : (char c).value = c.toNat := rfl

@[simp] theorem value_surrogate (n : Fin 2048) : (surrogate n).value = 0xD800 + n.val := rfl

end CodePoint

/-- A text: a sequence of code points. -/
abbrev Text := List CodePoint

namespace Text

/-- The text of a string of characters. -/
def ofString (s : String) : Text := s.toList.map .char

/-- The text of a list of characters. -/
def ofChars (cs : List Char) : Text := cs.map .char

instance : Coe String Text := ⟨ofString⟩

/-- The characters of a text, if none of its code points is a surrogate. -/
def chars? : Text → Option (List Char)
  | [] => some []
  | c :: rest => do
    let head ← c.char?
    let tail ← chars? rest
    return head :: tail

/-- The characters of a text, with U+FFFD for every surrogate. -/
def lossy (t : Text) : String :=
  String.ofList (t.map fun c => c.char?.getD (Char.ofNat 0xFFFD))

@[simp] theorem chars?_ofChars (cs : List Char) : chars? (ofChars cs) = some cs := by
  induction cs with
  | nil => rfl
  | cons c cs ih =>
    show chars? (.char c :: ofChars cs) = _
    simp [chars?, CodePoint.char?, ih]

/-- The decimal digits of a number. -/
def ofNat (n : Nat) : Text := ofString (toString n)

/-- The decimal text of an integer. -/
def ofInt (n : Int) : Text := ofString (toString n)

/-- Whether the text starts with the characters of `s`. -/
def startsWith (t : Text) (s : String) : Bool := (ofString s).isPrefixOf t

/-- Whether the text ends with the characters of `s`. -/
def endsWith (t : Text) (s : String) : Bool := (ofString s).isSuffixOf t

/-- The texts between line feeds: one more than there are line feeds. -/
def splitOn (sep : CodePoint) : Text → List Text
  | [] => [[]]
  | c :: rest =>
    if c = sep then [] :: splitOn sep rest
    else
      match splitOn sep rest with
      | [] => [[c]]
      | piece :: pieces => (c :: piece) :: pieces

/-- Texts joined by a separator. -/
def join (sep : Text) : List Text → Text
  | [] => []
  | [t] => t
  | t :: ts => t ++ sep ++ join sep ts

/-- Every occurrence of `old`, found from the left and without overlaps, becomes `new`.
An empty `old` occurs nowhere. -/
def replace (old new : Text) (t : Text) : Text := go 0 t
where
  /-- `skip` code points still belong to the occurrence found last. -/
  go : Nat → Text → Text
    | _, [] => []
    | n + 1, _ :: rest => go n rest
    | 0, c :: rest =>
      if !old.isEmpty && old.isPrefixOf (c :: rest) then new ++ go (old.length - 1) rest
      else c :: go 0 rest

/-- The text without the code points with property `p` at its end. -/
def dropEndWhile (p : CodePoint → Bool) (t : Text) : Text := (t.reverse.dropWhile p).reverse

end Text

end OptionTypes
