import OptionTypes.Text.CaseTable
import OptionTypes.Text.CodePoint

/-!
# Letter case of texts

Lower and upper case of whole texts. ASCII is decided by arithmetic, so a text of ASCII letters
never consults the tables; beyond it the full mappings of Unicode apply, which may turn one code
point into several. A capital sigma becomes final sigma where a word ends.
-/

namespace OptionTypes.Case

open CaseTable

/-- The mapping of a number by the run that holds it, if one does. -/
def applyRuns (runs : Array Run) (n : Nat) : Option Nat :=
  (runs.find? fun r => r.first ≤ n && n ≤ r.last && (n - r.first) % r.stride == 0).map
    fun r => ((n : Int) + r.offset).toNat

/-- The code points of a list of numbers. -/
def ofNumbers (ns : List Nat) : Text := ns.filterMap CodePoint.ofNat?

/-- Whether an ASCII character is a capital letter. -/
def isCapital (c : Char) : Bool := 'A' ≤ c && c ≤ 'Z'

/-- Whether an ASCII character is a small letter. -/
def isSmall (c : Char) : Bool := 'a' ≤ c && c ≤ 'z'

/-- The lower-case form of an ASCII character. -/
def lowerAscii (c : Char) : Char := if isCapital c then Char.ofNat (c.toNat + 32) else c

/-- The upper-case form of an ASCII character. -/
def upperAscii (c : Char) : Char := if isSmall c then Char.ofNat (c.toNat - 32) else c

/-- Lower case of one code point, outside the final position of a word. -/
def lowerOne : CodePoint → Text
  | .surrogate n => [.surrogate n]
  | .char c =>
    if c.toNat < 0x80 then [.char (lowerAscii c)]
    else if c.toNat = 0x130 then ofNumbers [0x69, 0x307]
    else
      match applyRuns lowerRuns c.toNat with
      | some n => ofNumbers [n]
      | none => [.char c]

/-- Upper case of one code point. -/
def upperOne : CodePoint → Text
  | .surrogate n => [.surrogate n]
  | .char c =>
    if c.toNat < 0x80 then [.char (upperAscii c)]
    else
      match upperSpecial.find? fun entry => entry.1 = c.toNat with
      | some (_, ns) => ofNumbers ns
      | none =>
        match applyRuns upperRuns c.toNat with
        | some n => ofNumbers [n]
        | none => [.char c]

/-- Whether a code point counts as a cased letter. -/
def isCased (c : CodePoint) : Bool := cased.any fun (a, b) => a ≤ c.value && c.value ≤ b

/-- Whether a code point is skipped when the context of a sigma is sought. -/
def isIgnorable (c : CodePoint) : Bool :=
  caseIgnorable.any fun (a, b) => a ≤ c.value && c.value ≤ b

/-- Whether the nearest code point that is not ignorable is a cased letter. -/
def meetsCased (t : Text) : Bool :=
  match t.dropWhile isIgnorable with
  | [] => false
  | c :: _ => isCased c

/-- Lower case of a text. `before` is what precedes it, nearest code point first. -/
def lowerAfter (before : Text) : Text → Text
  | [] => []
  | c :: rest =>
    let form :=
      if c.value = 0x3A3 ∧ meetsCased before ∧ !meetsCased rest then ofNumbers [0x3C2]
      else lowerOne c
    form ++ lowerAfter (c :: before) rest

/-- Lower case of a text. -/
def lower (t : Text) : Text := lowerAfter [] t

/-- Upper case of a text. -/
def upper (t : Text) : Text := t.flatMap upperOne

/-- The text with its first code point in upper case. -/
def upperFirst : Text → Text
  | [] => []
  | c :: rest => upperOne c ++ rest

end OptionTypes.Case
