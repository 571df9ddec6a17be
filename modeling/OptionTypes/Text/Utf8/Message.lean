import OptionTypes.Text.Quoted
import OptionTypes.Text.Utf8

/-!
# What the failures of UTF-8 say

A failure names the offending byte or surrogate if it is a single one, and the range of positions
otherwise.
-/

namespace OptionTypes.Utf8

/-- Positions `start` to `start + count - 1`. -/
def range (start count : Nat) : Text := Text.ofNat start ++ "-" ++ Text.ofNat (start + count - 1)

/-- The rule of a violation in words. -/
def Violation.message : Violation → String
  | .invalidStart => "invalid start byte"
  | .invalidContinuation => "invalid continuation byte"
  | .unexpectedEnd => "unexpected end of data"

/-- The wording of a failed encoding. -/
def EncodeError.message (e : EncodeError) : Text :=
  let place : Text :=
    if e.count = 1 then
      "character '\\u" ++ Text.ofChars (Quoted.hex 4 (CodePoint.surrogate e.first).value)
        ++ "' in position " ++ Text.ofNat e.start
    else "characters in position " ++ range e.start e.count
  "'utf-8' codec can't encode " ++ place ++ ": surrogates not allowed"

/-- The wording of a failed decoding. -/
def DecodeError.message (e : DecodeError) : Text :=
  let place : Text :=
    if e.count = 1 then
      "byte 0x" ++ Text.ofChars (Quoted.hex 2 e.first.toNat) ++ " in position " ++ Text.ofNat e.start
    else "bytes in position " ++ range e.start e.count
  "'utf-8' codec can't decode " ++ place ++ ": " ++ Text.ofString e.violation.message

end OptionTypes.Utf8
