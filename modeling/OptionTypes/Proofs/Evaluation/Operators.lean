import OptionTypes.Proofs.Evaluation.Forms

/-!
# Operations on two values

What a binary operation is depends on the values of its sides alone: texts are joined under `+`,
and all else is arithmetic.

* `operate_numbers`, `operate_texts`: the two ways to go on from the values of the sides.
-/

namespace OptionTypes.Evaluation

open Syntax Outcome

variable {s : Scope} {context : Option Tree} {t whole left right : Tree} {op : Operator}
  {a b : Value} {m n : Number}

/-- The outcome of arithmetic as that of a node. -/
def ofArithmetic (s : Scope) (whole : Tree) : Except Arithmetic.Error Arithmetic.Result → Result Value
  | .ok r => .ok (ofResult r)
  | .error e => refuse (.arithmetic e (whole.text s.source))

/-- What counts as a number is no text. -/
theorem isText_of_number? (h : number? a = some m) : isText a = false := by
  cases a with
  | text t => cases h
  | _ => rfl

/-- Two numbers are calculated with. -/
theorem operate_numbers (ha : number? a = some m) (hb : number? b = some n) :
    operate s whole left right op a b = ofArithmetic s whole (Arithmetic.apply op m n) := by
  unfold operate
  rw [isText_of_number? ha, isText_of_number? hb, Bool.or_self, Bool.and_false, if_neg (by decide)]
  simp only [numberOf, ha, hb, ok_bind]
  rfl

/-- A text on either side turns an addition into joining texts. -/
theorem operate_texts (h : isText a = true ∨ isText b = true) :
    operate s whole left right .add a b
      = textOf a >>= fun head => textOf b >>= fun tail => .ok (.text (head ++ tail)) := by
  unfold operate
  rw [if_pos (by simpa using h)]
  rfl

end OptionTypes.Evaluation
