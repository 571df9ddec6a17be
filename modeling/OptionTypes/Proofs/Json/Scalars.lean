import Mathlib.Tactic.IntervalCases
import OptionTypes.Json.Reader
import OptionTypes.Proofs.Integer

/-!
# Scalars are read back

A named value is read from its name whatever follows. An integer is read from its decimal text as
long as no character of a number follows: the reader takes all of them.

* `Json.Delimits` says that no number goes on at the start of a text.
* `Json.scalar_keyword` and `Json.scalar_decimal`: what is read from a name, and from a decimal
  text.
-/

namespace OptionTypes.Json

open Text Reading

/-- Whether no number goes on at the start of a text. -/
def Delimits (rest : Text) : Prop := numberChars rest = []

theorem delimits_nil : Delimits [] := rfl

/-- The characters that may follow a value: blanks, and the marks between and after values. -/
def delimiters : List Char := [' ', '\t', '\n', '\r', ',', ']', '\x7d']

/-- No number goes on at a mark or a blank. -/
theorem delimits_cons {c : Char} (h : c ∈ delimiters) (rest : Text) :
    Delimits (.char c :: rest) := by
  have hall : ∀ c ∈ delimiters, (!(isDigit c || "+-.eE".toList.contains c)) = true :=
    List.all_eq_true.mp (by decide)
  rw [Delimits, numberChars, List.map_cons]
  refine List.takeWhile_cons_of_neg ?_
  rw [CodePoint.char?, Option.getD_some, (Bool.not_eq_true' _).mp (hall c h)]
  exact Bool.false_ne_true

/-- No number goes on at blanks, nor behind them if it does not go on there. -/
theorem delimits_blanks {blanks rest : Text} (hblanks : ∀ c ∈ blanks, Place.isBlank c = true)
    (hrest : Delimits rest) : Delimits (blanks ++ rest) := by
  cases blanks with
  | nil => exact hrest
  | cons c blanks =>
    have hc := hblanks c List.mem_cons_self
    cases c with
    | surrogate s => cases hc
    | char c =>
      refine delimits_cons ?_ (blanks ++ rest)
      simp only [Place.isBlank, Bool.or_eq_true, beq_iff_eq] at hc
      rcases hc with ((rfl | rfl) | rfl) | rfl
      all_goals decide

/-- The characters of a number are taken up to where no number goes on. -/
theorem numberChars_append {cs : List Char}
    (h : ∀ c ∈ cs, (isDigit c || "+-.eE".toList.contains c) = true) {rest : Text}
    (hrest : Delimits rest) : numberChars (ofChars cs ++ rest) = cs := by
  have hmap : (ofChars cs).map (fun c => c.char?.getD ' ') = cs := by
    rw [ofChars, List.map_map]
    exact List.map_id _
  rw [Delimits, numberChars] at hrest
  rw [numberChars, List.map_append, hmap, List.takeWhile_append_of_pos h, hrest, List.append_nil]

/-! ## Integers -/

/-- The sign and the digits of an integer, as its decimal text shows them. -/
theorem sign_of_decimal (n : Int) :
    ((decimal n).take 1).filter (· == '-') = (if n < 0 then ['-'] else [])
      ∧ decimal n = (if n < 0 then ['-'] else []) ++ Nat.toDigits 10 n.natAbs := by
  by_cases hn : n < 0
  · simp [decimal, hn]
  · have hdigits := forall_mem_toDigits (p := fun c => c ≠ '-') (by decide) n.natAbs
    rw [decimal, if_neg hn, if_neg hn]
    refine ⟨List.filter_eq_nil_iff.mpr fun c hc => ?_, rfl⟩
    simpa using hdigits c (List.mem_of_mem_take hc)

/-- The digits of a number are all read: a zero ends them only where it is the only one. -/
theorem digits_toDigits (n : Nat) : digits (Nat.toDigits 10 n) = Nat.toDigits 10 n := by
  have hdigits := forall_mem_toDigits (p := fun c => isDigit c = true) (by decide) n
  have hrun : (Nat.toDigits 10 n ++ []).takeWhile isDigit = _ :=
    List.takeWhile_append_of_pos hdigits
  rwa [List.append_nil, List.takeWhile_nil, List.append_nil] at hrun

/-- The decimal text of an integer is taken as one number, with no fraction and no exponent. -/
theorem number?_decimal (n : Int) :
    number? (decimal n)
      = some ((integer 10 (ofChars (decimal n))).map .int, (decimal n).length) := by
  obtain ⟨hsign, hdecimal⟩ := sign_of_decimal n
  have hunsigned : (decimal n).drop (if n < 0 then ['-'] else []).length
      = Nat.toDigits 10 n.natAbs := by
    rw [hdecimal, List.drop_left]
  have hfull : (Nat.toDigits 10 n.natAbs).isEmpty = false := by simp
  unfold number?
  simp only [hsign, hunsigned]
  split
  -- a numeral that opens with a zero is the zero, which has no digit more
  next rest heq =>
    have hzero : n.natAbs = 0 := by
      by_contra hn
      exact head?_toDigits_ne hn (by rw [heq]; rfl)
    rw [hdecimal, hzero]
    simp [fraction, exponent]
  next =>
    simp only [digits_toDigits, hfull, List.drop_length, fraction, exponent, List.append_nil,
      ← hdecimal]
    rfl

/-! ## Scalars -/

/-- The names that the format itself gives to values. -/
def keywords : List (String × Value) :=
  [("null", .null), ("true", .bool true), ("false", .bool false)]

/-- A word is read as the value that it names. -/
theorem scalar_keyword {name : String} {v : Value} (h : (name, v) ∈ keywords) (rest : Text)
    (position : Nat) :
    scalar ⟨Text.ofString name ++ rest, position⟩
      = .ok (v, ⟨rest, position + (Text.ofString name).length⟩) := by
  simp only [keywords, List.mem_cons, Prod.mk.injEq, List.not_mem_nil, or_false] at h
  rcases h with ⟨rfl, rfl⟩ | ⟨rfl, rfl⟩ | ⟨rfl, rfl⟩
  all_goals rfl

/-- No name starts like an integer, since the only one with a sign goes on with a letter. -/
theorem find?_names_decimal (n : Int) (rest : Text) :
    names.find? (fun (name, _) => Text.startsWith (ofChars (decimal n) ++ rest) name) = none := by
  have hdigit : ∀ d < 10, ∀ more : Text, ∀ name ∈ names,
      Text.startsWith (.char (Nat.digitChar d) :: more) name.1 = false
        ∧ Text.startsWith (.char '-' :: .char (Nat.digitChar d) :: more) name.1 = false := by
    intro d hd more name hname
    simp only [names, List.mem_cons, List.not_mem_nil, or_false] at hname
    interval_cases d <;> rcases hname with rfl | rfl | rfl | rfl | rfl | rfl <;> exact ⟨rfl, rfl⟩
  obtain ⟨c, cs, hcs⟩ := List.exists_cons_of_ne_nil (Nat.toDigits_ne_nil (b := 10) (n := n.natAbs))
  obtain ⟨d, hd, rfl⟩ := digit_of_mem_toDigits (n := n.natAbs) (hcs ▸ List.mem_cons_self)
  refine List.find?_eq_none.mpr fun name hname => Bool.not_eq_true _ ▸ ?_
  obtain ⟨hplain, hminus⟩ := hdigit d hd (ofChars cs ++ rest) name hname
  by_cases hn : n < 0
  · rwa [decimal, if_pos hn, hcs]
  · rwa [decimal, if_neg hn, hcs]

/-- An integer that is not too long is read from its decimal text. -/
theorem scalar_decimal {n : Int} (h : IsShort n) {rest : Text} (hrest : Delimits rest)
    (position : Nat) :
    scalar ⟨ofChars (decimal n) ++ rest, position⟩
      = .ok (.number (.int n), ⟨rest, position + (ofChars (decimal n)).length⟩) := by
  have hchars : ∀ c ∈ decimal n, (isDigit c || "+-.eE".toList.contains c) = true := by
    have hdigits := forall_mem_toDigits
      (p := fun c => (isDigit c || "+-.eE".toList.contains c) = true) (by decide) n.natAbs
    rw [decimal]
    split
    · exact List.forall_mem_cons.mpr ⟨by decide, hdigits⟩
    · exact hdigits
  have hread : integer 10 (ofChars (decimal n)) = .ok n :=
    integer_writeInteger (writeInteger_eq_ok_iff.mpr ⟨h, rfl⟩)
  have hlength : (ofChars (decimal n)).length = (decimal n).length := List.length_map _
  rw [scalar, find?_names_decimal, numberChars_append hchars hrest, number?_decimal, hread]
  show Except.ok (Value.number (.int n), Place.skip (decimal n).length _) = _
  rw [Place.skip, ← hlength, List.drop_left]

end OptionTypes.Json
