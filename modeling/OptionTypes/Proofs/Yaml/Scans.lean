import OptionTypes.Proofs.Consumption
import OptionTypes.Proofs.Escape
import OptionTypes.Proofs.Json.LongNumbers
import OptionTypes.Yaml.Scalar
import OptionTypes.Yaml.Tag

/-!
# Scans of YAML documents

Every scan goes on from its place and takes no character back. It fails where the document is
malformed, with two exceptions: an escape may denote no character, and the version of the format may
be a number that is too long.

* `ScanFault`: the failures that the characters of a document account for.
* `Place.source`: the characters as a list to consume. Every scan is consuming, save
  `Scalar.escaped`, which begins behind a backslash.
-/

namespace OptionTypes.Yaml

open Consumption

/-- The failures that the characters of a document account for: besides a document that is malformed
there are escapes of no character and directives with a number that is too long. -/
inductive ScanFault (cs : List Char) : Error → Prop where
  | malformed : ScanFault cs .malformed
  | escape {ds : List Char} {e : Escape.Error} (hin : '\\' :: 'U' :: ds <:+: cs)
      (hlength : ds.length = 8) (hhex : ds.all Digit.isHex = true)
      (hbeyond : 0x110000 ≤ Digit.ofHex ds) (hcode : Escape.codePoint (Digit.ofHex ds) = .error e) :
      ScanFault cs (.escape e)
  | digits {length : Nat} (h : Reading.HoldsLongRun (Text.ofChars cs) length) :
      ScanFault cs (.number (.tooManyDigits length))

/-- What a part of a document accounts for, the whole accounts for. -/
theorem ScanFault.mono {cs cs' : List Char} {e : Error} (h : ScanFault cs e) (hin : cs <:+ cs') :
    ScanFault cs' e := by
  cases h with
  | malformed => exact .malformed
  | escape hmark hlength hhex hbeyond hcode =>
    exact .escape (hmark.trans hin.isInfix) hlength hhex hbeyond hcode
  | digits h => exact .digits (h.mono (hin.isInfix.map _))

/-- The characters of a document, of which a place has some left. -/
def Place.source : Source Place Char Error where
  left := Place.rest
  Accounts := ScanFault
  mono := fun hin h => h.mono hin

namespace Place

theorem rest_step (p : Place) : p.step.rest = p.rest.drop 1 := by
  unfold step
  split
  next h => rw [h, List.drop_nil]
  next c rest h =>
    rw [h]
    split
    · rfl
    · split
      · rfl
      · rfl

/-- Moving on by some characters leaves the rest without them, whatever lines they end. -/
theorem rest_forward (n : Nat) (p : Place) : (forward n p).rest = p.rest.drop n := by
  induction n generalizing p with
  | zero => rfl
  | succ n ih =>
    rw [forward, ih, rest_step, List.drop_drop]
    congr 1
    omega

/-- What is left is a tail of what was left before. -/
theorem rest_forward_suffix (n : Nat) (p : Place) : (forward n p).rest <:+ p.rest := by
  rw [rest_forward]
  exact List.drop_suffix n p.rest

theorem rest_forward_one {p : Place} {c : Char} {rest : List Char} (h : p.rest = c :: rest) :
    (p.forward 1).rest = rest := by
  rw [rest_forward, h, List.drop_one, List.tail_cons]

/-- A character that is found is the next one that is left. -/
theorem rest_eq_of_peek {p : Place} {c : Char} (h : p.peek = c) (hc : c ≠ none) :
    ∃ rest, p.rest = c :: rest := by
  cases hrest : p.rest with
  | nil =>
    have hnone : p.peek = none := by
      show (p.rest[0]?).getD none = none
      rw [hrest]
      rfl
    exact absurd (h.symm.trans hnone) hc
  | cons d rest =>
    have hd : p.peek = d := by
      show (p.rest[0]?).getD none = d
      rw [hrest]
      rfl
    exact ⟨rest, by rw [← h, hd]⟩

end Place

namespace Scan

variable {α : Type}

instance consuming_fail : Consuming Place.source (fail : Scan α) := .failing fun _ => .malformed

instance : Consuming Place.source peek := by
  unfold peek
  infer_instance

instance (n : Nat) : Consuming Place.source (peekAt n) := by
  unfold peekAt
  infer_instance

instance (n : Nat) : Consuming Place.source (forward n) := .change (Place.rest_forward_suffix n)

instance : Consuming Place.source column := by
  unfold column
  infer_instance

instance : Consuming Place.source bound := by
  unfold bound
  infer_instance

instance (p : Char → Bool) : Consuming Place.source (takeWhile p) := by
  unfold takeWhile
  infer_instance

instance (p : Char → Bool) : Consuming Place.source (skipWhile p) := by
  unfold skipWhile
  infer_instance

instance (p : Char → Bool) : Consuming Place.source (expect p) := by
  unfold expect
  infer_instance

theorem peek_bind (f : Char → Scan α) (p : Place) : (peek >>= f) p = f p.peek p := rfl

theorem get_bind (f : Place → Scan α) (p : Place) : (get >>= f) p = f p p := rfl

theorem forward_bind (n : Nat) (f : Unit → Scan α) (p : Place) :
    (forward n >>= f) p = f () (p.forward n) := rfl

theorem takeWhile_bind (q : Char → Bool) (f : List Char → Scan α) (p : Place) :
    (takeWhile q >>= f) p = f (p.rest.takeWhile q) (p.forward (p.rest.takeWhile q).length) := rfl

instance : Consuming Place.source skipSpaces := by
  unfold skipSpaces
  infer_instance

instance : Consuming Place.source lineBreak := by
  unfold lineBreak
  infer_instance

instance : Consuming Place.source skipComment := by
  unfold skipComment
  infer_instance

instance : Consuming Place.source endOfLine := by
  unfold endOfLine
  infer_instance

instance : Consuming Place.source name := by
  unfold name
  infer_instance

end Scan

namespace Scalar

open Scan

instance (n : Nat) : Consuming Place.source (quotedBreaks n) := by
  induction n with
  | zero => exact consuming_fail
  | succ n ih =>
    unfold quotedBreaks
    infer_instance

/-- No numeric escape begins with what is found past the end. -/
theorem ne_none_of_escapeDigits? {c : Char} {count : Nat} (h : escapeDigits? c = some count) :
    c ≠ Place.none := by
  rintro rfl
  cases h

/-- Two or four digits always denote something. -/
theorem beyond_of_escapeDigits? {c : Char} {ds : List Char} {e : Escape.Error}
    (hcount : escapeDigits? c = some ds.length)
    (hcode : Escape.codePoint (Digit.ofHex ds) = .error e) :
    c = 'U' ∧ ds.length = 8 ∧ 0x110000 ≤ Digit.ofHex ds := by
  have hbeyond : 0x110000 ≤ Digit.ofHex ds := (Escape.codePoint_eq_error_iff.mp hcode).1
  have hbound : Digit.ofHex ds < 16 ^ ds.length := by
    rw [← List.length_map (fun c => (Digit.hexValue? c).getD 0)]
    apply Digit.number_lt (by decide)
    exact List.forall_mem_map.mpr fun c _ => Escape.digitValue_lt (.char c)
  unfold escapeDigits? at hcount
  split at hcount
  · rw [← Option.some.inj hcount] at hbound
    omega
  · rw [← Option.some.inj hcount] at hbound
    omega
  · exact ⟨rfl, (Option.some.inj hcount).symm, hbeyond⟩
  · cases hcount

/-- An escape fails for the backslash before it and the digits that follow. -/
theorem confined_escaped (p : Place) : Confined Place.source ('\\' :: p.rest) (escaped p) := by
  have hin : p.rest <:+ '\\' :: p.rest := List.suffix_cons '\\' p.rest
  unfold escaped
  rw [peek_bind]
  cases simpleEscape? p.peek with
  | some stands => exact Consuming.within _ hin
  | none =>
    cases hcount : escapeDigits? p.peek with
    -- the end of a line, or an escape that does not exist
    | none => exact Consuming.within (ite _ _ _) hin
    | some count =>
      obtain ⟨rest, hrest⟩ := Place.rest_eq_of_peek rfl (ne_none_of_escapeDigits? hcount)
      have hafter : (p.forward 1).rest = rest := Place.rest_forward_one hrest
      simp only [forward_bind, get_bind, hafter]
      split
      next hdigits =>
        obtain ⟨hlength, hhex⟩ := Bool.and_eq_true_iff.mp hdigits
        cases hcode : Escape.codePoint (Digit.ofHex (rest.take count)) with
        | ok stands =>
          have hstep : (p.forward 1).rest <:+ '\\' :: p.rest := (p.rest_forward_suffix 1).trans hin
          exact Consuming.within _ hstep
        | error e =>
          have hmark : '\\' :: p.peek :: rest.take count <+: '\\' :: p.rest := by
            rw [hrest]
            apply (List.prefix_cons_inj _).mpr
            apply (List.prefix_cons_inj _).mpr
            exact List.take_prefix count rest
          have hdigits : escapeDigits? p.peek = some (rest.take count).length := by
            rw [hcount, of_decide_eq_true hlength]
          obtain ⟨hletter, hlength, hbeyond⟩ := beyond_of_escapeDigits? hdigits hcode
          rw [hletter] at hmark
          exact .error (.escape hmark.isInfix hlength hhex hbeyond hcode)
      next => exact .error .malformed

/-- Where an escape begins the backslash is still left. -/
instance (double : Bool) (n : Nat) : Consuming Place.source (quotedWord double n) := by
  induction n with
  | zero => exact consuming_fail
  | succ n ih =>
    unfold quotedWord
    refine .andThen fun run => ⟨fun p => ?_⟩
    rw [peek_bind]
    -- `escaped` is not consuming: where it runs depends on the character that was found
    by_cases hescape : (double && p.peek == '\\') = true
    · obtain ⟨rfl, hpeek⟩ := Bool.and_eq_true_iff.mp hescape
      have hpeek : p.peek = '\\' := beq_iff_eq.mp hpeek
      obtain ⟨rest, hrest⟩ := Place.rest_eq_of_peek hpeek (by decide)
      have hafter : '\\' :: (p.forward 1).rest = p.rest := by
        rw [Place.rest_forward_one hrest, hrest]
      rw [hpeek]
      show Confined Place.source p.rest ((escaped >>= fun piece => quotedWord true n >>= fun more =>
        pure (Text.ofChars run ++ piece ++ more)) (p.forward 1))
      refine (hafter ▸ confined_escaped (p.forward 1)).bind fun piece q hq => ?_
      exact Consuming.within (quotedWord true n >>= fun more => pure _) hq
    · simp only [hescape, Bool.false_eq_true, if_false]
      exact Consuming.confined p

instance : Consuming Place.source quotedGap := by
  unfold quotedGap
  infer_instance

instance (double : Bool) (n : Nat) : Consuming Place.source (quotedRest double n) := by
  induction n with
  | zero => exact consuming_fail
  | succ n ih =>
    unfold quotedRest
    infer_instance

instance (double : Bool) : Consuming Place.source (quoted double) := by
  unfold quoted
  infer_instance

instance (n : Nat) : Consuming Place.source (plainBreaks n) := by
  induction n with
  | zero => exact consuming_fail
  | succ n ih =>
    unfold plainBreaks
    infer_instance

instance : Consuming Place.source plainGap := by
  unfold plainGap
  refine .andThen fun blanks => .andThen fun c => ?_
  split
  · refine .andThen fun first => .andThen fun here => ?_
    split
    · infer_instance
    · refine .andThen fun rounds => .andThen fun more => ?_
      cases more with
      | none => infer_instance
      | some more => infer_instance
  · infer_instance

instance (flow : Bool) (indent : Nat) (gap : List Char) (broken : Bool) (n : Nat) :
    Consuming Place.source (plainFrom flow indent gap broken n) := by
  induction n generalizing gap broken with
  | zero => exact consuming_fail
  | succ n ih =>
    unfold plainFrom
    infer_instance

instance (flow : Bool) (indent : Nat) : Consuming Place.source (plain flow indent) := by
  unfold plain
  infer_instance

instance : Consuming Place.source increment? := by
  unfold increment?
  infer_instance

instance : Consuming Place.source header := by
  unfold header
  extract_lets sign
  have hsign : Consuming Place.source sign := by
    refine .andThen fun c => ?_
    split
    · infer_instance
    · infer_instance
  refine .andThen fun c => ?_
  cases c with
  | none => infer_instance
  | some c => infer_instance

instance (widest n : Nat) : Consuming Place.source (leadingBreaks widest n) := by
  induction n generalizing widest with
  | zero => exact consuming_fail
  | succ n ih =>
    unfold leadingBreaks
    infer_instance

instance (indent : Nat) : Consuming Place.source (indentTo indent) := by
  unfold indentTo
  infer_instance

instance (indent n : Nat) : Consuming Place.source (blockBreaks indent n) := by
  induction n with
  | zero => exact consuming_fail
  | succ n ih =>
    unfold blockBreaks
    infer_instance

instance (indent : Nat) : Consuming Place.source (atBlockLine indent) := by
  unfold atBlockLine
  infer_instance

instance (folded : Bool) (indent : Nat) (breaks : List Char) (n : Nat) :
    Consuming Place.source (blockLines folded indent breaks n) := by
  induction n generalizing breaks with
  | zero => exact consuming_fail
  | succ n ih =>
    unfold blockLines
    infer_instance

instance (folded : Bool) (outer : Int) : Consuming Place.source (block folded outer) := by
  unfold block
  refine .andThen fun _ => .andThen fun head => .andThen fun _ => ?_
  obtain ⟨chomping, increment⟩ := head
  extract_lets least join
  have hjoin : ∀ x, Consuming Place.source (join x) := by
    cases chomping with
    | strip => infer_instance
    | clip => infer_instance
    | keep => infer_instance
  cases increment with
  | none => infer_instance
  | some k => infer_instance

end Scalar

namespace WrittenTag

open Scan

instance (n : Nat) : Consuming Place.source (escapedBytes n) := by
  induction n with
  | zero => exact consuming_fail
  | succ n ih =>
    unfold escapedBytes
    infer_instance

instance (n : Nat) : Consuming Place.source (characters n) := by
  induction n with
  | zero => exact consuming_fail
  | succ n ih =>
    unfold characters
    refine .andThen fun run => .andThen fun c => ?_
    split
    · refine .andThen fun rounds => .andThen fun bytes => ?_
      split
      · infer_instance
      · infer_instance
    · infer_instance

instance : Consuming Place.source body := by
  unfold body
  infer_instance

instance : Consuming Place.source handleMark := by
  unfold handleMark
  infer_instance

instance : Consuming Place.source scan := by
  unfold scan
  refine .andThen fun c => ?_
  extract_lets join
  have hjoin : ∀ tag, Consuming Place.source (join tag) := fun tag => inferInstance
  infer_instance

end WrittenTag

namespace Directive

open Scan

/-- The digits of a number that is too long are digits of the document. -/
instance : Consuming Place.source digits where
  confined p := by
    have hstart : p.rest.takeWhile Char.isDigit <+: p.rest := List.takeWhile_prefix Char.isDigit
    unfold digits
    rw [takeWhile_bind]
    split
    · exact .error .malformed
    · split
      next hlong =>
        refine .error (.digits ⟨_, hstart.isInfix.map _, fun c hc => ?_, rfl, hlong⟩)
        exact (List.mem_takeWhile_imp hc :)
      next => exact .ok _ (p.rest_forward_suffix _)

instance : Consuming Place.source scan := by
  unfold scan
  refine .andThen fun _ => .andThen fun word => .andThen fun _ => ?_
  extract_lets join
  have hjoin : ∀ d, Consuming Place.source (join d) := fun d => inferInstance
  split
  · refine .andThen fun _ => .andThen fun major => .andThen fun _ => ?_
    infer_instance
  · split
    · refine .andThen fun _ => .andThen fun handle => .andThen fun _ => ?_
      infer_instance
    · infer_instance

end Directive

end OptionTypes.Yaml
