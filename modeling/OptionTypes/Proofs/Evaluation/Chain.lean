import OptionTypes.Proofs.Evaluation.InPlace
import OptionTypes.Proofs.Evaluation.Operators
import OptionTypes.Proofs.Integer

/-!
# Chains of additions

`e₁ + … + eₙ` is nested to the left, so that its value is found from the left. Integers are added
until the first text comes, what is there by then is written, and from there on everything is joined
as text. Booleans are integers before the first text and words after it.

* `Chain` holds of the operands of such a node, whichever parentheses are around them.
* `eval_chain_of_text`: a chain that begins with a text.
* `chain_of_plus`: a chain of texts, integers and Booleans.
-/

namespace OptionTypes.Evaluation

open Syntax Outcome

/-- Whether a node is another one in some pairs of parentheses. -/
inductive Wraps (e : Tree) : Tree → Prop where
  | bare : Wraps e e
  | parentheses {t inner : Tree} (hkind : t.is .parenthesizedExpression = true)
      (hinner : t.children.find? isOperand = some inner) (h : Wraps e inner) : Wraps e t

/-- The operands of a node that is a chain of additions, nested to the left. -/
inductive Chain : List Tree → Tree → Prop where
  | single {e t : Tree} (h : Wraps e t) : Chain [e] t
  | plus {es : List Tree} {e t left right : Tree} (hkind : t.is .binaryExpression = true)
      (hsymbol : symbolOf t.children = "+") (hleft : t.child? .left = some left)
      (hright : t.child? .right = some right) (h : Chain es left) (hwraps : Wraps e right) :
      Chain (es ++ [e]) t

variable {s : Scope} {context : Option Tree} {t e left right : Tree} {es fs : List Tree}
  {vs pre post : List Value} {head u : Text}

/-- Parentheses do not change a value. Induction on the pairs of them. -/
theorem Wraps.eval_eq (h : Wraps e t) : eval s context t = eval s context e := by
  induction h with
  | bare => rfl
  | @parentheses t inner hkind hinner _ ih =>
    rw [eval_of_parentheses hkind, evalFirst_of_find? hinner, ih]

/-- One addition. -/
theorem eval_plus (hkind : t.is .binaryExpression = true) (hsymbol : symbolOf t.children = "+")
    (hleft : t.child? .left = some left) (hright : t.child? .right = some right)
    (hwraps : Wraps e right) :
    eval s context t
      = eval s context left >>= fun a => eval s context e >>= fun b =>
        operate s t left right .add a b := by
  have hop : operator? (symbolOf t.children) = some .add := by
    rw [hsymbol]
    rfl
  rw [eval_of_operation hkind hop, evalPart_of_child? hleft, evalPart_of_child? hright, hwraps.eval_eq,
    hleft, hright]
  rfl

/-- A chain has an operand. -/
theorem Chain.ne_nil (h : Chain es t) : es ≠ [] := by
  cases h with
  | single h => exact List.cons_ne_nil _ _
  | plus => exact List.append_ne_nil_of_right_ne_nil _ (List.cons_ne_nil _ _)

/-- The first operands of a chain are a chain, which is the first operand of the others. Induction
on the chain from its end, which is how it is nested. -/
theorem Chain.split (h : Chain (es ++ fs) t) (hes : es ≠ []) :
    ∃ m, Chain es m ∧ Chain (m :: fs) t := by
  generalize hxs : es ++ fs = xs at h
  induction h generalizing fs with
  | @single e t hwraps =>
    obtain ⟨rfl, rfl⟩ : es = [e] ∧ fs = [] := by
      rcases List.append_eq_singleton_iff.mp hxs with ⟨hnil, -⟩ | hsingle
      · exact absurd hnil hes
      · exact hsingle
    exact ⟨t, .single hwraps, .single .bare⟩
  | @plus xs e t left right hkind hsymbol hleft hright h hwraps ih =>
    -- the cut is behind the last operand, or inside the chain to the left of it
    rcases List.eq_nil_or_concat fs with rfl | ⟨fs, f, rfl⟩
    · rw [List.append_nil] at hxs
      rw [hxs]
      exact ⟨t, .plus hkind hsymbol hleft hright h hwraps, .single .bare⟩
    · rw [List.concat_eq_append, ← List.append_assoc] at hxs
      obtain ⟨hinit, hlast⟩ := List.append_inj' hxs rfl
      obtain ⟨m, hm, hrest⟩ := ih hinit
      rw [List.concat_eq_append, List.singleton_inj.mp hlast]
      exact ⟨m, hm, .plus hkind hsymbol hleft hright hrest hwraps⟩

/-! ## From a text on -/

/-- **What follows a text is joined to it.** Induction on the chain: what is to the left of its last
operand is a text already, so the operator joins. -/
theorem eval_chain_of_text {first : Result Text} (h : Chain (e :: es) t)
    (he : eval s context e = first.map .text) :
    eval s context t
      = first >>= fun head => es.mapM (fun e => eval s context e >>= textOf) >>= fun texts =>
        .ok (.text (head ++ texts.flatten)) := by
  generalize hxs : e :: es = xs at h
  induction h generalizing es with
  | single hwraps =>
    obtain ⟨rfl, rfl⟩ := List.cons.inj hxs
    rw [hwraps.eval_eq, he]
    cases first with
    | error f => rfl
    | ok head => exact congrArg (fun t => Except.ok (Value.text t)) (List.append_nil head).symm
  | @plus xs last t left right hkind hsymbol hleft hright h hwraps ih =>
    -- the text stands first on the left side
    obtain ⟨rest, rfl⟩ : ∃ rest, xs = e :: rest := by
      cases xs with
      | nil => exact absurd rfl h.ne_nil
      | cons x rest => exact ⟨rest, by rw [(List.cons.inj hxs).1]⟩
    obtain rfl : es = rest ++ [last] := (List.cons.inj hxs).2
    rw [eval_plus hkind hsymbol hleft hright hwraps, ih rfl, List.mapM_append]
    cases first with
    | error f => rfl
    | ok head =>
      cases rest.mapM fun e => eval s context e >>= textOf with
      | error f => rfl
      | ok texts =>
        simp only [ok_bind, List.mapM_cons, List.mapM_nil]
        cases eval s context last with
        | error f => rfl
        | ok b =>
          rw [ok_bind, operate_texts (.inl rfl), ok_bind]
          show (textOf b >>= fun tail => Except.ok (Value.text (head ++ texts.flatten ++ tail))) = _
          cases textOf b with
          | error f => rfl
          | ok tail =>
            refine congrArg (fun t => Except.ok (Value.text t)) ?_
            simp

/-! ## Texts, integers and Booleans -/

/-- A value that is a text, an integer or a Boolean. -/
inductive IsPlain : Value → Prop where
  | text (t : Text) : IsPlain (.text t)
  | int (n : Int) : IsPlain (.int n)
  | bool (b : Bool) : IsPlain (.bool b)

/-- The integer that a value counts as in a sum. -/
def asInt : Value → Int
  | .bool b => if b then 1 else 0
  | .number (.int n) => n
  | _ => 0

/-- The text of a value as a script writes it, however long its integers are. -/
def plainText : Value → Text
  | .text t => t
  | .bool b => if b then "true" else "false"
  | .number (.int n) => Text.ofChars (Reading.decimal n)
  | _ => []

/-- The integer in the text of a value. -/
def integersOf : Value → List Int
  | .number (.int n) => [n]
  | _ => []

/-- The text of all that stands before the first text. -/
def headText : List Value → Text
  | [] => []
  | [v] => plainText v
  | vs => Text.ofChars (Reading.decimal (vs.map asInt).sum)

/-- The integers in that text. -/
def headIntegers : List Value → List Int
  | [] => []
  | [v] => integersOf v
  | vs => [(vs.map asInt).sum]

/-- A text with integers in it, if none is too long to be written. -/
def written (ns : List Int) (t : Text) : Result Text :=
  if ∀ n ∈ ns, Reading.IsShort n then .ok t else .error (.number .tooLongToWrite)

/-- Two texts with integers are written one after the other exactly when all of the integers can
be. -/
theorem written_append (ns ns' : List Int) (t t' : Text) :
    (written ns t >>= fun head => written ns' t' >>= fun tail => .ok (head ++ tail))
      = written (ns ++ ns') (t ++ t') := by
  unfold written
  by_cases h : ∀ n ∈ ns, Reading.IsShort n
  · by_cases h' : ∀ n ∈ ns', Reading.IsShort n
    · rw [if_pos h, if_pos h', if_pos (List.forall_mem_append.mpr ⟨h, h'⟩)]
      rfl
    · rw [if_pos h, if_neg h', if_neg fun hall => h' (List.forall_mem_append.mp hall).2]
      rfl
  · rw [if_neg h, if_neg fun hall => h (List.forall_mem_append.mp hall).1]
    rfl

/-- A text without integers is written. -/
theorem written_nil (t : Text) : written [] t = .ok t := if_pos nofun

/-- The text of an integer, unless it is too long. -/
theorem textOf_int (n : Int) : textOf (.int n) = written [n] (Text.ofChars (Reading.decimal n)) := by
  have htext : (Value.int n).toText = Reading.writeInteger n := rfl
  unfold textOf written
  rw [htext]
  split
  next hshort =>
    rw [Reading.writeInteger_eq_ok_iff.mpr ⟨hshort n (List.mem_singleton_self n), rfl⟩]
    rfl
  next hlong =>
    have hnot : ¬Reading.IsShort n := fun hshort => hlong (List.forall_mem_singleton.mpr hshort)
    rw [Reading.writeInteger_of_not_isShort hnot]
    rfl

/-- The text of a plain value. -/
theorem IsPlain.textOf_eq {v : Value} (h : IsPlain v) :
    textOf v = written (integersOf v) (plainText v) := by
  cases h with
  | text t => exact (written_nil t).symm
  | int n => exact textOf_int n
  | bool b => exact (written_nil _).symm

/-- A plain value that is no text counts as an integer. -/
theorem IsPlain.number?_eq {v : Value} (h : IsPlain v) (htext : isText v = false) :
    number? v = some (.int (asInt v)) := by
  cases h with
  | text t => cases htext
  | int n => rfl
  | bool b => rfl

/-- The texts of plain values, joined. -/
theorem mapM_textOf (hvalues : List.Forall₂ (fun e v => eval s context e = .ok v) es vs)
    (hplain : ∀ v ∈ vs, IsPlain v) :
    (es.mapM (fun e => eval s context e >>= textOf)).map List.flatten
      = written (vs.flatMap integersOf) (vs.flatMap plainText) := by
  induction hvalues with
  | nil =>
    rw [List.mapM_nil]
    exact (written_nil []).symm
  | @cons e v es vs he _ ih =>
    obtain ⟨hv, hvs⟩ := List.forall_mem_cons.mp hplain
    rw [List.flatMap_cons, List.flatMap_cons, ← written_append, ← ih hvs, ← hv.textOf_eq,
      List.mapM_cons, he, ok_bind]
    cases textOf v with
    | error f => rfl
    | ok first =>
      cases es.mapM fun e => eval s context e >>= textOf with
      | error f => rfl
      | ok rest => rfl

/-- A chain that begins with a text, followed by plain values. -/
theorem eval_chain_of_plain {ns : List Int} (h : Chain (e :: es) t)
    (he : eval s context e = (written ns head).map .text)
    (hvalues : List.Forall₂ (fun e v => eval s context e = .ok v) es vs)
    (hplain : ∀ v ∈ vs, IsPlain v) :
    eval s context t
      = (written (ns ++ vs.flatMap integersOf) (head ++ vs.flatMap plainText)).map .text := by
  rw [eval_chain_of_text h he, ← written_append, ← mapM_textOf hvalues hplain]
  cases written ns head with
  | error f => rfl
  | ok head =>
    cases es.mapM fun e => eval s context e >>= textOf with
    | error f => rfl
    | ok texts => rfl

/-! ## Before the first text -/

/-- Several values before the first text are written as their sum. -/
theorem textOf_sum (h : 2 ≤ vs.length) :
    textOf (.int (vs.map asInt).sum) = written (headIntegers vs) (headText vs) := by
  match vs, h with
  | _ :: _ :: _, _ => exact textOf_int _

/-- **A sum.** A single operand keeps its value. Induction on the chain: its last operand is added
to the sum of the others. -/
theorem eval_chain_of_numbers (h : Chain es t)
    (hvalues : List.Forall₂ (fun e v => eval s context e = .ok v) es vs)
    (hplain : ∀ v ∈ vs, IsPlain v) (hnumbers : ∀ v ∈ vs, isText v = false) :
    ∃ v, eval s context t = .ok v ∧ number? v = some (.int (vs.map asInt).sum)
      ∧ textOf v = written (headIntegers vs) (headText vs)
      ∧ (2 ≤ es.length → v = .int (vs.map asInt).sum) := by
  induction h generalizing vs with
  | single hwraps =>
    obtain ⟨v, _, he, hnil, rfl⟩ := List.forall₂_cons_left_iff.mp hvalues
    obtain rfl := List.forall₂_nil_left_iff.mp hnil
    have hv : IsPlain v := hplain v (List.mem_singleton_self v)
    refine ⟨v, hwraps.eval_eq.trans he, ?_, hv.textOf_eq, ?_⟩
    · rw [hv.number?_eq (hnumbers v (List.mem_singleton_self v)), List.map_singleton,
        List.sum_singleton]
    · intro hlong
      exact absurd hlong (Nat.lt_irrefl 1)
  | @plus es e t left right hkind hsymbol hleft hright h hwraps ih =>
    -- The last value is that of the right operand, those before it are those of the left one.
    obtain ⟨vs, ws, rfl, hinit, hlast⟩ : ∃ vs' ws, vs = vs' ++ ws
        ∧ List.Forall₂ (fun e v => eval s context e = .ok v) es vs'
        ∧ List.Forall₂ (fun e v => eval s context e = .ok v) [e] ws :=
      ⟨_, _, (List.take_append_drop es.length vs).symm,
        (List.forall₂_take_append _ _ _ hvalues.flip).flip,
        (List.forall₂_drop_append _ _ _ hvalues.flip).flip⟩
    obtain ⟨w, _, he, hnil, rfl⟩ := List.forall₂_cons_left_iff.mp hlast
    obtain rfl := List.forall₂_nil_left_iff.mp hnil
    obtain ⟨hplain, hw⟩ := List.forall_mem_append.mp hplain
    obtain ⟨hnumbers, hwNumber⟩ := List.forall_mem_append.mp hnumbers
    obtain ⟨v, hv, hnumber, -, -⟩ := ih hinit hplain hnumbers
    have hsum : ((vs ++ [w]).map asInt).sum = (vs.map asInt).sum + asInt w := by
      rw [List.map_append, List.sum_append, List.map_singleton, List.sum_singleton]
    have hwValue := (hw w (List.mem_singleton_self w)).number?_eq
      (hwNumber w (List.mem_singleton_self w))
    have hlong : 2 ≤ (vs ++ [w]).length := by
      have hpos := List.length_pos_iff.mpr h.ne_nil
      rw [hinit.length_eq] at hpos
      rw [List.length_append, List.length_singleton]
      omega
    refine ⟨.int ((vs ++ [w]).map asInt).sum, ?_, rfl, textOf_sum hlong, fun _ => rfl⟩
    rw [eval_plus hkind hsymbol hleft hright hwraps, hv, he, ok_bind, ok_bind,
      operate_numbers hnumber hwValue, hsum]
    rfl

/-- The first text is joined to what stands before it. -/
theorem eval_pair_of_text {m : Tree} {v : Value} (h : Chain [m, e] t) (hm : eval s context m = .ok v)
    (he : eval s context e = .ok (.text u)) :
    eval s context t = textOf v >>= fun head => .ok (.text (head ++ u)) := by
  generalize hxs : [m, e] = xs at h
  cases h with
  | single hwraps => cases hxs
  | @plus es last t left right hkind hsymbol hleft hright hinit hwraps =>
    obtain ⟨rfl, hlast⟩ := List.append_inj' (show [m] ++ [e] = es ++ [last] from hxs) rfl
    obtain rfl := List.singleton_inj.mp hlast
    generalize hys : [m] = ys at hinit
    cases hinit with
    | single hwrapsLeft =>
      obtain rfl := List.singleton_inj.mp hys
      rw [eval_plus hkind hsymbol hleft hright hwraps, hwrapsLeft.eval_eq, hm, he, ok_bind, ok_bind,
        operate_texts (.inr rfl)]
      rfl
    -- a chain is never empty, so nothing stands to the left of the one operand
    | plus _ _ _ _ hnone =>
      obtain ⟨hnil, -⟩ := List.append_inj' (show [] ++ [m] = _ ++ [_] from hys) rfl
      exact absurd hnil.symm hnone.ne_nil

/-- A chain with a text in it, whatever stands before. It is cut at the text (`Chain.split`): a sum
before, one addition with the text, and a chain that begins with a text. -/
theorem eval_chain_around_text (hchain : Chain es t)
    (hvalues : List.Forall₂ (fun e v => eval s context e = .ok v) es (pre ++ .text u :: post))
    (hplain : ∀ v ∈ pre ++ .text u :: post, IsPlain v) (hpre : ∀ v ∈ pre, isText v = false) :
    eval s context t
      = (written (headIntegers pre ++ post.flatMap integersOf)
          (headText pre ++ u ++ post.flatMap plainText)).map .text := by
  -- the operands before the first text, that text, and those after it
  obtain ⟨before, rest, rfl, hbefore, hrest⟩ : ∃ before rest, es = before ++ rest
      ∧ List.Forall₂ (fun e v => eval s context e = .ok v) before pre
      ∧ List.Forall₂ (fun e v => eval s context e = .ok v) rest (.text u :: post) :=
    ⟨_, _, (List.take_append_drop pre.length es).symm,
      List.forall₂_take_append _ _ _ hvalues, List.forall₂_drop_append _ _ _ hvalues⟩
  obtain ⟨e, after, he, hafter, rfl⟩ := List.forall₂_cons_right_iff.mp hrest
  obtain ⟨hplainPre, hplainRest⟩ := List.forall_mem_append.mp hplain
  have hplainPost := (List.forall_mem_cons.mp hplainRest).2
  by_cases hnil : before = []
  · subst hnil
    obtain rfl := List.forall₂_nil_left_iff.mp hbefore
    refine eval_chain_of_plain hchain ?_ hafter hplainPost
    rw [he, headIntegers, written_nil]
    rfl
  · obtain ⟨m, hm, hchain⟩ := hchain.split hnil
    have hpair : Chain ([m, e] ++ after) t := hchain
    obtain ⟨m', hm', hchain⟩ := hpair.split (List.cons_ne_nil _ _)
    obtain ⟨v, hv, -, htext, -⟩ := eval_chain_of_numbers hm hbefore hplainPre hpre
    refine eval_chain_of_plain hchain ?_ hafter hplainPost
    rw [eval_pair_of_text hm' hv he, htext]
    unfold written
    split
    · rfl
    · rfl

/-- **Chains of `+`.** Without a text they are the exact sum, Booleans counted as 0 and 1. With a
text they are the text of what stands before the first one, that text, and the texts of all that
follows, provided that no integer in these is too long to be written.

Both parts are by induction on the chain, operand by operand: up to the first text the sum is an
integer (`eval_chain_of_numbers`), and from there on a text (`eval_chain_around_text`). -/
theorem chain_of_plus (hchain : Chain es t) (hlong : 2 ≤ es.length)
    (hvalues : List.Forall₂ (fun e v => eval s context e = .ok v) es vs)
    (hplain : ∀ v ∈ vs, IsPlain v) :
    ((∀ v ∈ vs, isText v = false) → eval s context t = .ok (.int (vs.map asInt).sum))
      ∧ ∀ pre u post, vs = pre ++ .text u :: post → (∀ v ∈ pre, isText v = false) →
        eval s context t
          = (written (headIntegers pre ++ post.flatMap integersOf)
              (headText pre ++ u ++ post.flatMap plainText)).map .text := by
  constructor
  · intro hnumbers
    obtain ⟨v, hv, -, -, hsum⟩ := eval_chain_of_numbers hchain hvalues hplain hnumbers
    rw [hv, hsum hlong]
  · rintro pre u post rfl hpre
    exact eval_chain_around_text hchain hvalues hplain hpre

/-- The node of an addition with its symbol at an offset. -/
def addition (start offset stop : Nat) (left right : Tree) : Tree :=
  .ofKind .binaryExpression start stop
    [left.withField .left, .node (.token "+") (some .operator) offset (offset + 1) false [],
      right.withField .right]

/-- A script with a chain of plain values. -/
def mixedSource : List Char := "true + 1 + 'a' + (2)".toList

/-- What comes before its text. -/
def mixedSum : Tree := addition 0 5 8 (.ofKind .trueLiteral 0 4 []) (.ofKind .number 7 8 [])

/-- Its text. -/
def mixedText : Tree :=
  .ofKind .string 11 14 [.ofToken "'" 11 12, .ofKind .stringFragment 12 13 [], .ofToken "'" 13 14]

/-- The whole chain. -/
def mixed : Tree :=
  addition 0 15 20 (addition 0 9 14 mixedSum mixedText)
    (.ofKind .parenthesizedExpression 17 20
      [.ofToken "(" 17 18, .ofKind .number 18 19 [], .ofToken ")" 19 20])

/-- Its operands. -/
def mixedOperands : List Tree :=
  [.node (.kind .trueLiteral) (some .left) 0 4 false [],
    .node (.kind .number) (some .right) 7 8 false [], mixedText.withField .right,
    .ofKind .number 18 19 []]

/-- The tree of the script is a chain of its four operands. -/
theorem chain_mixed : Chain mixedOperands mixed := by
  have hsum : Chain (mixedOperands.take 2) (mixedSum.withField .left) :=
    .plus rfl rfl rfl rfl (.single .bare) .bare
  have htext : Chain (mixedOperands.take 2 ++ [mixedText.withField .right])
      ((addition 0 9 14 mixedSum mixedText).withField .left) :=
    .plus rfl rfl rfl rfl hsum .bare
  exact .plus rfl rfl rfl rfl htext (.parentheses rfl rfl .bare)

/-- The numbers before the text are added, the number after it is written. -/
theorem chain_of_plus_mixed :
    ((Dialect.javascript.parse mixedSource).nodes.find? (·.is .binaryExpression)).map
        (·.nodes.map fun t => (t.label, t.field, t.start, t.stop, t.children.length))
      = some (mixed.nodes.map fun t => (t.label, t.field, t.start, t.stop, t.children.length))
      ∧ eval ⟨Utf8.encode mixedSource, []⟩ none mixed = .ok (.str "2a2") := by
  refine ⟨by decide +kernel, ?_⟩
  have hvalues : List.Forall₂ (fun e v => eval ⟨Utf8.encode mixedSource, []⟩ none e = .ok v)
      mixedOperands [.bool true, .int 1, .str "a", .int 2] :=
    .cons rfl (.cons rfl (.cons rfl (.cons rfl .nil)))
  have hplain : ∀ v ∈ [Value.bool true, .int 1, .str "a", .int 2], IsPlain v := by
    simp only [List.forall_mem_cons]
    exact ⟨.bool true, .int 1, .text _, .int 2, nofun⟩
  have hnumbers : ∀ v ∈ [Value.bool true, .int 1], isText v = false := by
    simp only [List.forall_mem_cons]
    exact ⟨rfl, rfl, nofun⟩
  have hshort : ∀ n ∈ headIntegers [.bool true, .int 1] ++ [Value.int 2].flatMap integersOf,
      Reading.IsShort n := by decide +kernel
  have heval := (chain_of_plus chain_mixed (by decide) hvalues hplain).2 [.bool true, .int 1] "a"
    [.int 2] rfl hnumbers
  rw [heval, written, if_pos hshort]
  rfl

/-- A script that writes a sum with too many digits. -/
def longSource : List Char := "10**4300 + false + 'x'".toList

/-- Its first operand. -/
def longPower : Tree :=
  .node (.kind .binaryExpression) (some .left) 0 8 false
    [.node (.kind .number) (some .left) 0 2 false [],
      .node (.token "**") (some .operator) 2 4 false [],
      .node (.kind .number) (some .right) 4 8 false []]

/-- The sum. -/
def longSum : Tree := addition 0 9 16 longPower (.ofKind .falseLiteral 11 16 [])

/-- What the sum is joined to. -/
def longText : Tree :=
  .ofKind .string 19 22 [.ofToken "'" 19 20, .ofKind .stringFragment 20 21 [], .ofToken "'" 21 22]

/-- The whole chain. -/
def long : Tree := addition 0 17 22 longSum longText

/-- Its operands. -/
def longOperands : List Tree :=
  [longPower, .node (.kind .falseLiteral) (some .right) 11 16 false [], longText.withField .right]

/-- The tree of the script is a chain whose sum is beyond the limit. -/
theorem chain_long : Chain longOperands long := by
  have hsum : Chain (longOperands.take 2) (longSum.withField .left) :=
    .plus rfl rfl rfl rfl (.single .bare) .bare
  exact .plus rfl rfl rfl rfl hsum .bare

/-- A sum that is too long to be written has no text. -/
theorem not_forall_chain_has_value :
    ¬∀ (s : Scope) (context : Option Tree) (t : Tree) (es : List Tree) (vs : List Value),
      Chain es t → 2 ≤ es.length → List.Forall₂ (fun e v => eval s context e = .ok v) es vs →
      (∀ v ∈ vs, IsPlain v) →
      ∀ pre u post, vs = pre ++ .text u :: post → (∀ v ∈ pre, isText v = false) →
        eval s context t = .ok (.text (headText pre ++ u ++ post.flatMap plainText)) := by
  intro h
  have hvalues : List.Forall₂ (fun e v => eval ⟨Utf8.encode longSource, []⟩ none e = .ok v)
      longOperands ([.int (10 ^ Reading.digitLimit), .bool false] ++ .text "x" :: []) :=
    .cons rfl (.cons rfl (.cons rfl .nil))
  have hplain : ∀ v ∈ [.int (10 ^ Reading.digitLimit), .bool false] ++ .text "x" :: [], IsPlain v := by
    simp only [List.cons_append, List.nil_append, List.forall_mem_cons]
    exact ⟨.int _, .bool false, .text _, nofun⟩
  have hnumbers : ∀ v ∈ [Value.int (10 ^ Reading.digitLimit), .bool false], isText v = false := by
    simp only [List.forall_mem_cons]
    exact ⟨rfl, rfl, nofun⟩
  -- the number itself can be added, and is too long once a text comes into the sum
  have hclaim := h _ none long _ _ chain_long (by decide) hvalues hplain _ _ _ rfl hnumbers
  have hlong : ¬∀ n ∈ headIntegers [.int (10 ^ Reading.digitLimit), .bool false]
      ++ [].flatMap integersOf, Reading.IsShort n := by
    have hsum : ∀ n : Int, ([.int n, .bool false].map asInt).sum = n := by
      intro n
      simp [asInt, Value.int]
    intro hshort
    have hpow : Reading.IsShort ([.int (10 ^ Reading.digitLimit), .bool false].map asInt).sum :=
      hshort _ (List.mem_cons_self ..)
    rw [hsum] at hpow
    exact Reading.not_isShort_pow hpow
  rw [eval_chain_around_text chain_long hvalues hplain hnumbers, written, if_neg hlong] at hclaim
  cases hclaim

end OptionTypes.Evaluation
