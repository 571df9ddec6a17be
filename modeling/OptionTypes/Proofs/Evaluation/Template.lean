import OptionTypes.Proofs.Comments.Evaluation
import OptionTypes.Proofs.Evaluation.Chain

/-!
# Templates are concatenations

The pieces of a template are cut out of the source, between the places where its substitutions begin
and end. A string is a node of its own, and a `+` joins what its sides denote. Both have the same
text where the pieces are the bodies of the strings and the substitutions hold the other operands.

* `Pieces`: the bodies and the substitutions of a template.
* `exists_pieces`: every template node is made of such pieces.
* `Joins`: the operands of the concatenation with the same bodies and expressions.
* `template_is_concatenation`: both have the same text, or neither has one.
-/

namespace OptionTypes.Evaluation

open Syntax Outcome

/-! ## Bodies -/

/-- The text that a body denotes. -/
def bodyText (body : List Char) : Result Text :=
  (Escape.decode (Text.ofChars body)).mapError .escape

/-- Without a carriage return there is no pair to be made one. -/
theorem unifyPairs_ofChars {cs : List Char} (h : '\r' ∉ cs) :
    Blank.unifyPairs (Text.ofChars cs) = Text.ofChars cs := by
  induction cs with
  | nil => rfl
  | cons c cs ih =>
    obtain ⟨hc, hcs⟩ := List.ne_and_not_mem_of_not_mem_cons h
    have htail := ih hcs
    show Blank.unifyPairs (.char c :: Text.ofChars cs) = .char c :: Text.ofChars cs
    unfold Blank.unifyPairs
    split
    next heq => cases heq
    next heq => exact absurd (CodePoint.char.inj (List.cons.inj heq).1).symm hc
    next heq =>
      obtain ⟨rfl, rfl⟩ := List.cons.inj heq
      rw [htail]

/-- A piece of a template denotes what its body does. -/
theorem chunk_eq_bodyText {source : Bytes} {start stop : Nat} {body : List Char}
    (hslice : Utf8.decodeLossy (slice source start stop) = body) (hbody : '\r' ∉ body) :
    chunk source start stop = bodyText body := by
  unfold chunk bodyText
  rw [hslice, unifyPairs_ofChars hbody]

/-- Whether a node is a string with a body between two marks. -/
def Quotes (source : Bytes) (body : List Char) (t : Tree) : Prop :=
  t.is .string = true ∧ ∃ q q', t.text source = Text.ofChars (q :: (body ++ [q']))

variable {source source' : Bytes} {symbols : List (Text × Value)} {context context' : Option Tree}
  {t t' e e' first : Tree} {ts es : List Tree} {body : List Char}

/-- A string between marks has the text that its body denotes. -/
theorem eval_of_quotes (h : Quotes source body t) :
    eval ⟨source, symbols⟩ context t = (bodyText body).map .text := by
  obtain ⟨hkind, q, q', htext⟩ := h
  have hmarks : withoutMarks (t.text source) = Text.ofChars body := by
    rw [htext]
    simp [withoutMarks, Text.ofChars]
  have hvalue : stringValue source t = Escape.decode (Text.ofChars body) := by
    rw [stringValue, hmarks]
  rw [eval_of_string hkind, hvalue, bodyText]

/-! ## Templates -/

/-- A substitution: its operand, and the body after it. -/
abbrev Substitution := Tree × List Char

/-- The first body and the substitutions of a template, from an offset on. -/
inductive Pieces (source : Bytes) (stop : Nat) :
    Nat → List Tree → List Char → List Substitution → Prop where
  | last {start : Nat} {body : List Char}
      (h : Utf8.decodeLossy (slice source start stop) = body) :
      Pieces source stop start [] body []
  /-- What is no substitution is part of a body. -/
  | skip {start : Nat} {t : Tree} {ts : List Tree} {body : List Char} {subs : List Substitution}
      (ht : t.is .templateSubstitution = false) (h : Pieces source stop start ts body subs) :
      Pieces source stop start (t :: ts) body subs
  | substitution {start : Nat} {t e : Tree} {ts : List Tree} {body after : List Char}
      {subs : List Substitution} (ht : t.is .templateSubstitution = true)
      (hslice : Utf8.decodeLossy (slice source start t.start) = body)
      (he : t.children.find? isOperand = some e) (h : Pieces source stop t.stop ts after subs) :
      Pieces source stop start (t :: ts) body ((e, after) :: subs)

/-- Every template whose substitutions are not empty is made of pieces. -/
theorem exists_pieces (source : Bytes) (stop start : Nat)
    (h : ∀ t ∈ ts, t.is .templateSubstitution = true → isComplete t = true) :
    ∃ body subs, Pieces source stop start ts body subs := by
  induction ts generalizing start with
  | nil => exact ⟨_, [], .last rfl⟩
  | cons t ts ih =>
    obtain ⟨ht, hts⟩ := List.forall_mem_cons.mp h
    cases hkind : t.is .templateSubstitution with
    | false =>
      obtain ⟨body, subs, hpieces⟩ := ih start hts
      exact ⟨body, subs, .skip hkind hpieces⟩
    | true =>
      obtain ⟨body, subs, hpieces⟩ := ih t.stop hts
      -- a substitution that was read without a fault has an expression inside its braces
      have hoperand : t.children.any isOperand = true := by
        have hlabel : t.label = .kind .templateSubstitution := of_decide_eq_true hkind
        have hcomplete := ht hkind
        rw [isComplete, hlabel] at hcomplete
        simpa [partsOf, holdsOperand] using hcomplete
      have hfound := List.find?_isSome.mpr (List.any_eq_true.mp hoperand)
      obtain ⟨e, he⟩ := Option.isSome_iff_exists.mp hfound
      exact ⟨_, _, .substitution hkind rfl he hpieces⟩

/-- The text of a substitution and of the body after it. -/
def substitutionText (s : Scope) (context : Option Tree) (sub : Substitution) : Result Text :=
  eval s context sub.1 >>= fun v => textOf v >>= fun head => bodyText sub.2 >>= fun tail =>
    .ok (head ++ tail)

/-- The text of a template from an offset on is made of its bodies and substitutions in turn. -/
theorem evalParts_of_pieces {stop start : Nat} {subs : List Substitution}
    (h : Pieces source stop start ts body subs) (hbody : '\r' ∉ body)
    (hsubs : ∀ sub ∈ subs, '\r' ∉ sub.2) :
    evalParts ⟨source, symbols⟩ context stop start ts
      = bodyText body >>= fun head =>
        subs.mapM (substitutionText ⟨source, symbols⟩ context) >>= fun texts =>
        .ok (head ++ texts.flatten) := by
  induction h with
  | last hslice =>
    rw [evalParts, chunk_eq_bodyText hslice hbody, List.mapM_nil]
    cases bodyText _ with
    | error f => rfl
    | ok head => exact congrArg Except.ok (List.append_nil head).symm
  | skip ht h ih =>
    rw [evalParts, if_neg (by rw [ht]; exact Bool.false_ne_true)]
    exact ih hbody hsubs
  | @substitution start t e ts body after subs ht hslice he h ih =>
    obtain ⟨hafter, hsubs⟩ := List.forall_mem_cons.mp hsubs
    rw [evalParts, if_pos ht, chunk_eq_bodyText hslice hbody, evalInside_eq, evalFirst_of_find? he,
      ih hafter hsubs, List.mapM_cons, substitutionText]
    -- Both sides do the same steps in one order, so the first that fails ends both.
    cases bodyText body with
    | error f => rfl
    | ok head =>
      cases eval ⟨source, symbols⟩ context e with
      | error f => rfl
      | ok v =>
        simp only [ok_bind]
        cases textOf v with
        | error f => rfl
        | ok text =>
          simp only [ok_bind]
          cases bodyText after with
          | error f => rfl
          | ok tail =>
            simp only [ok_bind]
            cases subs.mapM (substitutionText ⟨source, symbols⟩ context) with
            | error f => rfl
            | ok texts =>
              refine congrArg Except.ok ?_
              simp

/-! ## Concatenations -/

/-- Whether two nodes are the same expression, wherever they stand in their sources and whatever
comments are in them. -/
def SameExpression (source source' : Bytes) (e e' : Tree) : Prop :=
  ∃ d d', Uncommented e d ∧ Uncommented e' d' ∧ Spliced source source' d d'

/-- An expression has the same value in both sources: comments have no part in it
(`eval_of_uncommented`), nor has the place where it stands. -/
theorem SameExpression.alike (h : SameExpression source source' e e')
    (symbols : List (Text × Value)) (context context' : Option Tree) :
    Alike (eval ⟨source, symbols⟩ context e) (eval ⟨source', symbols⟩ context' e') := by
  obtain ⟨d, d', he, he', hspliced⟩ := h
  rw [← eval_of_uncommented ⟨source, symbols⟩ e he rfl,
    ← eval_of_uncommented ⟨source', symbols⟩ e' he' rfl]
  exact (nodesAlike_of_spliced symbols hspliced).value context context'

/-- The operands of a concatenation after its first one: in turn the expression of a substitution
and the string of the body after it. -/
inductive Joins (source source' : Bytes) : List Substitution → List Tree → Prop where
  | nil : Joins source source' [] []
  | cons {e e' last : Tree} {body : List Char} {subs : List Substitution} {es : List Tree}
      (he : SameExpression source source' e e') (hlast : Quotes source' body last)
      (h : Joins source source' subs es) :
      Joins source source' ((e, body) :: subs) (e' :: last :: es)

/-- What is made of an outcome, of a text and of what follows it. -/
def joined (v : Value) (tail : Result Text) (rest : Result Text) : Result Text :=
  textOf v >>= fun head => tail >>= fun tail => rest >>= fun rest => .ok (head ++ tail ++ rest)

/-- The first substitution and the body after it are joined to all that follow. -/
theorem substitutions_cons (s : Scope) (e : Tree) (body : List Char) (subs : List Substitution) :
    (((e, body) :: subs).mapM (substitutionText s context)).map List.flatten
      = eval s context e >>= fun v =>
        joined v (bodyText body) ((subs.mapM (substitutionText s context)).map List.flatten) := by
  rw [List.mapM_cons, substitutionText]
  unfold joined
  -- the first part that fails is the outcome on both sides: expression, its text, the text behind
  -- it
  cases eval s context e with
  | error f => rfl
  | ok v =>
    simp only [ok_bind]
    cases textOf v with
    | error f => rfl
    | ok head =>
      simp only [ok_bind]
      cases bodyText body with
      | error f => rfl
      | ok tail =>
        simp only [ok_bind]
        cases subs.mapM (substitutionText s context) with
        | error f => rfl
        | ok texts => rfl

/-- The first two operands, a value and the string after it, are joined to all that follow. -/
theorem operands_cons {last : Tree} (h : Quotes source body last) (e : Tree) (es : List Tree) :
    ((e :: last :: es).mapM fun e => eval ⟨source, symbols⟩ context e >>= textOf).map List.flatten
      = eval ⟨source, symbols⟩ context e >>= fun v =>
        joined v (bodyText body)
          ((es.mapM fun e => eval ⟨source, symbols⟩ context e >>= textOf).map List.flatten) := by
  have hlast : (eval ⟨source, symbols⟩ context last >>= textOf) = bodyText body := by
    rw [eval_of_quotes h]
    cases bodyText body with
    | error f => rfl
    | ok text => rfl
  rw [List.mapM_cons, List.mapM_cons, hlast]
  -- both sides ask for the same things in the same order, so the first one that fails is the same
  unfold joined
  cases eval ⟨source, symbols⟩ context e with
  | error f => rfl
  | ok v =>
    simp only [ok_bind]
    cases textOf v with
    | error f => rfl
    | ok head =>
      simp only [ok_bind]
      cases bodyText body with
      | error f => rfl
      | ok tail =>
        simp only [ok_bind]
        cases es.mapM fun e => eval ⟨source, symbols⟩ context e >>= textOf with
        | error f => rfl
        | ok texts => exact congrArg Except.ok (List.append_assoc head tail _).symm

/-- Substitutions and operands give the same text, one after the other. -/
theorem alike_of_joins {subs : List Substitution} (h : Joins source source' subs es)
    (symbols : List (Text × Value)) (context context' : Option Tree) :
    Alike ((subs.mapM (substitutionText ⟨source, symbols⟩ context)).map List.flatten)
      ((es.mapM fun e => eval ⟨source', symbols⟩ context' e >>= textOf).map List.flatten) := by
  induction h with
  | nil => exact .refl _
  | cons he hlast h ih =>
    rw [substitutions_cons, operands_cons hlast]
    refine (he.alike symbols context context').bind fun v => ?_
    refine (Alike.refl (textOf v)).bind fun head => ?_
    refine (Alike.refl (bodyText _)).bind fun tail => ?_
    exact ih.bind fun rest => .refl _

/-- **Templates are concatenations.** A template and the concatenation of its bodies and expressions
have the same text, or neither has a value.

Both are a first text followed by pieces, each of them a value and the text behind it. The pieces of
the template are found in its source by their places, those of the sum by its operands. -/
theorem template_is_concatenation {subs : List Substitution} (symbols : List (Text × Value))
    (hkind : t.is .templateString = true)
    (hpieces : Pieces source (t.stop - 1) (t.start + 1) t.children body subs)
    (hbodies : ∀ cs ∈ body :: subs.map Prod.snd, '\r' ∉ cs)
    (hchain : Chain (first :: es) t') (hfirst : Quotes source' body first)
    (hjoins : Joins source source' subs es) (context context' : Option Tree) :
    Alike (eval ⟨source, symbols⟩ context t) (eval ⟨source', symbols⟩ context' t')
      ∧ ∀ v, eval ⟨source, symbols⟩ context t = .ok v → ∃ text, v = .text text := by
  obtain ⟨hbody, hsubs⟩ := List.forall_mem_cons.mp hbodies
  have hpiecewise : evalParts ⟨source, symbols⟩ context (t.stop - 1) (t.start + 1) t.children = _ :=
    evalParts_of_pieces hpieces hbody fun sub hsub => hsubs sub.2 (List.mem_map_of_mem hsub)
  obtain ⟨label, field, start, stop, missing, children⟩ := t
  obtain rfl : label = .kind .templateString := of_decide_eq_true hkind
  -- the template: its first text, and then the texts of each substitution with what follows it
  have htemplate : eval ⟨source, symbols⟩ context
      (.node (.kind .templateString) field start stop missing children)
      = bodyText body >>= fun head =>
        (subs.mapM (substitutionText ⟨source, symbols⟩ context)).map List.flatten >>= fun tail =>
        .ok (.text (head ++ tail)) := by
    rw [eval.eq_def]
    simp only [Tree.start, Tree.stop, Tree.children] at hpiecewise
    simp only [hpiecewise]
    cases bodyText body with
    | error f => rfl
    | ok head =>
      cases subs.mapM (substitutionText ⟨source, symbols⟩ context) with
      | error f => rfl
      | ok texts => rfl
  -- the sum: its first literal, and then the texts of the operands after it
  have hconcatenation : eval ⟨source', symbols⟩ context' t'
      = bodyText body >>= fun head =>
        (es.mapM fun e => eval ⟨source', symbols⟩ context' e >>= textOf).map List.flatten
          >>= fun tail => .ok (.text (head ++ tail)) := by
    rw [eval_chain_of_text hchain (eval_of_quotes hfirst)]
    cases bodyText body with
    | error f => rfl
    | ok head =>
      cases es.mapM fun e => eval ⟨source', symbols⟩ context' e >>= textOf with
      | error f => rfl
      | ok texts => rfl
  constructor
  · rw [htemplate, hconcatenation]
    refine (Alike.refl (bodyText body)).bind fun head => ?_
    exact (alike_of_joins hjoins symbols context context').bind fun tail => .refl _
  · intro v hv
    rw [htemplate] at hv
    obtain ⟨head, -, hv⟩ := bind_eq_ok_iff.mp hv
    obtain ⟨tail, -, hv⟩ := bind_eq_ok_iff.mp hv
    exact ⟨_, (Except.ok.inj hv).symm⟩

/-- A script with a template. -/
def templateSource : List Char := "`a${x /* c */ + 1}b`".toList

/-- The same text as a concatenation. -/
def concatenationSource : List Char := "'a' + (x + 1) + 'b'".toList

/-- The sum in the template. -/
def commentedSum : Tree :=
  .ofKind .binaryExpression 4 17
    [.node (.kind .identifier) (some .left) 4 5 false [], .ofKind .comment 6 13 [],
      .node (.token "+") (some .operator) 14 15 false [],
      .node (.kind .number) (some .right) 16 17 false []]

/-- The template. -/
def template : Tree :=
  .ofKind .templateString 0 20
    [.ofToken "`" 0 1, .ofKind .stringFragment 1 2 [],
      .ofKind .templateSubstitution 2 18 [.ofToken "$\x7b" 2 4, commentedSum, .ofToken "\x7d" 17 18],
      .ofKind .stringFragment 18 19 [], .ofToken "`" 19 20]

/-- The sum in the concatenation. -/
def plainSum : Tree :=
  .ofKind .binaryExpression 7 12
    [.node (.kind .identifier) (some .left) 7 8 false [],
      .node (.token "+") (some .operator) 9 10 false [],
      .node (.kind .number) (some .right) 11 12 false []]

/-- The string of one character from an offset on. -/
def letter (start : Nat) : Tree :=
  .ofKind .string start (start + 3)
    [.ofToken "'" start (start + 1), .ofKind .stringFragment (start + 1) (start + 2) [],
      .ofToken "'" (start + 2) (start + 3)]

/-- The concatenation. -/
def concatenation : Tree :=
  addition 0 14 19
    (addition 0 4 13 (letter 0)
      (.ofKind .parenthesizedExpression 6 13 [.ofToken "(" 6 7, plainSum, .ofToken ")" 12 13]))
    (letter 16)

/-- The sum with a comment and the one without are the same expression. -/
theorem sameExpression_sum : SameExpression (Utf8.encode templateSource)
    (Utf8.encode concatenationSource) commentedSum plainSum := by
  have hleaf : ∀ label field start stop, Uncommented (.node label field start stop false [])
      (.node label field start stop false []) := fun _ _ _ _ => .node _ _ _ _ _ .nil
  refine ⟨.ofKind .binaryExpression 4 17 (commentedSum.children.eraseIdx 1), plainSum, ?_, ?_, ?_⟩
  · refine .node _ _ _ _ _ ?_
    exact .keep (hleaf ..) (.drop rfl (.keep (hleaf ..) (.keep (hleaf ..) .nil)))
  · refine .node _ _ _ _ _ ?_
    exact .keep (hleaf ..) (.keep (hleaf ..) (.keep (hleaf ..) .nil))
  · refine .node _ _ _ _ _ _ _ _ (fun h => absurd h (by decide)) nofun ?_
    refine .keep (.leaf nofun (by decide +kernel)) ?_
    refine .keep (.leaf nofun (by decide +kernel)) ?_
    exact .keep (.leaf nofun (by decide +kernel)) (.nil _)

/-- The template and the concatenation have the text that the sum has between the two letters. -/
theorem template_is_concatenation_sum :
    let shape : Tree → Label × Option Field × Nat × Nat × Nat :=
      fun t => (t.label, t.field, t.start, t.stop, t.children.length)
    let find : List Char → Kind → Option Tree :=
      fun chars kind => (Dialect.javascript.parse chars).nodes.find? (·.is kind)
    let symbols : List (Text × Value) := [("x", .int 2)]
    (find templateSource .templateString).map (·.nodes.map shape) = some (template.nodes.map shape)
      ∧ (find concatenationSource .binaryExpression).map (·.nodes.map shape)
        = some (concatenation.nodes.map shape)
      ∧ (eval ⟨Utf8.encode templateSource, symbols⟩ none template).toOption.isSome = true
      ∧ Alike (eval ⟨Utf8.encode templateSource, symbols⟩ none template)
        (eval ⟨Utf8.encode concatenationSource, symbols⟩ none concatenation) := by
  -- the template in pieces, with a comment in its substitution that the sum does without
  have hpieces : Pieces (Utf8.encode templateSource) 19 1 template.children ['a']
      [(commentedSum, ['b'])] := by
    refine .skip rfl (.skip rfl (.substitution rfl (by decide +kernel) rfl ?_))
    exact .skip rfl (.skip rfl (.last (by decide +kernel)))
  have hfirst : Quotes (Utf8.encode concatenationSource) ['a']
      ((letter 0).withField .left) := ⟨rfl, '\'', '\'', by decide +kernel⟩
  have hlast : Quotes (Utf8.encode concatenationSource) ['b']
      ((letter 16).withField .right) := ⟨rfl, '\'', '\'', by decide +kernel⟩
  have hinner : Chain ([(letter 0).withField .left] ++ [plainSum])
      (concatenation.children[0]) :=
    .plus rfl rfl rfl rfl (.single .bare) (.parentheses rfl rfl .bare)
  have hchain : Chain ([(letter 0).withField .left, plainSum] ++ [(letter 16).withField .right])
      concatenation := .plus rfl rfl rfl rfl hinner .bare
  refine ⟨by decide +kernel, by decide +kernel, by decide +kernel, ?_⟩
  exact (template_is_concatenation [("x", .int 2)] rfl hpieces (by decide) hchain hfirst
    (.cons sameExpression_sum hlast .nil) none none).1

end OptionTypes.Evaluation
