import OptionTypes.Proofs.Evaluation.Forms
import OptionTypes.Proofs.Tree

/-!
# Where a failure comes from

An evaluation goes through a tree and may stop at any node: at an expression that is no literal, at
a name that is unknown, at a literal that denotes nothing, at a value that has no text, or at a node
that lacks a part. `Evaluation.Origin` has one constructor for each of these, and every failure of
an evaluation has its origin in a node of the tree (`origin_of_eval`).

The induction follows the tree, with one case for every kind of node that is evaluated. What goes
through siblings fails because of one of them, or because the sibling it looks for is not there.
-/

namespace OptionTypes.Evaluation

open Syntax Outcome

/-! ## What a node is made of -/

/-- The parts that a node of a kind is evaluated by. -/
def partsOf : Kind → List Field
  | .unaryExpression => [.operator, .argument]
  | .binaryExpression => [.operator, .left, .right]
  | .pair => [.key, .value]
  | .methodDefinition => [.name]
  | _ => []

/-- The kinds of nodes that stand for the operand inside. -/
def holdsOperand : Kind → Bool
  | .parenthesizedExpression | .computedPropertyName | .spreadElement
  | .templateSubstitution => true
  | _ => false

/-- Whether a node has all that it is evaluated by. -/
def isComplete (t : Tree) : Bool :=
  match t.label with
  | .kind k =>
    (partsOf k).all (fun f => t.children.any fun c => c.field = some f)
      && (!holdsOperand k || t.children.any isOperand)
  | _ => true

/-- Whether a node is a name that a table of symbols may know. -/
def isName (t : Tree) : Bool := t.is .identifier || t.is .shorthandPropertyIdentifier

/-- Where the pieces of a template are, from an offset on: they end where a substitution begins. -/
def pieces (stop : Nat) : Nat → List Tree → List (Nat × Nat)
  | start, [] => [(start, stop)]
  | start, t :: ts =>
    if t.is .templateSubstitution then (start, t.start) :: pieces stop t.stop ts
    else pieces stop start ts

/-- The text of a piece of a template, its escapes not yet replaced. -/
def pieceText (source : Bytes) (piece : Nat × Nat) : Text :=
  Blank.unifyPairs (Text.ofChars (Utf8.decodeLossy (slice source piece.1 piece.2)))

/-- The texts with escapes that a node holds: the body of a string, the pieces of a template. -/
def bodies (source : Bytes) (t : Tree) : List Text :=
  match t.label with
  | .kind .string => [withoutMarks (t.text source)]
  | .kind .templateString =>
    (pieces (t.stop - 1) (t.start + 1) t.children).map (pieceText source)
  | _ => []

/-! ## Origins -/

/-- A failure and the node of a tree that it comes from. -/
inductive Origin (s : Scope) (t : Tree) : Failure → Prop where
  | refused (g : Gap) (hname : g.name? = none) : Origin s t (.gap g)
  | unknown (u : Tree) (context : Text) (hu : u ∈ t.nodes) (hname : isName u = true)
      (hlack : s.find? (u.text s.source) = none) :
      Origin s t (.gap (.unresolved (u.text s.source) context))
  | body (u : Tree) (body : Text) (e : Escape.Error) (hu : u ∈ t.nodes)
      (hbody : body ∈ bodies s.source u) (h : Escape.decode body = .error e) :
      Origin s t (.escape e)
  | literal (u : Tree) (e : Reading.Error) (hu : u ∈ t.nodes) (hkind : u.is .number = true)
      (h : Literal.parse (u.text s.source) = .error e) : Origin s t (.number e)
  | conversion (u : Tree) (context : Option Tree) (v : Value) (e : Reading.Error)
      (hu : u ∈ t.nodes) (hv : eval s context u = .ok v) (h : v.toText = .error e) :
      Origin s t (.number e)
  | incomplete (u : Tree) (hu : u ∈ t.nodes) (h : isComplete u = false) : Origin s t .incomplete

/-- A failure that comes from one of several nodes. -/
def OriginAmong (s : Scope) (ts : List Tree) (f : Failure) : Prop := ∃ c ∈ ts, Origin s c f

/-- What comes from a node below comes from the tree. -/
theorem Origin.of_mem_nodes {s : Scope} {t c : Tree} {f : Failure} (h : Origin s c f)
    (hc : ∀ u ∈ c.nodes, u ∈ t.nodes) : Origin s t f := by
  cases h with
  | refused g hname => exact .refused g hname
  | unknown u context hu hname hlack => exact .unknown u context (hc u hu) hname hlack
  | body u body e hu hbody h => exact .body u body e (hc u hu) hbody h
  | literal u e hu hkind h => exact .literal u e (hc u hu) hkind h
  | conversion u context v e hu hv h => exact .conversion u context v e (hc u hu) hv h
  | incomplete u hu h => exact .incomplete u (hc u hu) h

theorem OriginAmong.of_children {s : Scope} {t : Tree} {f : Failure}
    (h : OriginAmong s t.children f) : Origin s t f := by
  obtain ⟨c, hc, horigin⟩ := h
  exact horigin.of_mem_nodes fun u hu => Tree.mem_nodes_of_mem_children hc hu

/-- What comes from one of some siblings comes from one of more. -/
theorem OriginAmong.cons {s : Scope} {t : Tree} {ts : List Tree} {f : Failure}
    (h : OriginAmong s ts f) : OriginAmong s (t :: ts) f := by
  obtain ⟨c, hc, horigin⟩ := h
  exact ⟨c, List.mem_cons_of_mem _ hc, horigin⟩

/-- What comes from the first sibling comes from one of them. -/
theorem Origin.among_cons {s : Scope} {t : Tree} {ts : List Tree} {f : Failure}
    (h : Origin s t f) : OriginAmong s (t :: ts) f :=
  ⟨t, List.mem_cons_self .., h⟩

/-! ## Failures of a single step -/

/-- A conversion fails at the node whose value is converted. -/
theorem origin_of_textOf {s : Scope} {context : Option Tree} {t : Tree} {v : Value} {f : Failure}
    (hv : ∃ c ∈ t.children, eval s context c = .ok v) (h : textOf v = .error f) :
    Origin s t f := by
  obtain ⟨c, hc, hv⟩ := hv
  obtain ⟨e, he, rfl⟩ := mapError_eq_error_iff.mp h
  exact .conversion c context v e (Tree.mem_nodes_of_mem_children hc c.self_mem_nodes) hv he

/-- A refusal without a name. -/
theorem origin_of_refuse {s : Scope} {t : Tree} {α : Type} {g : Gap} {f : Failure}
    (hname : g.name? = none) (h : (refuse g : Result α) = .error f) : Origin s t f := by
  cases h
  exact .refused g hname

/-- A name that is looked up is unknown. -/
theorem origin_of_lookup {s : Scope} {context : Option Tree} {t : Tree} {f : Failure}
    (hname : isName t = true) (h : lookup s context t = .error f) : Origin s t f := by
  rw [lookup] at h
  split at h
  next => cases h
  next hlack =>
    cases h
    exact .unknown t _ t.self_mem_nodes hname hlack

/-- A value that is no number is refused. -/
theorem origin_of_numberOf {s : Scope} {t u : Tree} {v : Value} {f : Failure}
    (h : numberOf s u v = .error f) : Origin s t f := by
  rw [numberOf] at h
  split at h
  next => cases h
  next => exact origin_of_refuse rfl h

/-- A unary operation fails since its value is no number, or since there is no such operator. -/
theorem origin_of_operateUnary {s : Scope} {t : Tree} {symbol : String} {v : Value} {f : Failure}
    (h : operateUnary s t symbol v = .error f) : Origin s t f := by
  unfold operateUnary at h
  split at h
  · cases h
  · rcases bind_eq_error_iff.mp h with h | ⟨n, -, h⟩
    · exact origin_of_numberOf h
    · cases h
  · rcases bind_eq_error_iff.mp h with h | ⟨n, -, h⟩
    · exact origin_of_numberOf h
    · cases h
  · exact origin_of_refuse rfl h

/-- An operation fails because one of its operands has no text or is no number, or because the
numbers have no result. -/
theorem origin_of_operate {s : Scope} {context : Option Tree} {t left right : Tree}
    {op : Operator} {a b : Value} {f : Failure}
    (ha : ∃ c ∈ t.children, eval s context c = .ok a)
    (hb : ∃ c ∈ t.children, eval s context c = .ok b)
    (h : operate s t left right op a b = .error f) : Origin s t f := by
  rw [operate] at h
  split at h
  · rcases bind_eq_error_iff.mp h with h | ⟨text, -, h⟩
    · exact origin_of_textOf ha h
    · rcases bind_eq_error_iff.mp h with h | ⟨text', -, h⟩
      · exact origin_of_textOf hb h
      · cases h
  · rcases bind_eq_error_iff.mp h with h | ⟨m, -, h⟩
    · exact origin_of_numberOf h
    · rcases bind_eq_error_iff.mp h with h | ⟨n, -, h⟩
      · exact origin_of_numberOf h
      · split at h
        · cases h
        · exact origin_of_refuse rfl h

/-- A value that is neither an object nor null is refused. -/
theorem origin_of_spreadInto {s : Scope} {t u : Tree} {ms : Members} {v : Value} {f : Failure}
    (h : spreadInto s u ms v = .error f) : Origin s t f := by
  unfold spreadInto at h
  split at h
  · cases h
  · cases h
  · exact origin_of_refuse rfl h

/-- A value that is neither a list nor null is refused. -/
theorem origin_of_spreadItems {s : Scope} {t u : Tree} {v : Value} {f : Failure}
    (h : spreadItems s u v = .error f) : Origin s t f := by
  unfold spreadItems at h
  split at h
  · cases h
  · cases h
  · exact origin_of_refuse rfl h

/-- The body of a string that cannot be decoded. -/
theorem origin_of_string {s : Scope} {t : Tree} {f : Failure} (hkind : t.label = .kind .string)
    (h : (stringValue s.source t).mapError Failure.escape = .error f) : Origin s t f := by
  obtain ⟨e, he, rfl⟩ := mapError_eq_error_iff.mp h
  refine .body t (withoutMarks (t.text s.source)) e t.self_mem_nodes ?_ he
  rw [bodies, hkind]
  exact List.mem_singleton_self _

/-- A piece of a template that cannot be decoded. -/
theorem origin_of_piece {s : Scope} {t : Tree} {piece : Nat × Nat} {f : Failure}
    (hkind : t.label = .kind .templateString)
    (hpiece : piece ∈ pieces (t.stop - 1) (t.start + 1) t.children)
    (h : ∃ e, Escape.decode (pieceText s.source piece) = .error e ∧ .escape e = f) :
    Origin s t f := by
  obtain ⟨e, he, rfl⟩ := h
  refine .body t (pieceText s.source piece) e t.self_mem_nodes ?_ he
  rw [bodies, hkind]
  exact List.mem_map_of_mem hpiece

/-- A number that cannot be read. -/
theorem origin_of_number {s : Scope} {t : Tree} {f : Failure} (hkind : t.label = .kind .number)
    (h : (Literal.parse (t.text s.source)).mapError Failure.number = .error f) : Origin s t f := by
  obtain ⟨e, he, rfl⟩ := mapError_eq_error_iff.mp h
  refine .literal t e t.self_mem_nodes ?_ he
  rw [Tree.is, hkind]
  exact decide_eq_true rfl

/-! ## Parts that are looked for -/

/-- What goes wrong with the part of a node: it is not there, or it fails itself. -/
theorem Origin.of_part {s : Scope} {t : Tree} {k : Kind} {part : Field} {f : Failure}
    (hkind : t.label = .kind k) (hpart : part ∈ partsOf k)
    (h : OriginAmong s t.children f
      ∨ f = .incomplete ∧ ∀ c ∈ t.children, c.field ≠ some part) : Origin s t f := by
  rcases h with h | ⟨rfl, hnone⟩
  · exact h.of_children
  · refine .incomplete t t.self_mem_nodes ?_
    have hlack : (t.children.any fun c => c.field = some part) = false := by
      simpa using hnone
    have hparts : ((partsOf k).all fun f => t.children.any fun c => c.field = some f) = false := by
      rw [List.all_eq_false]
      exact ⟨part, hpart, by rw [hlack]; exact Bool.false_ne_true⟩
    rw [isComplete, hkind]
    simp only [hparts, Bool.false_and]

/-- What goes wrong with the operand inside a node: it is not there, or it fails itself. -/
theorem Origin.of_operand {s : Scope} {t : Tree} {k : Kind} {f : Failure}
    (hkind : t.label = .kind k) (hholds : holdsOperand k = true)
    (h : OriginAmong s t.children f
      ∨ f = .incomplete ∧ ∀ c ∈ t.children, isOperand c = false) : Origin s t f := by
  rcases h with h | ⟨rfl, hnone⟩
  · exact h.of_children
  · refine .incomplete t t.self_mem_nodes ?_
    have hlack : t.children.any isOperand = false := by
      simpa using hnone
    rw [isComplete, hkind]
    simp only [hholds, hlack, Bool.not_true, Bool.or_false, Bool.and_false]

/-! ## Failures of a whole evaluation -/

mutual

/-- **Every failure of an evaluation has its origin in the tree.** Induction on the tree, mutual
with all that goes through siblings, one case for each kind of node. What a child fails with comes
from the child, and so from the node (`OriginAmong.of_children`); what is left are the failures of
the node's own step. -/
theorem origin_of_eval (s : Scope) :
    ∀ (t : Tree) {context : Option Tree} {f : Failure}, eval s context t = .error f → Origin s t f
  | .node label field start stop missing children, context, f, h => by
    have hpart : ∀ {k : Kind} (part : Field),
        Tree.is k (.node label field start stop missing children) = true → part ∈ partsOf k →
        evalPart s context part children = .error f →
          Origin s (.node label field start stop missing children) f := by
      intro k part hkind hpart h
      exact .of_part (of_decide_eq_true hkind) hpart (origin_of_evalPart s children h)
    -- one case for each form of an expression: it fails itself, or for a child that the form looks
    -- at
    have hform := form_eval s context (.node label field start stop missing children)
    generalize eval s context (.node label field start stop missing children) = r at h hform
    cases hform with
    | object _ => exact (origin_of_evalMembers s children (map_eq_error_iff.mp h)).of_children
    | array _ => exact (origin_of_evalItems s children (map_eq_error_iff.mp h)).of_children
    | string hkind => exact origin_of_string (of_decide_eq_true hkind) (map_eq_error_iff.mp h)
    | template hkind =>
      rcases origin_of_evalParts s children (map_eq_error_iff.mp h) with h | ⟨piece, hpiece, h⟩
      · exact h.of_children
      · exact origin_of_piece (of_decide_eq_true hkind) hpiece h
    | number hkind => exact origin_of_number (of_decide_eq_true hkind) (map_eq_error_iff.mp h)
    | bool b => cases h
    | null => cases h
    | name hkind _ => exact origin_of_lookup (Bool.or_eq_true_iff.mpr (.inl hkind)) h
    | parentheses hkind =>
      exact .of_operand (of_decide_eq_true hkind) rfl (origin_of_evalFirst s children h)
    | unary hkind _ =>
      rcases bind_eq_error_iff.mp h with h | ⟨v, -, h⟩
      · exact hpart .argument hkind (by decide) h
      · exact origin_of_operateUnary h
    -- the right side is looked at only where the left one does not decide
    | choice hkind _ =>
      rcases bind_eq_error_iff.mp h with h | ⟨v, -, h⟩
      · exact hpart .left hkind (by decide) h
      · split at h
        · cases h
        · exact hpart .right hkind (by decide) h
    | operation hkind _ =>
      rcases bind_eq_error_iff.mp h with h | ⟨a, ha, h⟩
      · exact hpart .left hkind (by decide) h
      · rcases bind_eq_error_iff.mp h with h | ⟨b, hb, h⟩
        · exact hpart .right hkind (by decide) h
        · exact origin_of_operate (evalPart_eq_ok ha) (evalPart_eq_ok hb) h
    | function => cases h
    | refused hname => exact origin_of_refuse hname h

/-- The sibling that plays a part fails, or there is none. -/
theorem origin_of_evalPart (s : Scope) :
    ∀ (ts : List Tree) {context : Option Tree} {part : Field} {f : Failure},
      evalPart s context part ts = .error f →
        OriginAmong s ts f ∨ f = .incomplete ∧ ∀ c ∈ ts, c.field ≠ some part
  | [], context, part, f, h => by
    rw [evalPart] at h
    cases h
    exact .inr ⟨rfl, fun c hc => absurd hc (List.not_mem_nil)⟩
  | t :: ts, context, part, f, h => by
    rw [evalPart] at h
    split at h
    next => exact .inl (origin_of_eval s t h).among_cons
    next hfield =>
      rcases origin_of_evalPart s ts h with h | ⟨rfl, hnone⟩
      · exact .inl h.cons
      · exact .inr ⟨rfl, List.forall_mem_cons.mpr ⟨hfield, hnone⟩⟩

/-- The first operand fails, or there is none. -/
theorem origin_of_evalFirst (s : Scope) :
    ∀ (ts : List Tree) {context : Option Tree} {f : Failure},
      evalFirst s context ts = .error f →
        OriginAmong s ts f ∨ f = .incomplete ∧ ∀ c ∈ ts, isOperand c = false
  | [], context, f, h => by
    rw [evalFirst] at h
    cases h
    exact .inr ⟨rfl, fun c hc => absurd hc (List.not_mem_nil)⟩
  | t :: ts, context, f, h => by
    rw [evalFirst] at h
    split at h
    next => exact .inl (origin_of_eval s t h).among_cons
    next hoperand =>
      rw [Bool.not_eq_true] at hoperand
      rcases origin_of_evalFirst s ts h with h | ⟨rfl, hnone⟩
      · exact .inl h.cons
      · exact .inr ⟨rfl, List.forall_mem_cons.mpr ⟨hoperand, hnone⟩⟩

/-- The sibling that is the key fails, or there is none. -/
theorem origin_of_evalKey (s : Scope) :
    ∀ (ts : List Tree) {context : Option Tree} {part : Field} {f : Failure},
      evalKey s context part ts = .error f →
        OriginAmong s ts f ∨ f = .incomplete ∧ ∀ c ∈ ts, c.field ≠ some part
  | [], context, part, f, h => by
    rw [evalKey] at h
    cases h
    exact .inr ⟨rfl, fun c hc => absurd hc (List.not_mem_nil)⟩
  | t :: ts, context, part, f, h => by
    rw [evalKey] at h
    split at h
    next => exact .inl (origin_of_evalKeyOf s t h).among_cons
    next hfield =>
      rcases origin_of_evalKey s ts h with h | ⟨rfl, hnone⟩
      · exact .inl h.cons
      · exact .inr ⟨rfl, List.forall_mem_cons.mpr ⟨hfield, hnone⟩⟩

/-- A key fails since its text denotes nothing, or as the expression inside it. -/
theorem origin_of_evalKeyOf (s : Scope) :
    ∀ (t : Tree) {context : Option Tree} {f : Failure},
      evalKeyOf s context t = .error f → Origin s t f
  | .node label field start stop missing children, context, f, h => by
    rw [evalKeyOf.eq_def] at h
    simp only at h
    split at h
    · exact origin_of_string rfl h
    · -- a number as a key is converted to text
      rcases bind_eq_error_iff.mp h with h | ⟨n, hn, h⟩
      · exact origin_of_number rfl h
      · obtain ⟨e, he, rfl⟩ := mapError_eq_error_iff.mp h
        refine .conversion _ context (.number n) e (Tree.self_mem_nodes _) ?_ he
        rw [eval_of_number rfl, hn]
        rfl
    · rcases bind_eq_error_iff.mp h with h | ⟨v, hv, h⟩
      · exact .of_operand rfl rfl (origin_of_evalFirst s children h)
      · exact origin_of_textOf (evalFirst_eq_ok hv) h
    · cases h

/-- The members of an object fail as one of the children does. -/
theorem origin_of_evalMembers (s : Scope) :
    ∀ (ts : List Tree) {before : Members} {f : Failure},
      evalMembers s before ts = .error f → OriginAmong s ts f
  | [], before, f, h => by
    rw [evalMembers] at h
    cases h
  | t :: ts, before, f, h => by
    rw [evalMembers] at h
    split at h
    · rcases bind_eq_error_iff.mp h with h | ⟨ms, -, h⟩
      · exact (origin_of_evalMember s t h).among_cons
      · exact (origin_of_evalMembers s ts h).cons
    · exact (origin_of_evalMembers s ts h).cons

/-- A member fails by its key or its value, its name, or what it spreads; anything else is
refused. -/
theorem origin_of_evalMember (s : Scope) :
    ∀ (t : Tree) {before : Members} {f : Failure},
      evalMember s before t = .error f → Origin s t f
  | .node label field start stop missing children, before, f, h => by
    rw [evalMember.eq_def] at h
    simp only at h
    split at h
    · -- a key and its value
      rcases bind_eq_error_iff.mp h with h | ⟨key, -, h⟩
      · exact .of_part rfl (by decide) (origin_of_evalKey s children h)
      · rcases bind_eq_error_iff.mp h with h | ⟨v, -, h⟩
        · exact .of_part rfl (by decide) (origin_of_evalPart s children h)
        · cases h
    · rcases bind_eq_error_iff.mp h with h | ⟨v, -, h⟩
      · exact origin_of_lookup rfl h
      · cases h
    · rcases bind_eq_error_iff.mp h with h | ⟨v, -, h⟩
      · exact .of_operand rfl rfl (origin_of_evalFirst s children h)
      · exact origin_of_spreadInto h
    · rcases bind_eq_error_iff.mp h with h | ⟨key, -, h⟩
      · exact .of_part rfl (by decide) (origin_of_evalKey s children h)
      · cases h
    · exact origin_of_refuse rfl h

/-- The items of a list fail as one of the children does, or for what one of them spreads. -/
theorem origin_of_evalItems (s : Scope) :
    ∀ (ts : List Tree) {context : Option Tree} {f : Failure},
      evalItems s context ts = .error f → OriginAmong s ts f
  | [], context, f, h => by
    rw [evalItems] at h
    cases h
  | t :: ts, context, f, h => by
    rw [evalItems] at h
    split at h
    -- a spread fails for what is inside, or for not being a list; a later item may fail as well
    next hspread =>
      rcases bind_eq_error_iff.mp h with h | ⟨v, -, h⟩
      · exact (origin_of_evalInside s t (of_decide_eq_true hspread) rfl h).among_cons
      · rcases bind_eq_error_iff.mp h with h | ⟨vs, -, h⟩
        · exact (origin_of_spreadItems h).among_cons
        · rcases bind_eq_error_iff.mp h with h | ⟨rest, -, h⟩
          · exact (origin_of_evalItems s ts h).cons
          · cases h
    next =>
      split at h
      · rcases bind_eq_error_iff.mp h with h | ⟨v, -, h⟩
        · exact (origin_of_eval s t h).among_cons
        · rcases bind_eq_error_iff.mp h with h | ⟨rest, -, h⟩
          · exact (origin_of_evalItems s ts h).cons
          · cases h
      · exact (origin_of_evalItems s ts h).cons

/-- The pieces of a template fail as a substitution does, or since one of them cannot be decoded. -/
theorem origin_of_evalParts (s : Scope) :
    ∀ (ts : List Tree) {context : Option Tree} {stop start : Nat} {f : Failure},
      evalParts s context stop start ts = .error f →
        OriginAmong s ts f ∨ ∃ piece ∈ pieces stop start ts, ∃ e,
          Escape.decode (pieceText s.source piece) = .error e ∧ .escape e = f
  | [], context, stop, start, f, h => by
    rw [evalParts] at h
    obtain ⟨e, he, hf⟩ := mapError_eq_error_iff.mp h
    exact .inr ⟨(start, stop), List.mem_singleton_self _, e, he, hf⟩
  | t :: ts, context, stop, start, f, h => by
    rw [evalParts] at h
    rw [pieces]
    split at h
    next hsub =>
      -- the text before the substitution, its value, the text of that, or what follows
      rw [if_pos hsub]
      rcases bind_eq_error_iff.mp h with h | ⟨piece, -, h⟩
      · obtain ⟨e, he, hf⟩ := mapError_eq_error_iff.mp h
        exact .inr ⟨(start, t.start), List.mem_cons_self .., e, he, hf⟩
      · rcases bind_eq_error_iff.mp h with h | ⟨v, hv, h⟩
        · exact .inl (origin_of_evalInside s t (of_decide_eq_true hsub) rfl h).among_cons
        · rcases bind_eq_error_iff.mp h with h | ⟨text, -, h⟩
          · rw [evalInside_eq] at hv
            exact .inl (origin_of_textOf (evalFirst_eq_ok hv) h).among_cons
          · rcases bind_eq_error_iff.mp h with h | ⟨rest, -, h⟩
            · rcases origin_of_evalParts s ts h with h | ⟨p, hp, hfailure⟩
              · exact .inl h.cons
              · exact .inr ⟨p, List.mem_cons_of_mem _ hp, hfailure⟩
            · cases h
    next hsub =>
      rw [if_neg hsub]
      rcases origin_of_evalParts s ts h with h | hpiece
      · exact .inl h.cons
      · exact .inr hpiece

/-- What stands for the operand inside it fails as the operand does, or since there is none. -/
theorem origin_of_evalInside (s : Scope) :
    ∀ (t : Tree) {k : Kind} {context : Option Tree} {f : Failure}, t.label = .kind k →
      holdsOperand k = true → evalInside s context t = .error f → Origin s t f
  | .node label field start stop missing children, k, context, f, hkind, hholds, h => by
    rw [evalInside] at h
    exact .of_operand hkind hholds (origin_of_evalFirst s children h)

end

end OptionTypes.Evaluation
