import OptionTypes.Proofs.Yaml.Scans
import OptionTypes.Yaml.Token

/-!
# Faults of YAML documents

The tokens of a document hold a fault where it could not be read any further. The characters of the
document account for the fault: a scanner goes on in them, and the tokens that it adds before it
fails are none.

* `Scanner.Clean`: a scanner in its document that has found no fault.
* `Scanner.Proceeds`: a step whose result has a property, or that fails for a reason in the
  document. Each step from a clean scanner ends in one.
* `scanFault_of_mem_tokens`: a fault among the tokens of a document.
-/

namespace OptionTypes.Yaml

open Consumption

namespace Scanner

variable {cs : List Char} {s s' : Scanner}

/-- A scanner that is still in its document and has found no fault. -/
def Clean (cs : List Char) (s : Scanner) : Prop :=
  s.place.rest <:+ cs ∧ ∀ e, .fault e ∉ s.tokens

/-- A step whose result has a property, or that fails where the document accounts for it. -/
structure Proceeds {α : Type} (cs : List Char) (P : α → Prop) (r : Except Error α) : Prop where
  holds : ∀ {a}, r = .ok a → P a
  fault : ∀ {e}, r = .error e → ScanFault cs e

namespace Proceeds

variable {α β : Type} {P : α → Prop} {Q : β → Prop} {a : α} {r r' : Except Error α}

theorem ok (h : P a) : Proceeds cs P (.ok a) := by
  refine ⟨?_, nofun⟩
  rintro _ ⟨rfl⟩
  exact h

theorem error {e : Error} (h : ScanFault cs e) : Proceeds cs P (.error e) := by
  refine ⟨nofun, ?_⟩
  rintro _ ⟨rfl⟩
  exact h

theorem malformed : Proceeds cs P (.error .malformed) := .error .malformed

/-- A step and the next one: either may fail for a reason that the document accounts for. -/
theorem bind {f : α → Except Error β} (h : Proceeds cs P r)
    (hf : ∀ a, P a → Proceeds cs Q (f a)) : Proceeds cs Q (r >>= f) := by
  cases r with
  | error e => exact .error (h.fault rfl)
  | ok a => exact hf a (h.holds rfl)

theorem ite {c : Prop} [Decidable c] (h : Proceeds cs P r) (h' : Proceeds cs P r') :
    Proceeds cs P (if c then r else r') := by
  split
  · exact h
  · exact h'

end Proceeds

/-! ## What a step is made of -/

namespace Clean

/-- A scan leaves a tail of the document. If it fails, then for the characters that begin at some
place in it. -/
theorem run {α : Type} (a : Scan α) [Consuming Place.source a] (h : Clean cs s) :
    Proceeds cs (fun xs : α × Scanner => Clean cs xs.2) (s.run a) := by
  have hconfined : Confined Place.source cs (a s.place) := Consuming.within a h.1
  unfold Scanner.run
  cases hresult : a s.place with
  | error e => exact .error (hconfined.fault hresult)
  | ok xp => exact .ok ⟨hconfined.left hresult, h.2⟩

/-- A token that stands for no fault is added. -/
theorem push {t : Token} (h : Clean cs s) (ht : ∀ e, t ≠ .fault e := by nofun) :
    Clean cs (s.push t) := by
  refine ⟨h.1, fun e he => ?_⟩
  rcases List.mem_cons.mp he with heq | hmem
  · exact ht e heq.symm
  · exact h.2 e hmem

/-- A token may also come in before others that are there, as the start of a mapping does when its
first key turns out to be one. -/
theorem insertAt {t : Token} (n : Nat) (h : Clean cs s) (ht : ∀ e, t ≠ .fault e := by nofun) :
    Clean cs (s.insertAt n t) := by
  refine ⟨h.1, fun e he => ?_⟩
  rcases List.mem_append.mp he with hmem | hmem
  · exact h.2 e (List.mem_of_mem_take hmem)
  · rcases List.mem_cons.mp hmem with heq | hmem
    · exact ht e heq.symm
    · exact h.2 e (List.mem_of_mem_drop hmem)

/-- A token for some characters, which are passed. -/
theorem passing {t : Token} (n : Nat) (h : Clean cs s) (ht : ∀ e, t ≠ .fault e := by nofun) :
    Clean cs (s.passing n t) :=
  push ⟨(s.place.rest_forward_suffix n).trans h.1, h.2⟩ ht

/-- Blocks that end are closed with tokens that stand for no fault. Induction on the open ones. -/
theorem unwind (column : Int) (h : Clean cs s) : Clean cs (s.unwind column) := by
  unfold Scanner.unwind
  split
  · exact h
  · refine ⟨h.1, fun e he => ?_⟩
    rcases List.mem_append.mp he with hmem | hmem
    · exact absurd (List.eq_of_mem_replicate hmem) nofun
    · exact h.2 e hmem

theorem addIndent (column : Nat) (h : Clean cs s) : Clean cs (s.addIndent column).2 := by
  unfold Scanner.addIndent
  split
  · exact h
  · exact h

/-- A block is opened with the token for its kind. -/
theorem openBlock {t : Token} (h : Clean cs s) (ht : ∀ e, t ≠ .fault e := by nofun) :
    Clean cs (s.openBlock t) := by
  have hindent := h.addIndent s.place.column
  unfold Scanner.openBlock
  cases hadd : s.addIndent s.place.column with
  | mk new s' =>
    rw [hadd] at hindent
    simp only
    split
    · exact hindent.push ht
    · exact hindent

/-- Candidates for keys that are too far away are given up, which fails if one of them has to be a
key. -/
theorem dropStale (h : Clean cs s) : Proceeds cs (Clean cs) s.dropStale := by
  unfold Scanner.dropStale
  simp only
  split
  · exact .malformed
  · exact .ok h

theorem dropCandidate (h : Clean cs s) : Proceeds cs (Clean cs) s.dropCandidate := by
  unfold Scanner.dropCandidate
  split
  · split
    · exact .malformed
    · exact .ok h
  · exact .ok h

/-- The place where a key may begin is kept, and an older one dropped. -/
theorem saveCandidate (h : Clean cs s) : Proceeds cs (Clean cs) s.saveCandidate := by
  unfold Scanner.saveCandidate
  split
  · exact .ok h
  · exact h.dropCandidate.bind fun s' hs' => .ok hs'

/-- Blanks, comments and line ends before a token are passed, whatever number of steps is given. -/
theorem toNextToken (n : Nat) (h : Clean cs s) : Proceeds cs (Clean cs) (s.toNextToken n) := by
  induction n generalizing s with
  | zero => exact .malformed
  | succ n ih =>
    unfold Scanner.toNextToken
    refine (h.run _).bind fun ⟨broken, s'⟩ hs' => ?_
    simp only
    split
    · exact .ok hs'
    · split
      · exact ih hs'
      · exact ih hs'

/-! ## The tokens -/

end Clean

instance : Consuming Place.source anchorName := by
  unfold anchorName
  infer_instance

namespace Clean

/-- A mark between documents closes all blocks. -/
theorem documentMark {t : Token} (h : Clean cs s) (ht : ∀ e, t ≠ .fault e := by nofun) :
    Proceeds cs (Clean cs) (s.documentMark t) :=
  (h.unwind (-1)).dropCandidate.bind fun _ hs => .ok (hs.passing 3 ht)

/-- A directive closes all blocks as well, and is read by a scan of its own. -/
theorem directive (h : Clean cs s) : Proceeds cs (Clean cs) s.directive := by
  refine (h.unwind (-1)).dropCandidate.bind fun s' hs' => ?_
  have hscan := run (s := { s' with keyAllowed := false }) Directive.scan hs'
  refine hscan.bind fun ⟨d, s''⟩ hs'' => ?_
  exact .ok (hs''.push)

/-- A flow collection may be a key. -/
theorem openFlow {t : Token} (h : Clean cs s) (ht : ∀ e, t ≠ .fault e := by nofun) :
    Proceeds cs (Clean cs) (s.openFlow t) :=
  h.saveCandidate.bind fun _ hs => .ok (hs.passing 1 ht)

theorem closeFlow {t : Token} (h : Clean cs s) (ht : ∀ e, t ≠ .fault e := by nofun) :
    Proceeds cs (Clean cs) (s.closeFlow t) :=
  h.dropCandidate.bind fun _ hs => .ok (hs.passing 1 ht)

theorem comma (h : Clean cs s) : Proceeds cs (Clean cs) s.comma :=
  h.dropCandidate.bind fun _ hs => .ok (hs.passing 1)

/-- A block begins at the place, unless it is inside a flow collection. -/
theorem beginBlock {t : Token} (h : Clean cs s) (ht : ∀ e, t ≠ .fault e := by nofun) :
    Clean cs (if s.inFlow then s else s.openBlock t) := by
  split
  · exact h
  · exact h.openBlock ht

/-- A hyphen opens a list, unless it goes on in one. -/
theorem entry (h : Clean cs s) : Proceeds cs (Clean cs) s.entry := by
  unfold Scanner.entry
  split
  · exact .malformed
  · refine (h.beginBlock).dropCandidate.bind fun s' hs' => ?_
    exact .ok (hs'.passing 1)

/-- A question mark opens a mapping, unless it goes on in one. -/
theorem explicitKey (h : Clean cs s) : Proceeds cs (Clean cs) s.explicitKey := by
  unfold Scanner.explicitKey
  split
  · exact .malformed
  · refine (h.beginBlock).dropCandidate.bind fun s' hs' => ?_
    exact .ok (hs'.passing 1)

/-- A colon ends a key. The key may be the candidate that was kept, or an explicit one, or empty. -/
theorem value (h : Clean cs s) : Proceeds cs (Clean cs) s.value := by
  unfold Scanner.value
  -- a candidate that turns out to be a key; otherwise the key was explicit, or there is none
  split
  next c rest _ =>
    extract_lets s₁ s₂
    -- the token for the key goes where the candidate stood, and so does the start of a mapping
    have h₂ : Clean cs s₂ := Clean.insertAt (s := s₁) c.before h
    have hindent : Clean cs (if s₂.inFlow then (false, s₂) else s₂.addIndent c.column).2 := by
      split
      · exact h₂
      · exact h₂.addIndent c.column
    generalize (if s₂.inFlow then (false, s₂) else s₂.addIndent c.column) = pair at hindent ⊢
    obtain ⟨new, s₃⟩ := pair
    refine .ok (passing 1 ?_)
    show Clean cs (if new then s₃.insertAt c.before .mappingStart else s₃)
    split
    · exact hindent.insertAt c.before
    · exact hindent
  next =>
    split
    · exact .malformed
    · exact .ok (((h.beginBlock)).passing 1)

/-- A token that is found by one scan. -/
theorem starting {α : Type} {a : Scan α} [Consuming Place.source a] {token : α → Token}
    (h : Clean cs s) (ht : ∀ x e, token x ≠ .fault e) :
    Proceeds cs (Clean cs) (s.starting a token) := by
  refine h.saveCandidate.bind fun s' hs' => ?_
  have hscan := run (s := { s' with keyAllowed := false }) a hs'
  refine hscan.bind fun ⟨x, s''⟩ hs'' => ?_
  exact .ok (hs''.push (ht x))

/-- A block of text begins a line further down, so that no candidate is left. -/
theorem block (folded : Bool) (h : Clean cs s) : Proceeds cs (Clean cs) (s.block folded) := by
  refine (dropCandidate (s := { s with keyAllowed := true }) h).bind fun s' hs' => ?_
  refine (hs'.run _).bind fun ⟨text, s''⟩ hs'' => ?_
  exact .ok (hs''.push)

/-- Plain text may be a key. -/
theorem plain (h : Clean cs s) : Proceeds cs (Clean cs) s.plain := by
  refine h.saveCandidate.bind fun s' hs' => ?_
  refine (hs'.run _).bind fun ⟨text, s''⟩ hs'' => ?_
  exact .ok (hs''.push)

/-- One token, by the character it begins with. The lemmas above are its cases. -/
theorem token (h : Clean cs s) : Proceeds cs (Clean cs) s.token := by
  unfold Scanner.token
  -- directives and marks between documents
  refine .ite h.directive <| .ite h.documentMark <| .ite h.documentMark ?_
  -- flow collections
  refine .ite h.openFlow <| .ite h.openFlow ?_
  refine .ite h.closeFlow <| .ite h.closeFlow <| .ite h.comma ?_
  -- items and members
  refine .ite h.entry <| .ite h.explicitKey <| .ite h.value ?_
  -- what may begin a key
  refine .ite (h.starting nofun) <| .ite (h.starting nofun) <| .ite (h.starting nofun) ?_
  -- scalars
  refine .ite (h.block false) <| .ite (h.block true) ?_
  refine .ite (h.starting nofun) <| .ite (h.starting nofun) <| .ite h.plain .malformed

/-- A fault among the tokens is the one that ends them. Induction on the number of tokens. -/
theorem fault_of_mem_tokensFrom (n : Nat) (h : Clean cs s) {e : Error}
    (he : .fault e ∈ s.tokensFrom n) : ScanFault cs e := by
  -- a fault that ends the tokens is the only one among them
  have hlast : ∀ {s : Scanner} {e'}, Clean cs s → ScanFault cs e' →
      .fault e ∈ (.fault e' :: s.tokens).reverse → ScanFault cs e := by
    intro s e' hs hfault hmem
    rcases List.mem_cons.mp (List.mem_reverse.mp hmem) with heq | hmem
    · cases heq
      exact hfault
    · exact absurd hmem (hs.2 e)
  induction n generalizing s with
  | zero => exact hlast h .malformed he
  | succ n ih =>
    unfold tokensFrom at he
    extract_lets next at he
    -- one step: to the next token, and then either the end of the document or a token
    have hnext : Proceeds cs (Sum.elim (Clean cs) (Clean cs)) next := by
      refine (h.toNextToken _).bind fun s₁ h₁ => h₁.dropStale.bind fun s₂ h₂ => ?_
      have h₃ : Clean cs (s₂.unwind s₂.place.column) := h₂.unwind _
      refine .ite ?_ ?_
      · exact (h₃.unwind (-1)).dropCandidate.bind fun _ hs => .ok hs
      · exact h₃.token.bind fun _ hs => .ok hs
    clear_value next
    cases next with
    | error e' => exact hlast h (hnext.fault rfl) he
    | ok ended =>
      cases ended with
      | inl s' => exact absurd (List.mem_reverse.mp he) ((hnext.holds rfl).2 e)
      | inr s' => exact ih (hnext.holds rfl) he

end Clean

end Scanner

/-- **A document accounts for the fault among its tokens.** -/
theorem scanFault_of_mem_tokens {cs : List Char} {e : Error} (h : .fault e ∈ tokens cs) :
    ScanFault cs e := by
  have hstart : Scanner.Clean cs (Scanner.atStart cs) := ⟨List.suffix_refl cs, nofun⟩
  unfold tokens at h
  split at h
  · cases List.mem_singleton.mp h
    exact .malformed
  · extract_lets start start' at h
    have hstart' : Scanner.Clean cs start' := by
      show Scanner.Clean cs (if _ then _ else _)
      split
      · exact ⟨(start.place.rest_forward_suffix 1).trans hstart.1, hstart.2⟩
      · exact hstart
    exact hstart'.fault_of_mem_tokensFrom _ h

end OptionTypes.Yaml
