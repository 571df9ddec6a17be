import OptionTypes.Proofs.Erasure
import OptionTypes.Proofs.TypeLayer

/-!
# Texts that erasure leaves unchanged

The grammar of scripts with types is not the one of scripts. It is used to find the type layer of
any text, so a text without types stays as it is only as far as that grammar reads no types in it.
It does read some where a script means something else: the two comparisons of `a<b>(c)` are a call
with a type argument to it.

* `TypeLayer.layer_eq_empty`: a tree without syntax for types has no type layer.
* `Erasure.erase_eq_self_iff`: a text is unchanged exactly when its type layer is blank.
-/

namespace OptionTypes.Syntax.TypeLayer

/-- Whether a node has syntax for types: as a whole, in its last children, or in tokens among its
children. -/
def hasTypes (t : Tree) : Bool :=
  isWhole t || isTypeSpecifier t || isCast t || t.is .nonNullExpression
    || t.children.any (isAnyToken (tokensOf t))

/-- Whether no node of a tree has syntax for types. -/
def isTypeless (t : Tree) : Bool := t.nodes.all fun u => !hasTypes u

theorem hasTypes_eq_false_of_isTypeless {t u : Tree} (h : isTypeless t = true) (hu : u ∈ t.nodes) :
    hasTypes u = false := by
  have hnode := List.all_eq_true.mp h u hu
  rwa [Bool.not_eq_true'] at hnode

theorem isTypeless_of_mem_children {t c : Tree} (h : isTypeless t = true) (hc : c ∈ t.children) :
    isTypeless c = true := by
  apply List.all_eq_true.mpr
  intro u hu
  exact List.all_eq_true.mp h u (Tree.mem_nodes_of_mem_children hc hu)

mutual

/-- A tree without syntax for types has no type layer. -/
theorem layer_eq_empty : ∀ (t : Tree) (before after : Option Tree), isTypeless t = true →
    layer before after t = ∅
  | .node label field start stop missing children, before, after, h => by
    have hnode := hasTypes_eq_false_of_isTypeless h (Tree.self_mem_nodes _)
    have hbelow : ∀ c ∈ children, isTypeless c = true := fun c hc => isTypeless_of_mem_children h hc
    simp only [hasTypes, Bool.or_eq_false_iff] at hnode
    obtain ⟨⟨⟨⟨hwhole, hspecifier⟩, hcast⟩, hnonNull⟩, htokens⟩ := hnode
    -- none of the constructs that contribute bytes of their own, so only the children count
    rw [layer]
    simp only [hwhole, hspecifier, hcast, hnonNull, Bool.false_eq_true, if_false]
    exact layerOfAll_eq_empty children _ none hbelow (List.any_eq_false.mp htokens)

/-- Siblings without syntax for types, none of which is a keyword for them, have no type layer. -/
theorem layerOfAll_eq_empty : ∀ (ts : List Tree) (words : List String) (before : Option Tree),
    (∀ t ∈ ts, isTypeless t = true) → (∀ t ∈ ts, ¬isAnyToken words t = true) →
      layerOfAll words before ts = ∅
  | [], words, before, h, hwords => rfl
  | t :: ts, words, before, h, hwords => by
    rw [layerOfAll, if_neg (hwords t (List.mem_cons_self ..)),
      layer_eq_empty t before ts.head? (h t (List.mem_cons_self ..)),
      layerOfAll_eq_empty ts words (some t) (fun c hc => h c (List.mem_cons_of_mem _ hc))
        (fun c hc => hwords c (List.mem_cons_of_mem _ hc))]
    exact Set.union_empty ∅

end

end OptionTypes.Syntax.TypeLayer

namespace OptionTypes.Erasure

open Syntax TypeLayer

/-- Lying in one of the spans is being covered by them. -/
theorem inside_iff_mem_covered {ss : List Span} {n : Nat} : Inside ss n ↔ n ∈ covered ss := by
  constructor
  · rintro ⟨s, hs, hn⟩
    exact ⟨s, hs, contains_iff.mp hn⟩
  · rintro ⟨s, hs, hn⟩
    exact ⟨s, hs, contains_iff.mpr hn⟩

/-- Whether a byte is one that blanking leaves as it is: a blank or the end of a line. -/
def IsBlank (b : UInt8) : Prop := b = space ∨ endsLine b = true

/-- A byte in a span is a blank afterwards, or ends a line. -/
theorem isBlank_blankAt {spans : List Span} {n : Nat} (b : UInt8) (h : Inside spans n) :
    IsBlank (blankAt spans n b) := by
  by_cases hend : endsLine b = true
  · rw [blankAt_of_endsLine hend]
    exact .inr hend
  · rw [blankAt_of_inside (eq_false_of_ne_true hend) h]
    exact .inl rfl

/-- A byte stays unless it lies in a span and is not blank already. -/
theorem blankAt_eq_self_iff {ss : List Span} {n : Nat} {b : UInt8} :
    blankAt ss n b = b ↔ (Inside ss n → IsBlank b) := by
  -- line ends stay in any case, other bytes outside of the spans
  by_cases hend : endsLine b = true
  · constructor
    · intro _ _
      exact .inr hend
    · intro _
      exact blankAt_of_endsLine hend
  · rw [Bool.not_eq_true] at hend
    by_cases hin : Inside ss n
    · rw [blankAt_of_inside hend hin]
      constructor
      · intro h _
        exact .inl h.symm
      · intro h
        rcases h hin with hspace | hend'
        · exact hspace.symm
        · rw [hend] at hend'
          cases hend'
    · constructor
      · intro _ h
        exact absurd h hin
      · intro _
        exact blankAt_of_outside hin

/-- Blanking leaves bytes unchanged when all bytes in the spans are blank. -/
theorem blank_eq_self_iff {ss : List Span} {bytes : Bytes} :
    blank ss bytes = bytes ↔ ∀ n ∈ covered ss, ∀ b, bytes[n]? = some b → IsBlank b := by
  -- byte by byte, since blanking looks at one byte at a time
  have hbytes : blank ss bytes = bytes ↔
      ∀ n : Nat, ∀ b, bytes[n]? = some b → blankAt ss n b = b := by
    constructor
    · intro h n b hb
      have hat := congrArg (fun bs : Bytes => bs[n]?) h
      simp only [blank, getElem?_blankFrom, hb, Option.map_some, Nat.zero_add] at hat
      exact Option.some.inj hat
    · intro h
      have hmap : blankFrom ss 0 bytes = bytes.map id :=
        blankFrom_eq_map fun n b hb => by
          rw [Nat.zero_add]
          exact h n b hb
      rw [blank, hmap, List.map_id]
  rw [hbytes]
  constructor
  · intro h n hn b hb
    exact blankAt_eq_self_iff.mp (h n b hb) (inside_iff_mem_covered.mpr hn)
  · intro h n b hb
    exact blankAt_eq_self_iff.mpr fun hin => h n (inside_iff_mem_covered.mp hin) b hb

/-- Different characters make different texts. -/
theorem ofChars_injective {cs ds : List Char} (h : Text.ofChars cs = Text.ofChars ds) :
    cs = ds := by
  have hchars := congrArg Utf8.charsOfText h
  rw [Utf8.charsOfText_ofChars, Utf8.charsOfText_ofChars] at hchars
  exact Except.ok.inj hchars

/-- A text is unchanged when the bytes of its encoding are, since no two texts have the same. -/
theorem erase_eq_self_iff_blank (chars : List Char) :
    erase (Text.ofChars chars) = .ok (Text.ofChars chars)
      ↔ blank (spans (Dialect.typescript.parse chars)) (Utf8.encode chars)
        = Utf8.encode chars := by
  have herase : erase (Text.ofChars chars)
      = (eraseSpans (spans (Dialect.typescript.parse chars)) chars).mapError .decoding := by
    rw [erase, Utf8.charsOfText_ofChars]
    rfl
  rw [herase, Outcome.mapError_eq_ok_iff, eraseSpans, Outcome.map_eq_ok_iff]
  constructor
  · rintro ⟨cs, hdecode, hcs⟩
    obtain rfl := ofChars_injective hcs
    exact (Utf8.encode_of_decode hdecode).symm
  · intro h
    rw [h, Utf8.decode_encode]
    exact ⟨chars, rfl, rfl⟩

/-- **When a text is unchanged.** Exactly when the grammar with types finds nothing but blanks and
line ends in the type layer of the text; so always when it finds no syntax for types in it.

The spans cover the type layer (`runs_iff_and_covered_spans`), and blanking changes a byte in them
exactly if it is not blank already. -/
theorem erase_eq_self_iff (chars : List Char) :
    (erase (Text.ofChars chars) = .ok (Text.ofChars chars)
        ↔ ∀ n ∈ layer none none (Dialect.typescript.parse chars), ∀ b,
          (Utf8.encode chars)[n]? = some b → b = space ∨ endsLine b = true)
      ∧ (isTypeless (Dialect.typescript.parse chars) = true →
        erase (Text.ofChars chars) = .ok (Text.ofChars chars)) := by
  have hiff : erase (Text.ofChars chars) = .ok (Text.ofChars chars)
      ↔ ∀ n ∈ layer none none (Dialect.typescript.parse chars), ∀ b,
        (Utf8.encode chars)[n]? = some b → IsBlank b := by
    rw [erase_eq_self_iff_blank, blank_eq_self_iff, (runs_iff_and_covered_spans _).2]
  refine ⟨hiff, ?_⟩
  intro htypeless
  rw [hiff, layer_eq_empty _ none none htypeless]
  intro n hn
  exact absurd hn (Set.notMem_empty n)

/-- A function with a choice and a call in it stays, since nothing in it reads as types. -/
theorem erase_function_eq_self :
    let chars := "const f = (a, b) => a ? -b : f(b, a);".toList
    isTypeless (Dialect.typescript.parse chars) = true
      ∧ erase (Text.ofChars chars) = .ok (Text.ofChars chars) := by
  intro chars
  have htypeless : isTypeless (Dialect.typescript.parse chars) = true := by decide +kernel
  exact ⟨htypeless, (erase_eq_self_iff chars).2 htypeless⟩

/-- Not every script is unchanged: of two comparisons the type argument that they are read as is
gone. -/
theorem not_forall_erase_eq_self :
    ¬∀ text script, Script.read text = .ok script → erase text = .ok text := by
  intro h
  have hread : (Script.read (Text.ofChars "a<b>(c)".toList)).toOption.isSome = true := by
    decide +kernel
  have herased : (erase (Text.ofChars "a<b>(c)".toList)).toOption
      = some (Text.ofChars "a   (c)".toList) := by
    decide +kernel
  cases hscript : Script.read (Text.ofChars "a<b>(c)".toList) with
  | error e =>
    rw [hscript] at hread
    cases hread
  | ok script =>
    rw [h _ script hscript] at herased
    have hsame : Text.ofChars "a<b>(c)".toList = Text.ofChars "a   (c)".toList :=
      Option.some.inj herased
    exact absurd (ofChars_injective hsame) (by decide)

end OptionTypes.Erasure
