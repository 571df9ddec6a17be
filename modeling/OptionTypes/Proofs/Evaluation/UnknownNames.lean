import Mathlib.Data.List.Infix
import OptionTypes.Proofs.Evaluation.Lookups
import OptionTypes.Proofs.Grammar.Nesting

/-!
# How an unknown name is reported

A name that is unknown is reported with the member of the schema that it stands in, so that one sees
where it is used. The member is the innermost one around the name, and is only given if it lies in
the innermost object: where an object comes first, as around a shorthand, the name stands alone.

The text that is shown contains the name. Spans of bytes that lie one in the other hold texts one in
the other if they begin and end between characters, as those of the nodes of a script do.

* `Tree.text_isInfix`: the texts of nested nodes.
* `unknown_name_shows_member`: what is reported of the names that an evaluation looks up.
-/

namespace OptionTypes

open Syntax Erasure

/-! ## Texts of nested nodes -/

namespace Syntax

/-- The boundaries of a source are the lengths of its beginnings, of which there are finitely
many. -/
theorem isBoundary_iff {chars : List Char} {n : Nat} :
    IsBoundary chars n ↔ n ∈ chars.inits.map fun before => (Utf8.encode before).length := by
  rw [List.mem_map]
  constructor
  · rintro ⟨before, after, rfl, rfl⟩
    exact ⟨before, (List.mem_inits _ _).mpr (List.prefix_append before after), rfl⟩
  · rintro ⟨before, hbefore, rfl⟩
    obtain ⟨after, rfl⟩ := (List.mem_inits _ _).mp hbefore
    exact ⟨before, after, rfl, rfl⟩

instance (chars : List Char) (n : Nat) : Decidable (IsBoundary chars n) :=
  decidable_of_iff _ isBoundary_iff.symm

instance (root : Tree) (chars : List Char) : Decidable (root.OnBoundaries chars) :=
  inferInstanceAs (Decidable (∀ u ∈ _, _))

/-- Characters take at least a byte. -/
theorem length_encode_pos {cs : List Char} (h : cs ≠ []) : 0 < (Utf8.encode cs).length := by
  cases cs with
  | nil => exact absurd rfl h
  | cons c cs =>
    have hpos := Utf8.size_pos c
    rw [← Utf8.length_encodeChar] at hpos
    rw [Utf8.encode_cons, List.length_append]
    omega

/-- Of two boundaries the earlier one has fewer characters before it. -/
theorem prefix_of_length_encode_le {before after before' after' : List Char}
    (h : before ++ after = before' ++ after')
    (hle : (Utf8.encode before).length ≤ (Utf8.encode before').length) : before <+: before' := by
  rcases List.prefix_or_prefix_of_prefix (⟨after, h⟩ : before <+: before' ++ after')
    (List.prefix_append before' after') with hprefix | ⟨more, rfl⟩
  · exact hprefix
  · -- nothing can lie between
    rw [Utf8.encode_append, List.length_append] at hle
    have hnil : more = [] := by
      by_contra hmore
      have hpos := length_encode_pos hmore
      omega
    rw [hnil, List.append_nil]

/-- The text of a node whose span is that of some characters. -/
theorem Tree.text_eq {t : Tree} {before middle after : List Char}
    (hstart : t.start = (Utf8.encode before).length)
    (hstop : t.stop = (Utf8.encode (before ++ middle)).length) :
    t.text (Utf8.encode (before ++ middle ++ after)) = Text.ofChars middle := by
  have hslice : slice (Utf8.encode (before ++ middle ++ after)) t.start t.stop
      = Utf8.encode middle := by
    simp [slice, hstart, hstop, Utf8.encode_append]
  rw [Tree.text, hslice, Utf8.decodeLossy_encode]

/-- **The text of a node contains that of each node within its span.** -/
theorem Tree.text_isInfix {chars : List Char} {inner outer : Tree}
    (hinner : IsBoundary chars inner.start ∧ IsBoundary chars inner.stop)
    (houter : IsBoundary chars outer.start ∧ IsBoundary chars outer.stop)
    (hspan : inner.start ≤ inner.stop)
    (hwithin : outer.start ≤ inner.start ∧ inner.stop ≤ outer.stop) :
    inner.text (Utf8.encode chars) <:+: outer.text (Utf8.encode chars) := by
  obtain ⟨⟨b₂, a₂, h₂, hstart⟩, ⟨b₃, a₃, h₃, hstop⟩⟩ := hinner
  obtain ⟨⟨b₁, a₁, h₁, hfrom⟩, ⟨b₄, a₄, h₄, hto⟩⟩ := houter
  -- the four places in order, and what lies between them
  obtain ⟨left, rfl⟩ : b₁ <+: b₂ := prefix_of_length_encode_le (h₁.symm.trans h₂) (by omega)
  obtain ⟨middle, rfl⟩ : b₁ ++ left <+: b₃ :=
    prefix_of_length_encode_le (h₂.symm.trans h₃) (by omega)
  obtain ⟨right, rfl⟩ : b₁ ++ left ++ middle <+: b₄ :=
    prefix_of_length_encode_le (h₃.symm.trans h₄) (by omega)
  have hname : inner.text (Utf8.encode chars) = Text.ofChars middle := by
    rw [h₃]
    exact Tree.text_eq hstart hstop
  have hwhole : outer.text (Utf8.encode chars) = Text.ofChars (left ++ middle ++ right) := by
    have hbetween : b₁ ++ left ++ middle ++ right = b₁ ++ (left ++ middle ++ right) := by
      simp only [List.append_assoc]
    rw [hbetween] at h₄ hto
    rw [h₄]
    exact Tree.text_eq hfrom hto
  rw [hname, hwhole]
  exact ⟨Text.ofChars left, Text.ofChars right, by simp [Text.ofChars]⟩

end Syntax

namespace Evaluation

/-- The member around a node encloses it. -/
theorem mem_nodes_of_memberAround {root m u : Tree} {path : List Nat}
    (hu : root.at? false path = some u) (hm : memberAround root path = some m) :
    m ∈ root.nodes ∧ u ∈ m.nodes := by
  obtain ⟨-, inner, outer, haround, -⟩ := innermostMember_eq_some_iff.mp hm
  refine Tree.mem_nodes_of_mem_around hu m ?_
  rw [haround]
  simp

/-- What is shown for a name contains it. -/
theorem text_isInfix_memberAround {chars : List Char} {root u : Tree} {path : List Nat}
    (hnested : root.IsNested) (hplaces : root.OnBoundaries chars)
    (hu : root.at? false path = some u) :
    u.text (Utf8.encode chars)
      <:+: ((memberAround root path).getD u).text (Utf8.encode chars) := by
  cases hm : memberAround root path with
  | none => exact List.infix_rfl
  | some m =>
    obtain ⟨hroot, hbelow⟩ := mem_nodes_of_memberAround hu hm
    have hmem := Tree.mem_nodes_of_at? hu
    exact Tree.text_isInfix (hplaces u hmem) (hplaces m hroot) (hnested u hmem).1
      ((hnested.of_mem hroot).within u hbelow)

/-- **An unknown name is reported with the member around it.** Wherever an expression stands in a
tree, an unknown name that its evaluation looks up is what the evaluation fails with. The failure
tells the text of the name, and shows the innermost member around it, or the name alone if an object
or the root comes first. What it shows contains the name if spans are nested, as those of every
script are. And no other failure tells a name. For an object, what is around it is of no account.

A name is looked up along a path through the tree (`LooksUp`), which says at each step what has been
evaluated before without failing. Failures come up unchanged, and on the way down the member around
the name is handed on as the context. -/
theorem unknown_name_shows_member (chars : List Char) (symbols : List (Text × Value))
    (root t : Tree) (path : List Nat) (ht : root.at? false path = some t) :
    let s : Scope := ⟨Utf8.encode chars, symbols⟩
    (∀ below u, LooksUp s .value t below u → s.find? (u.text s.source) = none →
        ∃ g, eval s (memberAround root path) t = .error (.gap g)
          ∧ g.name? = some (u.text s.source)
          ∧ g.expression = ((memberAround root (path ++ below)).getD u).text s.source
          ∧ (root.IsNested → root.OnBoundaries chars → u.text s.source <:+: g.expression))
      ∧ (∀ g name, eval s (memberAround root path) t = .error (.gap g) → g.name? = some name →
          ∃ below u, LooksUp s .value t below u ∧ s.find? (u.text s.source) = none
            ∧ name = u.text s.source)
      ∧ (t.is .object = true →
          evaluate s.source symbols t = eval s (memberAround root path) t)
      ∧ (∀ script, Script.read (Text.ofChars chars) = .ok script →
          script.source = s.source ∧ script.root.IsNested ∧ script.root.OnBoundaries chars) := by
  intro s
  have haround := Tree.around_append ht
  -- the name that is looked up fails, every failure comes from such a name, an object is its own
  -- context
  refine ⟨?_, ?_, ?_, fun script => nested_of_read⟩
  · intro below u hlooks hlack
    have hu : root.at? false (path ++ below) = some u := by
      rw [Tree.at?_append, ht, Option.bind_some, hlooks.at?]
    refine ⟨_, hlooks.fails hlack (root.around path) trivial, rfl, ?_, fun hnested hplaces => ?_⟩
    · rw [← haround]
      rfl
    · rw [← haround]
      exact text_isInfix_memberAround hnested hplaces hu
  · intro g name hg hname
    obtain ⟨below, u, hlooks, hlack, rfl⟩ :=
      exists_looksUp hname t .value (root.around path) trivial hg
    exact ⟨below, u, hlooks, hlack, (Option.some.inj hname).symm⟩
  · intro hobject
    rw [evaluate, eval_of_object hobject, eval_of_object hobject]

/-- A schema with a name below a spread, and another one next to a computed key. -/
def schemaSource : List Char := "(\x7bé: [k, \x7b...x\x7d], [k]: -y\x7d)".toList

/-- The list in `schemaSource`. -/
def schemaList : Tree :=
  .node (.kind .array) (some .value) 6 17 false
    [.ofToken "[" 6 7, .ofKind .identifier 7 8 [], .ofToken "," 8 9,
      .ofKind .object 10 16
        [.ofToken "\x7b" 10 11,
          .ofKind .spreadElement 11 15 [.ofToken "..." 11 14, .ofKind .identifier 14 15 []],
          .ofToken "\x7d" 15 16],
      .ofToken "]" 16 17]

/-- The last member in `schemaSource`. -/
def schemaMember : Tree :=
  .ofKind .pair 19 26
    [.node (.kind .computedPropertyName) (some .key) 19 22 false
        [.ofToken "[" 19 20, .ofKind .identifier 20 21 [], .ofToken "]" 21 22],
      .ofToken ":" 22 23,
      .node (.kind .unaryExpression) (some .value) 24 26 false
        [.node (.token "-") (some .operator) 24 25 false [],
          .node (.kind .identifier) (some .argument) 25 26 false []]]

/-- The object in `schemaSource`. -/
def schemaObject : Tree :=
  .ofKind .object 1 27
    [.ofToken "\x7b" 1 2,
      .ofKind .pair 2 17 [.node (.kind .propertyIdentifier) (some .key) 2 4 false [],
        .ofToken ":" 4 5, schemaList],
      .ofToken "," 17 18, schemaMember, .ofToken "\x7d" 26 27]

/-- The tree of `schemaSource`. -/
def schemaTree : Tree :=
  .ofKind .program 0 28 [.ofKind .expressionStatement 0 28
    [.ofKind .parenthesizedExpression 0 28
      [.ofToken "(" 0 1, schemaObject, .ofToken ")" 27 28]]]

/-- The name below the spread is reported alone, since an object comes first, and the one next to
the computed key with its member. -/
theorem unknown_name_shows_member_schema :
    let shape : Tree → Label × Option Field × Nat × Nat × Nat :=
      fun t => (t.label, t.field, t.start, t.stop, t.children.length)
    let source := Utf8.encode schemaSource
    (∃ script, Script.read (Text.ofChars schemaSource) = .ok script ∧ script.source = source
        ∧ script.root.nodes.map shape = schemaTree.nodes.map shape
        ∧ script.root.IsNested ∧ script.root.OnBoundaries schemaSource)
      ∧ schemaTree.at? false [0, 0, 1] = some schemaObject
      ∧ (∃ g, evaluate source [("k", .null)] schemaObject = .error (.gap g)
        ∧ g.name? = some "x" ∧ g.expression = "x")
      ∧ ∃ g, evaluate source [("k", .null), ("x", .null)] schemaObject = .error (.gap g)
        ∧ g.name? = some "y" ∧ g.expression = "[k]: -y" ∧ "y" <:+: g.expression
        ∧ ∃ below u, LooksUp ⟨source, [("k", .null), ("x", .null)]⟩ .value schemaObject below u
          ∧ u.text source = "y" := by
  intro shape source
  have hat : schemaTree.at? false [0, 0, 1] = some schemaObject := rfl
  refine ⟨?_, hat, ?_, ?_⟩
  · have hnone : (firstFault? (Dialect.javascript.parse schemaSource)).isNone = true := by
      decide +kernel
    have hread : Script.read (Text.ofChars schemaSource)
        = .ok ⟨source, Dialect.javascript.parse schemaSource⟩ := by
      rw [Script.read_eq_ofTree, Script.ofTree, Option.isNone_iff_eq_none.mp hnone]
    obtain ⟨-, -, -, hscript⟩ := unknown_name_shows_member schemaSource [] _ _ _ hat
    obtain ⟨hsource, hnested, hplaces⟩ := hscript _ hread
    exact ⟨_, hread, hsource, by decide +kernel, hnested, hplaces⟩
  · -- a name in an item of an array, where the item itself is shown
    let s : Scope := ⟨source, [("k", .null)]⟩
    have hlooks : LooksUp s .value schemaObject [1, 2, 3, 1, 1] (.ofKind .identifier 14 15 []) := by
      refine .child rfl (.member rfl rfl rfl) ?_
      refine .child rfl (.value rfl rfl ⟨rfl, by decide⟩) ?_
      refine .child rfl (.item rfl rfl rfl rfl) ?_
      refine .child rfl (.member rfl rfl rfl) ?_
      refine .child rfl (.operand rfl ⟨rfl, by decide⟩) ?_
      exact .here (by decide +kernel)
    obtain ⟨hshown, -, hevaluate, -⟩ := unknown_name_shows_member schemaSource s.symbols _ _ _ hat
    obtain ⟨g, hg, hname, hexpression, -⟩ := hshown _ _ hlooks (by decide +kernel)
    have htext : Tree.text source (.ofKind .identifier 14 15 []) = "x" := by decide +kernel
    refine ⟨g, (hevaluate rfl).trans hg, hname.trans (congrArg some htext), ?_⟩
    exact hexpression.trans htext
  · -- a name below a minus, where the whole member of the object around it is shown
    let s : Scope := ⟨source, [("k", .null), ("x", .null)]⟩
    let y : Tree := .node (.kind .identifier) (some .argument) 25 26 false []
    have hlooks : LooksUp s .value schemaObject [3, 2, 1] y := by
      refine .child rfl (.member rfl rfl rfl) ?_
      refine .child rfl (.value rfl rfl ⟨rfl, by decide⟩) ?_
      refine .child rfl (.argument rfl (by decide) ⟨rfl, by decide⟩) ?_
      exact .here (by decide +kernel)
    have hnested : schemaTree.IsNested := by decide +kernel
    have hplaces : schemaTree.OnBoundaries schemaSource := by decide +kernel
    have htext : y.text source = "y" := by decide +kernel
    have hmember : schemaMember.text source = "[k]: -y" := by decide +kernel
    obtain ⟨hshown, hlooked, hevaluate, -⟩ :=
      unknown_name_shows_member schemaSource s.symbols _ _ _ hat
    obtain ⟨g, hg, hname, hexpression, hinfix⟩ := hshown _ _ hlooks (by decide +kernel)
    have hinside := hinfix hnested hplaces
    obtain ⟨below, u, hu, -, hsame⟩ := hlooked g _ hg hname
    rw [htext] at hname hinside hsame
    exact ⟨g, (hevaluate rfl).trans hg, hname, hexpression.trans hmember, hinside, below, u, hu,
      hsame.symm⟩

end Evaluation

end OptionTypes
