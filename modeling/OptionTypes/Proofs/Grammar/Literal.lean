import OptionTypes.Proofs.Grammar.Yield

/-!
# Literals and elements give intact trees

A template holds substitutions, and each of these an expression.
-/

namespace OptionTypes.Syntax

variable {G : Grammar} (hG : G.Plain)
include hG

/-! ## Literals

A literal is an operand made of leaves, except for the expressions in a template. -/

/-- Fragments and escapes are leaves; the rest of the string is a goal of its own. -/
theorem yields_stringParts (quote : Char) : Yields AllIntact (Literal.stringParts G quote) := by
  have hrest := hG.all (.stringParts quote) trivial fun _ h => h
  unfold Literal.stringParts
  refine .next fun cs => ?_
  cases cs with
  | nil => exact yields_fail
  | cons c rest =>
    refine .ite (yields_leafHere rfl 1).single (.ite ?_ ?_)
    · cases Lexeme.stringEscape? (c :: rest) with
      | none => exact yields_fail
      | some n => exact (yields_leafHere rfl n).cons hrest
    · exact .ite yields_fail ((yields_leafHere rfl _).cons hrest)

/-- A string is an operand of a kind without demands. -/
theorem yields_string : Yields IntactOperand (Literal.string G) := by
  unfold Literal.string
  refine .next fun cs => ?_
  cases cs.head? with
  | none => exact yields_fail
  | some c =>
    refine .ite ?_ yields_fail
    refine (yields_leaf rfl 1).bind fun opening hopening => ?_
    refine (hG.all (.stringParts _) trivial fun _ h => h).bind fun parts hparts => yields_pure ?_
    exact operand_branch rfl (allIntact_cons.mpr ⟨hopening, hparts⟩)

/-- An expression between its marks. -/
theorem yields_substitution : Yields Intact (Literal.substitution G) := by
  unfold Literal.substitution
  refine (yields_leafHere rfl 2).bind fun opening hopening => ?_
  refine (hG.expressions .inner).bind fun inner hinner => ?_
  refine (yields_mark "\x7d").bind fun closing hclosing => yields_pure ?_
  exact (operand_between rfl (fun _ => rfl) hopening hclosing hinner.1 hinner.2).intact

/-- Fragments, escapes and substitutions; the rest of the template is a goal of its own. -/
theorem yields_templateParts : Yields AllIntact (Literal.templateParts G) := by
  have hrest := hG.all .templateParts trivial fun _ h => h
  unfold Literal.templateParts
  refine .next fun cs => ?_
  split
  · exact yields_fail
  · exact (yields_leafHere rfl 1).single
  · exact (yields_substitution hG).cons hrest
  · split
    · exact yields_fail
    · exact (yields_leafHere rfl _).cons hrest
  · exact (yields_leafHere rfl _).cons hrest

/-- A template is an operand, whatever is substituted in it. -/
theorem yields_template : Yields IntactOperand (Literal.template G) := by
  unfold Literal.template
  refine .next fun cs => .ite ?_ yields_fail
  refine (yields_leaf rfl 1).bind fun opening hopening => ?_
  refine (hG.all .templateParts trivial fun _ h => h).bind fun parts hparts => yields_pure ?_
  exact operand_branch rfl (allIntact_cons.mpr ⟨hopening, hparts⟩)

omit hG in
/-- A regular expression is leaves only; its flags may be left out. -/
theorem yields_regex : Yields IntactOperand Literal.regex := by
  unfold Literal.regex
  refine .next fun cs => ?_
  split
  · split
    · exact yields_fail
    · exact yields_fail
    · refine (yields_leaf rfl 1).bind fun opening hopening => ?_
      refine (yields_leafHere rfl _).bind fun body hbody => ?_
      refine (yields_leafHere rfl 1).bind fun closing hclosing => .next fun after => ?_
      extract_lets flags finish
      have hfinish : ∀ tail, AllIntact tail → Yields IntactOperand (finish tail) := by
        intro tail htail
        refine yields_pure (operand_branch rfl ?_)
        simp [hopening, hbody, hclosing, htail]
      refine .ite (hfinish [] allIntact_nil) ?_
      refine (yields_leafHere rfl flags).bind fun last hlast => hfinish _ ?_
      simp [hlast]
  · exact yields_fail

omit hG in
theorem yields_number : Yields IntactOperand Literal.number := by
  unfold Literal.number
  exact .next fun cs => .ite yields_fail (yields_leaf_kind rfl _)

/-! ## Elements

An element is never evaluated to anything but a failure, so that its parts need only be intact. -/

omit hG in
theorem yields_elementName : Yields Intact Element.name := by
  unfold Element.name
  exact .next fun cs => .ite yields_fail (yields_leaf rfl _)

/-- An expression in braces, a spread, or nothing. -/
theorem yields_elementExpression : Yields Intact (Element.expression G) := by
  unfold Element.expression
  refine (yields_mark "\x7b").bind fun opening hopening => .next fun empty => .next fun spread => ?_
  extract_lets finish
  have hfinish : ∀ inside, AllIntact inside → Yields Intact (finish inside) := by
    intro inside hinside
    refine (yields_mark "\x7d").bind fun closing hclosing => yields_pure (intact_branch rfl ?_)
    simp [hopening, hinside, hclosing]
  refine .ite (hfinish [] allIntact_nil) (.ite ?_ ?_)
  · refine (yields_mark "...").bind fun dots hdots => ?_
    refine (hG.one (.expression .inner) trivial).bind fun t ht => hfinish _ ?_
    simpa using (operand_spread hdots ht).intact
  · exact (hG.expressions .inner).bind fun inside hinside => hfinish inside hinside.1

/-- A value is a string, an expression in braces or an element. -/
theorem yields_attributeValue : Yields Intact (Element.attributeValue G) := by
  unfold Element.attributeValue
  refine .next fun cs => ?_
  cases cs with
  | nil => exact yields_fail
  | cons c rest =>
    refine .ite (.ite yields_fail (yields_leaf rfl _)) (.ite (yields_elementExpression hG) ?_)
    exact (hG.one .element trivial).mono fun _ ht => ht.intact

/-- An attribute is an expression in braces, or a name with or without a value. -/
theorem yields_attribute : Yields Intact (Element.attribute_ G) := by
  unfold Element.attribute_
  refine .next fun braced => .ite ((yields_elementExpression hG).withField _) ?_
  refine yields_elementName.bind fun name hname => .next fun valued => ?_
  extract_lets finish
  have hfinish : ∀ value, AllIntact value → Yields Intact (finish value) := by
    intro value hvalue
    refine yields_pure (intact_withField.mpr (intact_branch rfl ?_))
    exact allIntact_cons.mpr ⟨hname, hvalue⟩
  refine .ite ?_ (hfinish [] allIntact_nil)
  refine (yields_mark "=").bind fun sign hsign => ?_
  refine (yields_attributeValue hG).bind fun value hvalue => hfinish _ ?_
  simp [hsign, hvalue]

theorem yields_attributes : Yields AllIntact (Element.attributes G) := by
  unfold Element.attributes
  refine .next fun cs => .ite (yields_pure allIntact_nil) ?_
  exact (yields_attribute hG).cons (hG.all .attributes trivial fun _ h => h)

/-- Texts, expressions and elements; the rest of them is a goal of its own. -/
theorem yields_elementParts : Yields AllIntact (Element.parts G) := by
  have hrest := hG.all .elementParts trivial fun _ h => h
  unfold Element.parts
  refine .next fun cs => ?_
  split
  · exact yields_fail
  · refine .ite (yields_pure allIntact_nil) ?_
    exact ((hG.one .element trivial).mono fun _ ht => ht.intact).cons hrest
  · exact (yields_elementExpression hG).cons hrest
  · exact (yields_leafHere rfl _).cons hrest

/-- An element is an operand: with its tags and its parts, or closed at once. -/
theorem yields_element : Yields IntactOperand (Element.element G) := by
  unfold Element.element
  refine (yields_part "<").bind fun opening hopening => .next fun cs => ?_
  extract_lets finish
  have hfinish : ∀ tag, AllIntact tag → Yields IntactOperand (finish tag) := by
    intro tag htag
    refine (hG.all .attributes trivial fun _ h => h).bind fun attributes hattributes => ?_
    have hstart : AllIntact (opening :: tag ++ attributes) := by
      simp [hopening, htag, hattributes]
    refine .next fun cs => .ite ?_ ?_
    · -- one tag that closes itself
      refine (yields_part "/").bind fun slash hslash => ?_
      refine (yields_part ">").bind fun closing hclosing => yields_pure (operand_branch rfl ?_)
      rw [allIntact_append]
      exact ⟨hstart, by simp [hslash, hclosing]⟩
    · refine (yields_part ">").bind fun greater hgreater => ?_
      extract_lets first
      have hfirst : Intact first := by
        refine intact_branch rfl ?_
        rw [allIntact_append]
        exact ⟨hstart, by simp [hgreater]⟩
      refine (hG.all .elementParts trivial fun _ h => h).bind fun inside hinside => ?_
      refine (yields_part "<").bind fun less hless => ?_
      refine (yields_part "/").bind fun slash hslash => .next fun cs => ?_
      extract_lets finish
      have hfinish : ∀ closing, AllIntact closing → Yields IntactOperand (finish closing) := by
        intro closing hclosing
        refine (yields_part ">").bind fun greater hgreater => ?_
        extract_lets last
        have hlast : Intact last :=
          intact_branch rfl (by simp [hless, hslash, hclosing, hgreater])
        refine yields_pure (operand_branch rfl ?_)
        simp [hfirst, hinside, hlast]
      refine .ite (hfinish [] allIntact_nil) ?_
      exact yields_elementName.bind fun name hname => hfinish _ (by simp [hname])
  refine .ite (hfinish [] allIntact_nil) ?_
  exact yields_elementName.bind fun name hname => hfinish _ (by simp [hname])

end OptionTypes.Syntax
