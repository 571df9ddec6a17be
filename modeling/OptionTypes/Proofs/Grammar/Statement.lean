import OptionTypes.Proofs.Grammar.Expression
import OptionTypes.Proofs.Grammar.Module

/-!
# Statements give intact trees

Of the parts of statements only a condition must have something inside: it stands between
parentheses. What begins with a word of the layer of types is an expression in a script without
types.
-/

namespace OptionTypes.Syntax

variable {G : Grammar} (hG : G.Plain)
include hG

/-! ## Declarations of names

The words `var`, `let` and `const` are followed by patterns with values. None of the nodes involved
has demands, so that even a value that is missing leaves an intact tree behind. -/

/-- A value behind a sign. Where mistakes are repaired and the value is missing, the sign alone is a
fault, which may have any children. -/
theorem yields_initializer (x : Context) : Yields AllIntact (Statement.initializer G x) := by
  unfold Statement.initializer
  refine (yields_mark "=").bind fun sign hsign => ?_
  extract_lets value missing
  have hvalue : Yields AllIntact value := by
    refine (hG.one (.expression x) trivial).bind fun t ht => yields_pure ?_
    simp [hsign, ht.intact]
  -- a semicolon right behind the sign
  have hmissing : Yields AllIntact missing := by
    refine .next fun stops => .ite (yields_pure ?_) yields_fail
    have hfault : Intact (.node .fault none sign.start sign.stop false [sign]) :=
      intact_of_isFreeLabel rfl (allIntact_cons.mpr ⟨hsign, allIntact_nil⟩)
    simpa using hfault
  exact .ite (.either hvalue hmissing) hvalue

/-- A name or a pattern, with a value or without one. -/
theorem yields_declarator (x : Context) : Yields Intact (Statement.declarator G x) := by
  unfold Statement.declarator
  refine (yields_binding hG).bind fun bound hbound => ?_
  extract_lets name finish
  have hname : Intact name := intact_withField.mpr hbound
  -- the mark before a type is not there, and neither is the type
  have hfinish : ∀ definite, AllIntact definite → Yields Intact (finish definite) := by
    intro definite hdefinite
    refine (yields_clause? hG x.ends).bind fun type htype => .next fun valued => ?_
    extract_lets close
    -- a value may be left out
    have hclose : ∀ value, AllIntact value → Yields Intact (close value) := by
      intro value hvalue
      refine yields_pure (intact_branch rfl ?_)
      simp [hname, hdefinite, htype, hvalue]
    exact .ite ((yields_initializer hG x).bind hclose) (hclose [] allIntact_nil)
  exact hG.ite (hfinish [] allIntact_nil)

/-- Declarators with commas between them. -/
theorem yields_declarators (x : Context) : Yields AllIntact (Statement.declarators G x) := by
  unfold Statement.declarators
  refine (yields_declarator hG x).bind fun first hfirst => .next fun more => .ite ?_ ?_
  · refine (yields_mark ",").bind fun comma hcomma => ?_
    refine (hG.all (.declarators x) trivial fun _ h => h).bind fun rest hrest => yields_pure ?_
    simp [hfirst, hcomma, hrest]
  · exact yields_pure (by simpa using hfirst)

omit hG in
/-- The word tells which kind of declaration it is, and no kind has demands. -/
theorem yields_declaringWord :
    Yields (fun p => Intact p.1 ∧ isFree p.2 = true) Statement.declaringWord := by
  unfold Statement.declaringWord
  refine .next fun cs => .ite ?_ (.ite ?_ ?_)
  · exact (yields_keyword "var").bind fun word hword => yields_pure ⟨hword, rfl⟩
  · refine (yields_keyword "let").bind fun word hword => yields_pure ⟨?_, rfl⟩
    exact intact_withField.mpr hword
  · refine (yields_keyword "const").bind fun word hword => yields_pure ⟨?_, rfl⟩
    exact intact_withField.mpr hword

/-- A declaration is its word and its declarators. In the header of a loop the semicolon behind it
is a part of it, elsewhere it ends as a statement does. -/
theorem yields_bindings (x : Context) : Yields Intact (Statement.bindings G x) := by
  unfold Statement.bindings
  refine yields_declaringWord.bind fun p hp => ?_
  refine (hG.all (.declarators x) trivial fun _ h => h).bind fun names hnames => .ite ?_ ?_
  · exact yields_statement hp.2 _ (allIntact_cons.mpr ⟨hp.1, hnames⟩)
  · refine (yields_mark ";").bind fun last hlast => yields_pure (intact_branch hp.2 ?_)
    simp [hp.1, hnames, hlast]

/-! ## Control flow

Each statement is its keywords, its conditions and its statements inside. The statements inside are
a goal of their own, so none of these rules is recursive. -/

/-- A condition is in parentheses and holds an operand. -/
theorem yields_condition (f : Field) : Yields Intact (Statement.condition G f) := by
  unfold Statement.condition
  refine (yields_mark "(").bind fun opening hopening => ?_
  refine (hG.expressions .inner).bind fun inside hinside => ?_
  refine (yields_mark ")").bind fun closing hclosing => yields_pure (intact_withField.mpr ?_)
  exact (operand_between rfl (fun _ => rfl) hopening hclosing hinside.1 hinside.2).intact

theorem yields_substatement (f : Field) : Yields Intact (Statement.substatement G f) := by
  unfold Statement.substatement
  exact Yields.withField (hG.one .statement trivial) f

/-- A statement for the case that a condition holds, and one for the case that it does not, if
any. -/
theorem yields_if : Yields Intact (Statement.if_ G) := by
  unfold Statement.if_
  refine (yields_keyword "if").bind fun word hword => ?_
  refine (yields_condition hG .condition).bind fun test htest => ?_
  refine (yields_substatement hG .consequence).bind fun yes hyes => .next fun more => .ite ?_ ?_
  · refine (yields_keyword "else").bind fun other hother => ?_
    refine (hG.one .statement trivial).bind fun no hno => yields_pure (intact_branch rfl ?_)
    have hclause : Intact (Reader.branch .elseClause [other, no]) :=
      intact_branch rfl (allIntact_cons.mpr ⟨hother, allIntact_cons.mpr ⟨hno, allIntact_nil⟩⟩)
    simp [hword, htest, hyes, hclause]
  · exact yields_pure (intact_branch rfl (by simp [hword, htest, hyes]))

/-- The cases of a switch, up to the brace that closes it. -/
theorem yields_cases : Yields AllIntact (Statement.cases G) := by
  unfold Statement.cases
  refine .next fun closed => .ite (yields_pure allIntact_nil) (.next fun tested => ?_)
  extract_lets finish
  -- a case and the default differ in their heads only
  have hfinish : ∀ head : Kind × List Tree, isFree head.1 = true → AllIntact head.2 →
      Yields AllIntact (finish head) := by
    intro head hkind hhead
    refine (yields_mark ":").bind fun colon hcolon => ?_
    refine (hG.all (.statements .case) trivial fun _ h => h).bind fun body hbody => ?_
    extract_lets whole
    have hwhole : Intact whole := intact_branch hkind (by simp [hhead, hcolon, hbody])
    refine (hG.all .cases trivial fun _ h => h).bind fun rest hrest => yields_pure ?_
    exact allIntact_cons.mpr ⟨hwhole, hrest⟩
  refine .ite ?_ ?_
  · refine (yields_keyword "case").bind fun word hword => ?_
    refine (hG.expressions .inner).bind fun value hvalue => hfinish _ rfl ?_
    simp [hword, hvalue.1]
  · exact (yields_keyword "default").bind fun word hword => hfinish _ rfl (by simpa using hword)

/-- A switch is a condition and cases between braces. -/
theorem yields_switch : Yields Intact (Statement.switch G) := by
  unfold Statement.switch
  refine (yields_keyword "switch").bind fun word hword => ?_
  refine (yields_condition hG .value).bind fun value hvalue => ?_
  refine (yields_mark "\x7b").bind fun opening hopening => ?_
  refine (hG.all .cases trivial fun _ h => h).bind fun cases hcases => ?_
  refine (yields_mark "\x7d").bind fun closing hclosing => ?_
  extract_lets body
  have hbody : Intact body := intact_branch rfl (by simp [hopening, hcases, hclosing])
  exact yields_pure (intact_branch rfl (by simp [hword, hvalue, hbody]))

/-- The header of a loop over something: what is assigned to in each round, the word `in` or `of`,
and what the loop is over. What is assigned to is a declaration, or a target with parentheses or
without them. -/
theorem yields_eachHeader : Yields AllIntact (Statement.eachHeader G) := by
  unfold Statement.eachHeader
  refine .next fun cs => ?_
  -- the part from `in` or `of` on comes after any left side
  extract_lets declared finish
  have hfinish : ∀ left, AllIntact left → Yields AllIntact (finish left) := by
    intro left hleft
    refine .next fun within => ?_
    extract_lets close
    -- either word is followed by the same
    have hclose : ∀ operator, Intact operator → Yields AllIntact (close operator) := by
      intro operator hoperator
      refine (hG.expressions .inner).bind fun right hright => yields_pure ?_
      simp [hleft, hoperator, hright.1]
    exact .ite ((yields_keyword "in").bind hclose) ((yields_keyword "of").bind hclose)
  refine .next fun parenthesized => .ite ?_ (.ite ?_ ?_)
  · refine yields_declaringWord.bind fun p hp => (yields_binding hG).bind fun bound hbound => ?_
    extract_lets name
    have hname : Intact name := intact_withField.mpr hbound
    refine (yields_clause? hG false).bind fun type htype => .next fun valued => ?_
    extract_lets give
    -- a declaration may have a value here, where the loop is over keys
    have hgive : ∀ value, AllIntact value → Yields AllIntact (give value) := by
      intro value hvalue
      refine hfinish _ ?_
      simp [hp.1, hname, htype, hvalue]
    refine .ite ?_ (hgive [] allIntact_nil)
    refine (yields_mark "=").bind fun sign hsign => ?_
    refine (hG.one (.expression .header) trivial).bind fun t ht => hgive _ ?_
    simp [hsign, ht.intact]
  · exact (yields_condition hG .left).bind fun t ht => hfinish _ (by simpa using ht)
  · refine (hG.one .target trivial).bind fun t ht => hfinish _ ?_
    have ht : Intact t := ht
    simpa using ht

/-- A loop over something is its header and a statement. -/
theorem yields_forEach : Yields Intact (Statement.forEach G) := by
  unfold Statement.forEach
  refine (yields_keyword "for").bind fun word hword => ?_
  refine (yields_keyword? "await").bind fun await hawait => ?_
  refine (yields_mark "(").bind fun opening hopening => ?_
  refine (yields_eachHeader hG).bind fun header hheader => ?_
  refine (yields_mark ")").bind fun closing hclosing => ?_
  refine (yields_substatement hG .body).bind fun body hbody => yields_pure (intact_branch rfl ?_)
  simp [hword, hawait, hopening, hheader, hclosing, hbody]

omit hG in
/-- A semicolon alone. -/
theorem yields_empty (f : Field) : Yields Intact (Statement.empty f) := by
  unfold Statement.empty
  refine (yields_mark ";").bind fun mark hmark => yields_pure ?_
  exact intact_withField.mpr (intact_branch rfl (by simpa using hmark))

/-- Each part of the header is a semicolon alone, or an expression with one after it. The three
parts are read one after the other, so that the proof goes through the continuations from the inside
out. -/
theorem yields_forThree : Yields Intact (Statement.forThree G) := by
  unfold Statement.forThree
  refine (yields_keyword "for").bind fun word hword => ?_
  refine (yields_mark "(").bind fun opening hopening => .next fun cs => ?_
  extract_lets finish
  have hfinish : ∀ start, AllIntact start → Yields Intact (finish start) := by
    intro start hstart
    refine .next fun endless => ?_
    -- what is left once the condition is read, and below once the step is
    extract_lets close
    have hclose : ∀ test, AllIntact test → Yields Intact (close test) := by
      intro test htest
      refine .next fun still => ?_
      extract_lets give
      have hgive : ∀ step, AllIntact step → Yields Intact (give step) := by
        intro step hstep
        refine (yields_mark ")").bind fun closing hclosing => ?_
        refine (yields_substatement hG .body).bind fun body hbody => yields_pure ?_
        refine intact_branch rfl ?_
        simp [hword, hopening, hstart, htest, hstep, hclosing, hbody]
      refine .ite (hgive [] allIntact_nil) ?_
      exact (hG.expressions .inner).bind fun step hstep => hgive _ (by simpa using hstep.1)
    refine .ite ?_ ?_
    · exact (yields_empty .condition).bind fun test htest => hclose _ (by simpa using htest)
    · refine (hG.expressions .inner).bind fun test htest => ?_
      refine (yields_mark ";").bind fun mark hmark => hclose _ ?_
      simp [htest.1, hmark]
  refine .ite ?_ (.ite ?_ ?_)
  · exact (yields_empty .initializer).bind fun start hstart => hfinish _ (by simpa using hstart)
  · exact (yields_bindings hG .header).bind fun start hstart => hfinish _ (by simpa using hstart)
  · refine (hG.expressions .header).bind fun start hstart => ?_
    refine (yields_mark ";").bind fun mark hmark => hfinish _ ?_
    simp [hstart.1, hmark]

theorem yields_while : Yields Intact (Statement.while_ G) := by
  unfold Statement.while_
  refine (yields_keyword "while").bind fun word hword => ?_
  refine (yields_condition hG .condition).bind fun test htest => ?_
  refine (yields_substatement hG .body).bind fun body hbody => yields_pure (intact_branch rfl ?_)
  simp [hword, htest, hbody]

/-- A loop with its condition at the end; the semicolon behind it may be left out. -/
theorem yields_do : Yields Intact (Statement.do_ G) := by
  unfold Statement.do_
  refine (yields_keyword "do").bind fun word hword => ?_
  refine (yields_substatement hG .body).bind fun body hbody => ?_
  refine (yields_keyword "while").bind fun again hagain => ?_
  refine (yields_condition hG .condition).bind fun test htest => ?_
  extract_lets parts
  have hparts : AllIntact parts := by simp [parts, hword, hbody, hagain, htest]
  refine .next fun missing => .ite (.next fun stop => ?_) ?_
  · exact yields_pure (intact_branchTo rfl hparts)
  · refine (yields_mark? ";").bind fun last hlast => yields_pure (intact_branch rfl ?_)
    exact allIntact_append.mpr ⟨hparts, hlast⟩

/-- A body, with a handler or a last body or both. -/
theorem yields_try : Yields Intact (Statement.try_ G) := by
  unfold Statement.try_
  refine (yields_keyword "try").bind fun word hword => ?_
  refine (yields_body hG false).bind fun body hbody => .next fun caught => ?_
  extract_lets finish
  have hfinish : ∀ handler, AllIntact handler → Yields Intact (finish handler) := by
    intro handler hhandler
    refine .next fun final => ?_
    extract_lets close
    -- the last body may be left out
    have hclose : ∀ finalizer, AllIntact finalizer → Yields Intact (close finalizer) := by
      intro finalizer hfinalizer
      exact yields_pure (intact_branch rfl (by simp [hword, hbody, hhandler, hfinalizer]))
    refine .ite ?_ (hclose [] allIntact_nil)
    refine (yields_keyword "finally").bind fun last hlast => ?_
    refine (yields_body hG false).bind fun body hbody => hclose _ ?_
    have hclause : Intact (Reader.branch .finallyClause [last, body]) :=
      intact_branch rfl (by simp [hlast, hbody])
    simpa using hclause
  refine .ite ?_ (hfinish [] allIntact_nil)
  refine (yields_keyword "catch").bind fun again hagain => .next fun named => ?_
  extract_lets handle
  -- a handler may do without a parameter
  have hhandle : ∀ parameter, AllIntact parameter → Yields Intact (handle parameter) := by
    intro parameter hparameter
    refine (yields_body hG false).bind fun body hbody => ?_
    extract_lets clause
    have hclause : Intact clause := intact_branch rfl (by simp [hagain, hparameter, hbody])
    exact hfinish _ (by simpa using hclause)
  refine .ite ?_ (hhandle [] allIntact_nil)
  refine (yields_mark "(").bind fun opening hopening => ?_
  refine (yields_binding hG).bind fun bound hbound => ?_
  extract_lets name
  have hname : Intact name := intact_withField.mpr hbound
  refine (yields_clause? hG false).bind fun type htype => ?_
  refine (yields_mark ")").bind fun closing hclosing => hhandle _ ?_
  simp [hopening, hname, htype, hclosing]

theorem yields_with : Yields Intact (Statement.with_ G) := by
  unfold Statement.with_
  refine (yields_keyword "with").bind fun word hword => ?_
  refine (yields_condition hG .object).bind fun object hobject => ?_
  refine (yields_substatement hG .body).bind fun body hbody => yields_pure (intact_branch rfl ?_)
  simp [hword, hobject, hbody]

omit hG in
/-- A jump is its word, with a label or without one, for every kind of jump alike. -/
theorem yields_jump (G : Grammar) (w : String) {kind : Kind} (hkind : isFree kind = true) :
    Yields Intact (Statement.jump G w kind) := by
  unfold Statement.jump
  refine (yields_keyword w).bind fun word hword => .next fun ends => .next fun named => ?_
  extract_lets finish
  have hfinish : ∀ label, AllIntact label → Yields Intact (finish label) := by
    intro label hlabel
    exact yields_statement hkind _ (allIntact_cons.mpr ⟨hword, hlabel⟩)
  refine .ite ?_ (hfinish [] allIntact_nil)
  exact (yields_anyWord rfl).bind fun label hlabel => hfinish _ (by simpa using hlabel.intact)

/-- What is returned may be left out. -/
theorem yields_return : Yields Intact (Statement.return_ G) := by
  unfold Statement.return_
  refine (yields_keyword "return").bind fun word hword => .next fun ends => .next fun stops => ?_
  refine .ite (yields_statement rfl _ (by simpa using hword)) ?_
  refine (hG.expressions .statement).bind fun value hvalue => ?_
  exact yields_statement rfl _ (allIntact_cons.mpr ⟨hword, hvalue.1⟩)

theorem yields_throw : Yields Intact (Statement.throw_ G) := by
  unfold Statement.throw_
  refine (yields_keyword "throw").bind fun word hword => ?_
  refine (hG.expressions .statement).bind fun value hvalue => ?_
  exact yields_statement rfl _ (allIntact_cons.mpr ⟨hword, hvalue.1⟩)

theorem yields_expressionStatement : Yields Intact (Statement.expression G) := by
  unfold Statement.expression
  refine (hG.expressions .statement).bind fun value hvalue => ?_
  exact yields_statement rfl _ hvalue.1

/-- A label and the statement it is for. -/
theorem yields_labeled : Yields Intact (Statement.labeled G) := by
  unfold Statement.labeled
  refine (yields_anyWord rfl).bind fun label hlabel => (yields_mark ":").bind fun colon hcolon => ?_
  refine (yields_substatement hG .body).bind fun body hbody => yields_pure (intact_branch rfl ?_)
  simp [hlabel.intact, hcolon, hbody]

/-! ## Exports

What is exported is a declaration, names, or everything of a module; decorators may stand before the
keyword. -/

/-- A class may have a keyword before its own. -/
theorem yields_abstractClass {decorators : List Tree} (hdecorators : AllIntact decorators) :
    Yields Intact (Statement.abstractClass G decorators) := by
  unfold Statement.abstractClass
  refine (yields_keyword "abstract").bind fun word hword => ?_
  exact (yields_classOf hG rfl (by simp [hdecorators, hword])).intact

/-- A declaration is a function, a class with or without decorators, or a statement. -/
theorem yields_declaration : Yields Intact (Statement.declaration G) := by
  unfold Statement.declaration
  refine .next fun cs => ?_
  extract_lets finish
  -- what is read as a statement must be a declaration, and is not changed by that
  have hfinish : ∀ t, Intact t → Yields Intact (finish t) :=
    fun t ht => .ite yields_fail (yields_pure ht)
  have hclass : ∀ decorators, AllIntact decorators →
      Yields Intact (Callable.classOf G .classDeclaration decorators) :=
    fun _ h => (yields_classOf hG rfl h).intact
  refine .ite ((yields_functionDeclaration hG).bind hfinish)
    (.ite ((hclass [] allIntact_nil).bind hfinish)
      (.ite ?_ ((hG.one .statement trivial).bind hfinish)))
  refine (hG.all .decorators trivial fun _ h => h).bind fun decorators hdecorators => ?_
  exact (hclass decorators hdecorators).bind hfinish

/-- What a module exports by default: a class without a name, or any declaration. -/
theorem yields_standardDeclaration : Yields Intact (Statement.standardDeclaration G) := by
  unfold Statement.standardDeclaration
  refine .next fun cs => .ite ?_ (yields_declaration hG)
  refine (yields_classOf hG rfl allIntact_nil).bind fun t ht => ?_
  exact .ite (yields_pure ht.intact) yields_fail

/-- An export, by what follows its keyword. Without types only a declaration is left after the first
three forms. -/
theorem yields_exportStatement {decorators : List Tree} (hdecorators : AllIntact decorators) :
    Yields Intact (Statement.exportStatement G decorators) := by
  unfold Statement.exportStatement
  refine (yields_keyword "export").bind fun word hword => ?_
  extract_lets before declared
  have hbefore : AllIntact before := by simp [before, hdecorators, hword]
  have hdeclared : Yields Intact declared := by
    refine (yields_declaration hG).bind fun t ht => yields_pure (intact_branch rfl ?_)
    simp [hbefore, ht]
  refine .next fun cs => .ite (yields_exportAll hG hbefore) ?_
  refine .ite (yields_exportNames hG hbefore) (.ite ?_ ?_)
  · exact yields_exportStandard hG hbefore (yields_standardDeclaration hG) _
  · exact hG.ite (.ite hdeclared yields_fail)

/-! ## All statements

A statement is found by its first word or mark. The proofs follow the branches of the rules in their
order, with one lemma above for each branch. -/

/-- What begins with a brace is a block or an object. Both readings give intact trees, so it does
not matter which of the two is taken. -/
theorem yields_braces : Yields Intact (Statement.braces G) := by
  intro c t d h
  rcases braces_eq_ok h with h | h
  · exact yields_block hG false c t d h
  · exact yields_expressionStatement hG c t d h

/-- A statement by its first word. A word that begins no statement is a label or part of an
expression. -/
theorem yields_ofWord (cs : List Char) (w : String) : Yields Intact (Statement.ofWord G cs w) := by
  have hbindings := yields_bindings hG .statement
  have hexpression := yields_expressionStatement hG
  unfold Statement.ofWord
  -- one branch for every word that begins a statement, in the order of the rule
  refine .ite hbindings (.ite (hG.ite hbindings) (.ite hbindings
    (.ite (yields_functionDeclaration hG) (.ite (.either ?_ hexpression) (.ite (yields_if hG)
    (.ite (.either (yields_forEach hG) (yields_forThree hG)) (.ite (yields_while hG)
    (.ite (yields_do hG) (.ite (yields_switch hG) (.ite (yields_try hG) (.ite (yields_with hG)
    (.ite (yields_jump G _ rfl) (.ite (yields_jump G _ rfl) (.ite ?_ (.ite (yields_return hG)
    (.ite (yields_throw hG) (.ite ?_ (.ite (yields_exportStatement hG allIntact_nil)
    ?_))))))))))))))))))
  · -- a class, which must have a name here
    refine (yields_classOf hG rfl allIntact_nil).bind fun t ht => .ite ?_ yields_fail
    exact .next fun _ => yields_pure ht.intact
  · refine (yields_keyword "debugger").bind fun word hword => yields_statement rfl _ ?_
    simpa using hword
  · exact .ite hexpression (yields_importStatement hG)
  · extract_lets plain
    have hplain : Yields Intact plain := .next fun _ => .ite (yields_labeled hG) hexpression
    rw [hG.untyped]
    exact hplain

/-- Any statement. -/
theorem yields_statement_ : Yields Intact (Statement.statement_ G) := by
  unfold Statement.statement_
  refine .next fun cs => .ite (yields_braces hG) (.ite ?_ (.ite ?_ (.ite (yields_ofWord hG _ _)
    (yields_expressionStatement hG))))
  · refine (yields_mark ";").bind fun mark hmark => yields_pure (intact_branch rfl ?_)
    simpa using hmark
  · refine (hG.all .decorators trivial fun _ h => h).bind fun decorators hdecorators => ?_
    refine .next fun exported => .ite (yields_exportStatement hG hdecorators) ?_
    refine .next fun abstract => .ite (yields_abstractClass hG hdecorators) ?_
    exact (yields_classOf hG rfl hdecorators).intact

/-- Statements up to the mark or word that ends them: the first one, and the goal for the others. -/
theorem yields_statements (ending : Ending) : Yields AllIntact (Statement.statements G ending) := by
  unfold Statement.statements
  refine .next fun cs => ?_
  extract_lets stop
  refine .ite (yields_pure allIntact_nil) ?_
  exact Yields.cons (hG.one .statement trivial) (hG.all (.statements ending) trivial fun _ h => h)

end OptionTypes.Syntax
