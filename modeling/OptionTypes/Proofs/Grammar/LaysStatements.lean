import OptionTypes.Proofs.Grammar.LaysExpressions

/-!
# The grammar of scripts continues a row

* `lays_statement_`: the rule of statements.
* `lays_produce`: the rule of any goal continues a row if the goals below it do.
* `orderly_readGoal`: so does every goal, read to any depth.
-/

namespace OptionTypes.Syntax

variable {source : List Char} {G : Grammar} (hG : G.Orderly source)
include hG

/-! ## Imports and exports -/

theorem lays_exportedName : LaysOne source [] (Module.exportedName G) := by
  unfold Module.exportedName
  exact .look fun _ => .ite (lays_anyWord _) (lays_string hG)

/-- A name that may have another one behind it, with anything read before both. -/
theorem lays_renamed (before : List Tree) (kind : Kind) :
    LaysOne source before (Module.renamed G before kind) := by
  unfold Module.renamed
  refine (lays_exportedName hG).next fun name => .look fun more => .ite ?_ ?_
  · refine (lays_keyword "as").next fun word => (lays_exportedName hG).next fun other => ?_
    exact lays_branch (by simp) (by simp)
  · exact lays_branch (by simp) (by simp)

/-- A specifier is a name, possibly with the word for types before it. -/
theorem lays_specifier (kind : Kind) : LaysOne source [] (Module.specifier G kind) := by
  have hafter : ∀ w, LaysOne source [] (do Module.renamed G [← Reader.keyword w] kind) :=
    fun w => (lays_keyword w).bind fun word => lays_renamed hG [word] kind
  unfold Module.specifier
  exact .look fun _ => .ite (hafter "type")
    (.look fun _ => .ite (hafter "typeof") (lays_renamed hG [] kind))

theorem lays_fromClause : LaysAll source [] (Module.fromClause G) := by
  unfold Module.fromClause
  refine (lays_keyword "from").bind fun word => (lays_string hG).next fun name => ?_
  exact lays_pure (folds_of_shape (by simp))

/-- Where names come from, if that is told. -/
theorem lays_fromClause? : LaysAll source [] (Module.fromClause? G) := by
  unfold Module.fromClause?
  exact .look fun _ => .ite (lays_fromClause hG) (lays_pure (.refl _))

/-- The attributes of an import, if there are any: an object behind a word. -/
theorem lays_importAttributes? : LaysAll source [] (Module.attributes? G) := by
  unfold Module.attributes?
  refine .look fun more => .ite ((lays_keyword "with").bind fun word => ?_) (lays_pure (.refl _))
  refine (lays_mark "\x7b").next fun opening => (hG.sub (.items .members) rfl).next fun items => ?_
  refine (lays_mark "\x7d").next fun closing => lays_pure (folds_branch ?_ nofun)
  have hobject : Folds (opening :: items ++ [closing])
      [Reader.branch .object (opening :: items ++ [closing])] := folds_branch (.refl _) nofun
  exact (Folds.refl [word]).append hobject

/-- Names that are imported: all of them under one name, or those between braces. -/
theorem lays_importNames : LaysOne source [] (Module.names G) := by
  unfold Module.names
  refine .look fun all => .ite ?_ ?_
  · refine (lays_mark "*").bind fun star => (lays_keyword "as").next fun word => ?_
    exact (lays_anyWord _).next fun name => lays_branch rfl nofun
  · refine (lays_mark "\x7b").bind fun opening => ?_
    refine (hG.sub (.items .importSpecifiers) rfl).next fun items => ?_
    exact (lays_mark "\x7d").next fun closing => lays_branch rfl nofun

/-- What is imported: a name, further names behind a comma, or both. -/
theorem lays_importClause : LaysOne source [] (Module.importClause G) := by
  unfold Module.importClause
  refine .look fun named => .ite ?_ ?_
  · refine (lays_anyWord _).bind fun name => .look fun more => .ite ?_ (lays_branch rfl nofun)
    refine (lays_mark ",").next fun comma => (lays_importNames hG).next fun names => ?_
    exact lays_branch rfl nofun
  · exact (lays_importNames hG).bind fun names => lays_branch rfl nofun

/-- An import, of names or of a module alone. Whichever comes first, attributes and the end of the
statement follow. -/
theorem lays_importStatement : LaysOne source [] (Module.importStatement G) := by
  unfold Module.importStatement
  refine (lays_keyword "import").bind fun word => ?_
  extract_lets finish plain
  have hfinish : ∀ parts, LaysOne source parts (finish parts) :=
    fun parts => (lays_importAttributes? hG).next fun attributes => lays_statement _ rfl
  have hplain : ∀ before, LaysOne source before (plain before) := by
    intro before
    refine (lays_importClause hG).next fun clause => (lays_fromClause hG).next fun origin => ?_
    exact hfinish _
  refine .look fun cs => .ite ?_ (hG.ite (hplain [word]))
  exact (lays_string hG).next fun name => (hfinish _).after (folds_of_shape (by simp))

theorem lays_exportClause : LaysOne source [] (Module.exportClause G) := by
  unfold Module.exportClause
  refine (lays_mark "\x7b").bind fun opening => ?_
  refine (hG.sub (.items .exportSpecifiers) rfl).next fun items => ?_
  exact (lays_mark "\x7d").next fun closing => lays_branch rfl nofun

/-- An export of all names of a module, possibly under one name. -/
theorem lays_exportAll (before : List Tree) :
    LaysOne source before (Module.exportAll G before) := by
  unfold Module.exportAll
  refine (lays_mark "*").next fun star => .look fun named => ?_
  extract_lets finish
  have hfinish : ∀ all, LaysOne source (before ++ all) (finish all) := by
    intro all
    refine (lays_fromClause hG).next fun origin => ?_
    exact (lays_importAttributes? hG).next fun attributes => lays_statement _ rfl
  refine .ite ?_ (hfinish _)
  refine (lays_keyword "as").next fun word => (lays_exportedName hG).next fun name => ?_
  refine (hfinish _).after (Folds.tail (folds_branch (.refl [star, word, name]) nofun) ?_)
  simp

/-- An export of names between braces. -/
theorem lays_exportNames (before : List Tree) :
    LaysOne source before (Module.exportNames G before) := by
  unfold Module.exportNames
  refine (lays_exportClause hG).next fun clause => (lays_fromClause? hG).next fun origin => ?_
  exact (lays_importAttributes? hG).next fun attributes => lays_statement _ rfl

/-- The standard export: a declaration or an expression. -/
theorem lays_exportStandard (before : List Tree) {declaration : Reader Tree}
    (hdeclaration : LaysOne source [] declaration) (declares : List Char → Bool) :
    LaysOne source before (Module.exportStandard G before declaration declares) := by
  unfold Module.exportStandard
  refine (lays_keyword "default").next fun word => ?_
  extract_lets value
  have hvalue : LaysOne source (before ++ [word]) value :=
    (hG.one (.expression .statement) rfl).next fun t => lays_statement _ (by simp)
  refine .look fun cs => .ite (.either ?_ hvalue) hvalue
  exact hdeclaration.next fun t => lays_branch (by simp) (by simp)

/-! ## Declarations of names -/

/-- The value of a declared name. A missing value has a node of its own. -/
theorem lays_initializer (x : Context) : LaysAll source [] (Statement.initializer G x) := by
  unfold Statement.initializer
  refine (lays_mark "=").bind fun sign => ?_
  extract_lets value missing
  have hvalue : LaysAll source [sign] value :=
    (hG.one (.expression x) rfl).next fun t => lays_pure (folds_of_shape (by simp))
  have hmissing : LaysAll source [sign] missing :=
    .look fun stops => .ite (lays_pure (folds_around _ _ _)) lays_fail
  exact .ite (.either hvalue hmissing) hvalue

/-- A declared name with its value, if it has one. -/
theorem lays_declarator (x : Context) : LaysOne source [] (Statement.declarator G x) := by
  unfold Statement.declarator
  refine (lays_binding hG).bind fun bound => ?_
  extract_lets name finish
  -- with a mark behind the name or without one, a value may follow
  have hfinish : ∀ definite, LaysOne source (bound :: definite) (finish definite) := by
    intro definite
    refine (lays_clause? hG x.ends).next fun type => .look fun valued => ?_
    extract_lets close
    have hclose : ∀ value, LaysOne source (bound :: definite ++ type ++ value) (close value) :=
      fun value => lays_branch (by simp [name]) (by simp)
    exact .ite ((lays_initializer hG x).next hclose)
      ((hclose []).after (folds_of_shape (by simp)))
  exact hG.ite (hfinish [])

/-- Declared names with commas between them. -/
theorem lays_declarators (x : Context) : LaysAll source [] (Statement.declarators G x) := by
  unfold Statement.declarators
  refine (lays_declarator hG x).bind fun first => .look fun more => .ite ?_ (lays_pure (.refl _))
  refine (lays_mark ",").next fun comma => (hG.sub (.declarators x) rfl).next fun rest => ?_
  exact lays_pure (.refl _)

omit hG in
/-- The word that declares names. Only two of the three play a part. -/
theorem lays_declaringWord : Lays source [] (fun p => [p.1]) Statement.declaringWord := by
  unfold Statement.declaringWord
  refine .look fun cs => .ite ?_ (.ite ?_ ?_)
  · exact (lays_keyword "var").bind fun word => lays_pure (.refl _)
  · exact (lays_keyword "let").bind fun word => lays_pure (folds_withField _)
  · exact (lays_keyword "const").bind fun word => lays_pure (folds_withField _)

/-- A declaration of names, with the end of the statement or in the header of a loop. -/
theorem lays_bindings (x : Context) : LaysOne source [] (Statement.bindings G x) := by
  unfold Statement.bindings
  refine lays_declaringWord.bind fun p => (hG.sub (.declarators x) rfl).next fun names => ?_
  refine .ite (lays_statement _ rfl) ((lays_mark ";").next fun last => ?_)
  exact lays_branch rfl nofun

/-! ## Control flow -/

theorem lays_condition (f : Field) : LaysOne source [] (Statement.condition G f) := by
  unfold Statement.condition
  refine (lays_mark "(").bind fun opening => ?_
  refine (hG.sub (.expressions .inner) rfl).next fun inside => ?_
  exact (lays_mark ")").next fun closing => lays_branchAs rfl nofun

theorem lays_substatement (f : Field) : LaysOne source [] (Statement.substatement G f) := by
  unfold Statement.substatement
  exact LaysOne.withField (hG.one .statement rfl) f

/-- A choice between two statements, of which the second may be missing. -/
theorem lays_if : LaysOne source [] (Statement.if_ G) := by
  unfold Statement.if_
  refine (lays_keyword "if").bind fun word => (lays_condition hG .condition).next fun test => ?_
  refine (lays_substatement hG .consequence).next fun yes => .look fun more => .ite ?_ ?_
  · refine (lays_keyword "else").next fun other => (hG.one .statement rfl).next fun no => ?_
    refine lays_pure (folds_branch ?_ nofun)
    exact (Folds.refl [word, test, yes]).append (folds_branchAs (.refl [other, no]) nofun)
  · exact lays_branch rfl nofun

/-- The cases of a choice, up to the closing brace. -/
theorem lays_cases : LaysAll source [] (Statement.cases G) := by
  unfold Statement.cases
  refine .look fun closed => .ite (lays_pure (.refl _)) (.look fun tested => ?_)
  extract_lets finish
  -- behind its head, tested or not, a case has statements, and then the other cases follow
  have hfinish : ∀ head : Kind × List Tree, LaysAll source head.2 (finish head) := by
    intro head
    refine (lays_mark ":").next fun colon => (hG.sub (.statements .case) rfl).next fun body => ?_
    extract_lets whole
    have hwhole : Folds (head.2 ++ [colon] ++ body) [whole] :=
      folds_branch (folds_of_shape (by simp)) (by simp)
    exact (hG.sub .cases rfl).next fun rest => lays_pure (hwhole.cons rest)
  refine .ite ?_ ((lays_keyword "default").bind fun word => hfinish (.switchDefault, [word]))
  refine (lays_keyword "case").bind fun word => ?_
  refine (hG.sub (.expressions .inner) rfl).next fun value => ?_
  exact (hfinish _).after (folds_of_shape (by simp))

/-- A choice between cases. -/
theorem lays_switch : LaysOne source [] (Statement.switch G) := by
  unfold Statement.switch
  refine (lays_keyword "switch").bind fun word => (lays_condition hG .value).next fun value => ?_
  refine (lays_mark "\x7b").next fun opening => (hG.sub .cases rfl).next fun cases => ?_
  refine (lays_mark "\x7d").next fun closing => ?_
  extract_lets body
  have hbody : Folds (opening :: cases ++ [closing]) [body.withField .body] :=
    folds_branchAs (.refl _) nofun
  exact lays_pure (folds_branch ((Folds.refl [word, value]).append hbody) nofun)

/-- The header of a loop over something: a declared name or a place to assign to, and what to go
through. -/
theorem lays_eachHeader : LaysAll source [] (Statement.eachHeader G) := by
  unfold Statement.eachHeader
  refine .look fun cs => ?_
  -- the part from `in` or `of` on comes after any left side
  extract_lets declared finish
  have hfinish : ∀ left, LaysAll source left (finish left) := by
    intro left
    refine .look fun within => ?_
    extract_lets close
    have hclose : ∀ operator, LaysAll source (left ++ [operator]) (close operator) := by
      intro operator
      refine (hG.sub (.expressions .inner) rfl).next fun right => ?_
      exact lays_pure (folds_of_shape (by simp))
    exact .ite ((lays_keyword "in").next hclose) ((lays_keyword "of").next hclose)
  refine .look fun parenthesized => .ite ?_ (.ite ?_ ?_)
  · refine lays_declaringWord.bind fun p => (lays_binding hG).next fun bound => ?_
    extract_lets name
    refine (lays_clause? hG false).next fun type => .look fun valued => ?_
    extract_lets give
    have hgive : ∀ value, LaysAll source ([p.1, bound] ++ type ++ value) (give value) :=
      fun value => (hfinish _).after (folds_of_shape (by simp [name]))
    refine .ite ?_ ((hgive []).after (folds_of_shape (by simp)))
    refine (lays_mark "=").next fun sign => (hG.one (.expression .header) rfl).next fun t => ?_
    exact (hgive _).after (folds_of_shape (by simp))
  · exact (lays_condition hG .left).bind fun t => hfinish [t]
  · exact (hG.one .target rfl).bind fun t => (hfinish _).after (folds_withField _)

/-- A loop over something. -/
theorem lays_forEach : LaysOne source [] (Statement.forEach G) := by
  unfold Statement.forEach
  refine (lays_keyword "for").bind fun word => (lays_keyword? "await").next fun await => ?_
  refine (lays_mark "(").next fun opening => (lays_eachHeader hG).next fun header => ?_
  refine (lays_mark ")").next fun closing => (lays_substatement hG .body).next fun body => ?_
  exact lays_branch (by simp) nofun

omit hG in
theorem lays_empty (f : Field) : LaysOne source [] (Statement.empty f) := by
  unfold Statement.empty
  exact (lays_mark ";").bind fun mark => lays_branchAs rfl nofun

/-- Each part of the header is a semicolon alone, or an expression with one after it. -/
theorem lays_forThree : LaysOne source [] (Statement.forThree G) := by
  unfold Statement.forThree
  refine (lays_keyword "for").bind fun word => (lays_mark "(").next fun opening => ?_
  refine .look fun cs => ?_
  extract_lets finish
  have hfinish : ∀ start, LaysOne source ([word, opening] ++ start) (finish start) := by
    intro start
    refine .look fun endless => ?_
    -- what is left once the condition is read, and below once the step is
    extract_lets close
    have hclose : ∀ test, LaysOne source ([word, opening] ++ start ++ test) (close test) := by
      intro test
      refine .look fun still => ?_
      extract_lets give
      have hgive : ∀ step,
          LaysOne source ([word, opening] ++ start ++ test ++ step) (give step) := by
        intro step
        refine (lays_mark ")").next fun closing => (lays_substatement hG .body).next fun body => ?_
        exact lays_branch (by simp) nofun
      refine .ite ((hgive []).after (folds_of_shape (by simp))) ?_
      refine (hG.sub (.expressions .inner) rfl).next fun step => ?_
      exact (hgive _).after (folds_of_shape (by simp))
    refine .ite ((lays_empty .condition).next fun test => hclose [test]) ?_
    refine (hG.sub (.expressions .inner) rfl).next fun test => (lays_mark ";").next fun mark => ?_
    exact (hclose _).after (folds_of_shape (by simp))
  refine .ite ((lays_empty .initializer).next fun start => hfinish [start]) (.ite ?_ ?_)
  · exact (lays_bindings hG .header).next fun start => (hfinish _).after (folds_of_shape (by simp))
  · refine (hG.sub (.expressions .header) rfl).next fun start => (lays_mark ";").next fun mark => ?_
    exact (hfinish _).after (folds_of_shape (by simp))

theorem lays_while : LaysOne source [] (Statement.while_ G) := by
  unfold Statement.while_
  refine (lays_keyword "while").bind fun word => (lays_condition hG .condition).next fun test => ?_
  exact (lays_substatement hG .body).next fun body => lays_branch rfl nofun

/-- A loop that ends with its condition. -/
theorem lays_do : LaysOne source [] (Statement.do_ G) := by
  unfold Statement.do_
  refine (lays_keyword "do").bind fun word => (lays_substatement hG .body).next fun body => ?_
  refine (lays_keyword "while").next fun again => (lays_condition hG .condition).next fun test => ?_
  extract_lets parts
  refine (lays_passMissing _).bind fun missing => .ite (lays_branchTo (.refl _)) ?_
  exact (lays_mark? ";").next fun last => lays_branch rfl nofun

/-- A statement with a handler, a last part, or both. -/
theorem lays_try : LaysOne source [] (Statement.try_ G) := by
  unfold Statement.try_
  refine (lays_keyword "try").bind fun word => (lays_body hG false).next fun body => ?_
  refine .look fun caught => ?_
  extract_lets finish
  -- with a handler or without one, the last part may follow
  -- whatever the handler, the last body is read behind it
  have hfinish : ∀ handler, LaysOne source ([word, body] ++ handler) (finish handler) := by
    intro handler
    refine .look fun final => ?_
    extract_lets close
    have hclose : ∀ finalizer,
        LaysOne source ([word, body] ++ handler ++ finalizer) (close finalizer) :=
      fun finalizer => lays_branch rfl nofun
    refine .ite ?_ ((hclose []).after (folds_of_shape (by simp)))
    refine (lays_keyword "finally").next fun last => (lays_body hG false).next fun body => ?_
    refine (hclose _).after (Folds.tail (folds_branchAs (.refl [last, body]) nofun) ?_)
    simp
  refine .ite ?_ (hfinish [])
  refine (lays_keyword "catch").next fun again => .look fun named => ?_
  extract_lets handle
  -- the clause of the handler takes the place of its keyword, its parameter and its body
  have hhandle : ∀ parameter,
      LaysOne source ([word, body] ++ again :: parameter) (handle parameter) := by
    intro parameter
    refine (lays_body hG false).next fun inner => ?_
    extract_lets clause
    have hclause : Folds (again :: parameter ++ [inner]) [clause.withField .handler] :=
      folds_branchAs (.refl _) nofun
    exact (hfinish _).after (hclause.tail (by simp))
  refine .ite ?_ (hhandle [])
  refine (lays_mark "(").next fun opening => (lays_binding hG).next fun bound => ?_
  extract_lets name
  refine (lays_clause? hG false).next fun type => (lays_mark ")").next fun closing => ?_
  exact (hhandle _).after (folds_of_shape (by simp [name]))

theorem lays_with : LaysOne source [] (Statement.with_ G) := by
  unfold Statement.with_
  refine (lays_keyword "with").bind fun word => (lays_condition hG .object).next fun object => ?_
  exact (lays_substatement hG .body).next fun body => lays_branch rfl nofun

omit hG in
/-- A jump, possibly to a label. -/
theorem lays_jump (G : Grammar) (w : String) (kind : Kind) :
    LaysOne source [] (Statement.jump G w kind) := by
  unfold Statement.jump
  refine (lays_keyword w).bind fun word => .look fun ends => .look fun named => ?_
  extract_lets finish
  have hfinish : ∀ label, LaysOne source (word :: label) (finish label) :=
    fun label => lays_statement _ rfl
  refine .ite ((lays_anyWord _).next fun label => ?_) (hfinish [])
  exact (hfinish _).after (folds_of_shape (by simp))

/-- A return, possibly with a value. -/
theorem lays_return : LaysOne source [] (Statement.return_ G) := by
  unfold Statement.return_
  refine (lays_keyword "return").bind fun word => .look fun ends => .look fun stops => ?_
  refine .ite (lays_statement _ rfl) ?_
  exact (hG.sub (.expressions .statement) rfl).next fun value => lays_statement _ rfl

theorem lays_throw : LaysOne source [] (Statement.throw_ G) := by
  unfold Statement.throw_
  refine (lays_keyword "throw").bind fun word => ?_
  exact (hG.sub (.expressions .statement) rfl).next fun value => lays_statement _ rfl

theorem lays_expressionStatement : LaysOne source [] (Statement.expression G) := by
  unfold Statement.expression
  exact (hG.sub (.expressions .statement) rfl).bind fun value => lays_statement _ rfl

/-- A label and its statement. -/
theorem lays_labeled : LaysOne source [] (Statement.labeled G) := by
  unfold Statement.labeled
  refine (lays_anyWord _).bind fun label => (lays_mark ":").next fun colon => ?_
  exact (lays_substatement hG .body).next fun body => lays_branch (by simp) nofun

theorem lays_abstractClass (decorators : List Tree) :
    LaysOne source decorators (Statement.abstractClass G decorators) := by
  unfold Statement.abstractClass
  exact (lays_keyword "abstract").next fun word => lays_classOf hG _ _

/-- A declaration, by the word that it starts with. -/
theorem lays_declaration : LaysOne source [] (Statement.declaration G) := by
  unfold Statement.declaration
  refine .look fun cs => ?_
  extract_lets finish
  have hfinish : ∀ t, LaysOne source [t] (finish t) :=
    fun t => .ite lays_fail (lays_pure (.refl _))
  refine .ite ((lays_functionDeclaration hG).bind hfinish)
    (.ite ((lays_classOf hG _ []).bind hfinish)
      (.ite ?_ (Lays.bind (hG.one .statement rfl) hfinish)))
  refine (hG.sub .decorators rfl).bind fun decorators => ?_
  exact (lays_classOf hG _ decorators).bind hfinish

/-- A declaration that is exported as the standard one; it may lack a name. -/
theorem lays_standardDeclaration : LaysOne source [] (Statement.standardDeclaration G) := by
  unfold Statement.standardDeclaration
  refine .look fun cs => .ite ?_ (lays_declaration hG)
  exact (lays_classOf hG _ []).bind fun t => .ite (lays_pure (.refl _)) lays_fail

/-- An export, by what follows its word. -/
theorem lays_exportStatement (decorators : List Tree) :
    LaysOne source decorators (Statement.exportStatement G decorators) := by
  unfold Statement.exportStatement
  refine (lays_keyword "export").next fun word => ?_
  extract_lets before declared
  have hdeclared : LaysOne source before declared :=
    (lays_declaration hG).next fun t => lays_branch (by simp) (by simp)
  refine .look fun cs => .ite (lays_exportAll hG before) (.ite (lays_exportNames hG before) ?_)
  refine .ite (lays_exportStandard hG before (lays_standardDeclaration hG) _) ?_
  exact hG.ite (.ite hdeclared lays_fail)

/-! ## All statements -/

/-- A statement that starts with a brace: a block, or an expression that starts with an object. The
reader tries both and takes the one that gets further, so the proof follows the outcome. -/
theorem lays_braces : LaysOne source [] (Statement.braces G) := by
  intro lo c t d hc hrow h
  rcases braces_eq_ok h with h | h
  · exact lays_block hG false lo c t d hc hrow h
  · exact lays_expressionStatement hG lo c t d hc hrow h

/-- A statement that starts with a word, by the word. -/
theorem lays_ofWord (cs : List Char) (w : String) :
    LaysOne source [] (Statement.ofWord G cs w) := by
  have hbindings := lays_bindings hG .statement
  have hexpression := lays_expressionStatement hG
  unfold Statement.ofWord
  -- one branch for every word that begins a statement, in the order of the rule
  refine .ite hbindings (.ite (hG.ite hbindings) (.ite hbindings
    (.ite (lays_functionDeclaration hG) (.ite (.either ?_ hexpression) (.ite (lays_if hG)
    (.ite (.either (lays_forEach hG) (lays_forThree hG)) (.ite (lays_while hG)
    (.ite (lays_do hG) (.ite (lays_switch hG) (.ite (lays_try hG) (.ite (lays_with hG)
    (.ite (lays_jump G _ _) (.ite (lays_jump G _ _) (.ite ?_ (.ite (lays_return hG)
    (.ite (lays_throw hG) (.ite ?_ (.ite (lays_exportStatement hG [])
    ?_))))))))))))))))))
  · -- a class, which must have a name here
    refine (lays_classOf hG _ []).bind fun t => .ite ?_ lays_fail
    exact (lays_passMissing _).bind fun _ => lays_pure (.refl _)
  · exact (lays_keyword "debugger").bind fun word => lays_statement _ rfl
  · exact .ite hexpression (lays_importStatement hG)
  · extract_lets plain
    have hplain : LaysOne source [] plain := .look fun _ => .ite (lays_labeled hG) hexpression
    rw [hG.untyped]
    exact hplain

/-- A statement, by its first character or word. Decorators come before a class, exported or not. -/
theorem lays_statement_ : LaysOne source [] (Statement.statement_ G) := by
  unfold Statement.statement_
  refine .look fun cs => .ite (lays_braces hG) (.ite ?_ (.ite ?_ (.ite (lays_ofWord hG _ _)
    (lays_expressionStatement hG))))
  · exact (lays_mark ";").bind fun mark => lays_branch rfl nofun
  · refine (hG.sub .decorators rfl).bind fun decorators => .look fun exported => ?_
    refine .ite (lays_exportStatement hG decorators) (.look fun abstract => ?_)
    exact .ite (lays_abstractClass hG decorators) (lays_classOf hG _ decorators)

/-- Statements, up to what ends them. -/
theorem lays_statements (ending : Ending) :
    LaysAll source [] (Statement.statements G ending) := by
  unfold Statement.statements
  refine .look fun cs => ?_
  extract_lets stop
  refine .ite (lays_pure (.refl _)) ?_
  exact LaysOne.cons (hG.one .statement rfl) (hG.sub (.statements ending) rfl)

/-! ## The rules tied together -/

/-- An item of a sequence, by the sequence. Those of types are not read here. -/
theorem lays_itemOf {sequence : Items} (h : sequence.isTyped = false) :
    LaysOne source [] (item G sequence) := by
  cases sequence with
  | elements => exact lays_item hG
  | arguments => exact lays_item hG
  | members => exact lays_objectMember hG
  | patternElements => exact lays_patternElement hG
  | patternMembers => exact lays_patternMember hG
  | parameters => exact lays_parameter hG
  | importSpecifiers => exact lays_specifier hG _
  | exportSpecifiers => exact lays_specifier hG _
  | typeParameters => cases h
  | typeArguments => cases h
  | enumMembers => cases h

/-- **Each rule continues a row if the goals below it do.** One case for each goal. -/
theorem lays_produce (g : Goal) (hg : g.isTyped = false) :
    LaysAll source g.before (produce G g) := by
  -- the goals that are read with types only do not come up
  cases g with
  | statement => exact LaysOne.single (lays_statement_ hG)
  | statements ending => exact lays_statements hG ending
  | declarators x => exact lays_declarators hG x
  | cases => exact lays_cases hG
  | classMembers => exact lays_classMembers hG
  | expressions x => exact lays_expressions hG x
  | commas x => exact lays_commas hG x
  | expression x => exact hG.sub (.climb x 1) rfl
  | climb x level => exact lays_climb hG x level
  | climbOn x level left => exact lays_climbOn hG x level left
  | operand x => exact LaysOne.single (lays_operand hG x)
  | constructed x => exact lays_constructed hG x
  | suffixes x calls base => exact lays_suffixes hG x calls base
  | items sequence => exact lays_itemsOf hG hg (lays_itemOf hG hg)
  | target => exact LaysOne.single (lays_target hG)
  | block operator => exact LaysOne.single (lays_block hG operator)
  | stringParts quote => exact lays_stringParts hG quote
  | templateParts => exact lays_templateParts hG
  | decorators => exact lays_decorators hG
  | modifiers words => exact lays_modifiers hG words
  | element => exact LaysOne.single (lays_element hG)
  | elementParts => exact lays_elementParts hG
  | attributes => exact lays_attributes hG
  | dotted base => exact lays_dotted hG base
  | type ends => cases hg
  | typeOn ends left => cases hg
  | typeSuffixes ends base => cases hg
  | typeList ends => cases hg
  | heritage => cases hg
  | balanced => cases hg

omit hG in
/-- **The grammar without types continues a row.** Induction on the depth: at no depth nothing is
read, and one more level is one step of the rules (`lays_produce`). -/
theorem orderly_readGoal (lenient : Bool) (depth : Nat) :
    Grammar.Orderly source ⟨false, lenient, readGoal false lenient depth⟩ := by
  induction depth with
  | zero =>
    -- at no depth nothing is read
    exact ⟨rfl, fun _ _ => lays_fail⟩
  | succ depth ih => exact ⟨rfl, fun g hg => lays_produce ih g hg⟩

end OptionTypes.Syntax
