import OptionTypes.Proofs.Grammar.Opening

/-!
# The rules of the grammar begin with their first token

A statement is read by a chain of rules, each of which begins with a token of its own or with
another rule. The tree begins with that token in any case: what is read afterwards becomes a child
further to the right, and the suffixes and operators after an operand wrap a tree around it that
begins where it does.

* `opens_statement_`: the rule of statements.
* `leading_readGoal`: every goal, read to any depth.
-/

namespace OptionTypes.Syntax

variable {G : Grammar}

/-! ## Literals -/

theorem opens_string : Opens Opening (Literal.string G) := by
  unfold Literal.string
  refine .peek fun cs => ?_
  split
  · refine .ite ((opens_leaf rfl 1).bind fun n opening hopening => ?_) opens_fail
    exact .next fun parts => gives_branch rfl hopening.head
  · exact opens_fail

theorem opens_template : Opens Opening (Literal.template G) := by
  unfold Literal.template
  refine .peek fun cs => .ite ((opens_leaf rfl 1).bind fun n opening hopening => ?_) opens_fail
  exact .next fun parts => gives_branch rfl hopening.head

/-- A regular expression begins with its slash. -/
theorem opens_regex : Opens Opening Literal.regex := by
  unfold Literal.regex
  refine .peek fun cs => ?_
  split
  · split
    · exact opens_fail
    · exact opens_fail
    · refine (opens_leaf rfl 1).bind fun n opening hopening => ?_
      refine .next fun body => .next fun closing => .next fun rest => ?_
      extract_lets flags finish
      -- with flags or without them
      have hfinish : ∀ tail, Gives (Opening n) (finish tail) :=
        fun tail => gives_branch rfl hopening.head
      exact .ite (hfinish []) (.next fun last => hfinish _)
  · exact opens_fail

theorem opens_number : Opens Opening Literal.number := by
  unfold Literal.number
  exact .peek fun cs => .ite opens_fail (opens_leaf rfl _)

/-! ## Names, patterns and parameters -/

theorem opens_privateName : Opens Opening Pattern.privateName := by
  unfold Pattern.privateName
  refine .peek fun cs => ?_
  split
  · exact .ite opens_fail (opens_leaf rfl _)
  · exact opens_fail

/-- A pattern begins with its brace or bracket. -/
theorem opens_destructuring : Opens Opening (Pattern.destructuring G) := by
  unfold Pattern.destructuring
  refine .peek fun braced => .ite ?_ ?_
  · refine (opens_mark "\x7b").bind fun n opening hopening => ?_
    exact .next fun items => .next fun closing => gives_branch rfl hopening.head
  · refine (opens_mark "[").bind fun n opening hopening => ?_
    exact .next fun items => .next fun closing => gives_branch rfl hopening.head

theorem opens_parameters : Opens Opening (Pattern.parameters G) := by
  unfold Pattern.parameters
  refine (opens_mark "(").bind fun n opening hopening => .next fun items => .next fun closing => ?_
  exact gives_pure ((opening_branch rfl hopening.head).withField _)

/-! ## Functions and classes -/

/-- A block begins with its brace. Its end may be at a missing node, which moves no start. -/
theorem opens_block (operator : Bool) : Opens Opening (Callable.block G operator) := by
  unfold Callable.block
  refine (opens_mark "\x7b").bind fun n opening hopening => .next fun inside => ?_
  refine .next fun closing => .next fun missing => .next fun stop => ?_
  exact gives_pure (opening_branchTo rfl hopening.head)

/-- A function begins with the word before it, if there is one, and with its own word otherwise. -/
theorem opens_head : Opens (fun n p => HeadAt n p.1) Callable.head := by
  unfold Callable.head
  refine (leads_keyword? "async").bind ?_ fun n async hasync => ?_
  · refine (opens_keyword "function").bind fun n word hword => .next fun star => ?_
    exact gives_pure hword.head
  · exact .next fun word => .next fun star => gives_pure hasync.append.append

/-- A function as an expression begins with its first word. -/
theorem opens_function : Opens Opening (Callable.expression G) := by
  unfold Callable.expression
  refine opens_head.bind fun n p hp => ?_
  obtain ⟨words, generator⟩ := p
  refine .next fun named => ?_
  extract_lets kind finish
  have hkind : isProper (.kind kind) = true := by cases generator <;> rfl
  have hfinish : ∀ name, Gives (Opening n) (finish name) := fun name =>
    .next fun parts => .next fun body => gives_branch hkind hp.append.append.append
  exact .ite (.next fun name => hfinish _) (hfinish [])

/-- A function as a statement begins with its first word. -/
theorem opens_declaration : Opens Opening (Callable.declaration G) := by
  unfold Callable.declaration
  refine opens_head.bind fun n p hp => ?_
  obtain ⟨words, generator⟩ := p
  refine .next fun name => ?_
  extract_lets name kind
  have hkind : isProper (.kind kind) = true := by cases generator <;> rfl
  refine .next fun parts => .next fun braced => .ite ?_ (.ite ?_ gives_fail)
  · exact .next fun body => gives_branch hkind hp.append.append.append
  · exact gives_statement rfl _ hp.append.append

section Leading

variable (hG : G.Leading)
include hG

/-- Without types there are no type parameters. -/
theorem leads_parameters? : Leads (TypeGrammar.parameters? G) := by
  unfold TypeGrammar.parameters?
  refine .peek fun cs => ?_
  rw [hG.untyped, Bool.false_and]
  exact leads_nil

/-- A signature begins with its parameters, since there are no type parameters before them. -/
theorem opens_signature (ends : Bool) : Opens HeadAt (Callable.signature G ends) := by
  unfold Callable.signature
  refine (leads_parameters? hG).bind ?_ fun n generics hgenerics => ?_
  · refine opens_parameters.bind fun n formals hformals => .next fun result => ?_
    exact gives_pure hformals.head
  · exact .next fun formals => .next fun result => gives_pure hgenerics.append.append

/-- An arrow function begins with what was read before it, or with its parameters. -/
theorem extends_arrow (x : Context) (async : List Tree) :
    Extends async (Callable.arrow G x async) := by
  unfold Callable.arrow
  exact (opens_signature hG false).extendAll fun n parts h => .next fun body =>
    gives_branch rfl h.append

omit hG in
/-- An arrow function of one name begins with what was read before it, or with that name. -/
theorem extends_arrowOfName (x : Context) (async : List Tree) :
    Extends async (Callable.arrowOfName G x async) := by
  unfold Callable.arrowOfName
  refine (opens_anyWord rfl).extend fun n name h => .next fun body => gives_branch rfl ?_
  exact (headAt_append_withField.mpr h).append

omit hG in
/-- A decorator begins with its sign. -/
theorem opens_decorator : Opens Opening (Callable.decorator G) := by
  unfold Callable.decorator
  refine (opens_part "@").bind fun n sign hsign => .next fun called => ?_
  extract_lets finish
  -- whatever it names or calls
  have hfinish : ∀ subject, Gives (Opening n) (finish subject) := fun subject =>
    gives_pure ((opening_branch rfl hsign.head).withField _)
  refine .ite ?_ ?_
  · exact .next fun opening => .next fun inner => .next fun closing => hfinish _
  · refine .next fun name => .next fun whole => .next fun cs => .ite ?_ (hfinish whole)
    exact .next fun opening => .next fun items => .next fun closing => hfinish _

omit hG in
/-- Decorators begin with the sign of the first one, if there are any. -/
theorem leads_decorators : Leads (Callable.decorators G) := by
  unfold Callable.decorators
  refine .peek fun cs => .ite (Opens.leads ?_) leads_nil
  exact opens_decorator.bind fun n first hfirst => .next fun rest => gives_pure hfirst.head

omit hG in
/-- A class begins with what was read before it, or with its word. -/
theorem extends_classOf {kind : Kind} (hkind : isProper (.kind kind) = true)
    (before : List Tree) : Extends before (Callable.classOf G kind before) := by
  unfold Callable.classOf
  refine (opens_keyword "class").extend fun n word hword => .next fun cs => ?_
  extract_lets named finish
  have hfinish : ∀ name, Gives (Opening n) (finish name) := fun name =>
    .next fun generics => .next fun clauses => .next fun opening => .next fun members =>
      .next fun closing => gives_branch hkind hword.append.append.append.append
  exact .ite (.next fun name => hfinish _) (hfinish [])

/-! ## Elements -/

omit hG in
/-- An element begins with its first mark. -/
theorem opens_element : Opens Opening (Element.element G) := by
  unfold Element.element
  refine (opens_part "<").bind fun n opening hopening => .next fun cs => ?_
  extract_lets finish
  -- the attributes and the end of the tag come after that mark in any case
  have hfinish : ∀ tag, Gives (Opening n) (finish tag) := by
    intro tag
    refine .next fun attributes => .next fun cs => .ite ?_ ?_
    · exact .next fun slash => .next fun closing => gives_branch rfl hopening.head
    · refine .next fun closing => ?_
      extract_lets first
      have hfirst : Opening n first := opening_branch rfl hopening.head
      refine .next fun inside => .next fun less => .next fun slash => .next fun cs => ?_
      extract_lets finish
      have hfinish : ∀ name, Gives (Opening n) (finish name) := fun name =>
        .next fun last => gives_branch rfl (hfirst.withField _).head
      exact .ite (hfinish []) (.next fun name => hfinish _)
  exact .ite (hfinish []) (.next fun name => hfinish _)

/-! ## Operators -/

omit hG in
theorem opens_operatorLeaf (text : String) (n : Nat) :
    Opens Opening (Expression.operatorLeaf text n) := by
  unfold Expression.operatorLeaf
  exact (opens_leaf rfl n).bind fun n sign hsign => gives_pure (hsign.withField _)

omit hG in
/-- A choice begins with its condition. -/
theorem gives_ternary (x : Context) {condition : Tree} {n : Nat} (h : Opening n condition) :
    Gives (Opening n) (Expression.ternary G x condition) := by
  unfold Expression.ternary
  refine .next fun question => .next fun yes => .next fun colon => .next fun no => ?_
  exact gives_branch rfl (h.withField _).head

/-- Operators wrap a tree around their left operand. -/
theorem gives_climbOn (x : Context) (level : Nat) {left : Tree} {n : Nat} (h : Opening n left) :
    Gives (OneAt n) (Expression.climbOn G x level left) := by
  have hleft : Gives (OneAt n) (pure [left]) := gives_pure (oneAt_singleton h)
  unfold Expression.climbOn
  refine .next fun stop => .ite hleft (.next fun cs => ?_)
  -- an operator of two operands, or a choice between two, or the end of the expression
  split
  · refine .ite hleft (.next fun sign => .next fun right => ?_)
    exact hG.onward (.climbOn x level _) _ n rfl (opening_branch rfl (h.withField _).head)
  · refine .ite ((gives_ternary x h).bind fun whole hwhole => ?_) ?_
    · exact hG.onward (.climbOn x level _) _ n rfl hwhole
    · simp only [hG.untyped, Bool.false_and, Bool.false_eq_true, if_false]
      exact hleft

/-- An operand and the operators after it begin with the operand. -/
theorem opens_climb (x : Context) (level : Nat) : Opens OneAt (Expression.climb G x level) := by
  unfold Expression.climb
  refine (hG.one (.operand x) rfl).bind fun n left hleft => ?_
  exact hG.onward (.climbOn x level left) left n rfl hleft

/-- Expressions begin with the first of them, as one node or alone. -/
theorem opens_expressions (x : Context) : Opens OneAt (Expression.expressions G x) := by
  unfold Expression.expressions
  refine (hG.one (.expression x) rfl).bind fun n first hfirst => .next fun more => .ite ?_ ?_
  · exact gives_pure (oneAt_singleton hfirst)
  · exact gives_pure (oneAt_singleton (opening_branch rfl hfirst.head))

/-! ## Operands -/

omit hG in
theorem opens_parentheses : Opens Opening (Expression.parentheses G) := by
  unfold Expression.parentheses
  refine (opens_mark "(").bind fun n opening hopening => .next fun inside => ?_
  exact .next fun type => .next fun closing => gives_branch rfl hopening.head

/-- An arrow function with nothing before it begins with its parameters. -/
theorem opens_arrow (x : Context) : Opens Opening (Callable.arrow G x []) :=
  (extends_arrow hG x []).opens rfl

omit hG in
theorem opens_arrowOfName (x : Context) : Opens Opening (Callable.arrowOfName G x []) :=
  (extends_arrowOfName x []).opens rfl

/-- What starts with a parenthesis begins there, whichever of the two readings is taken. -/
theorem opens_parenthesesOrArrow (x : Context) :
    Opens Opening (Expression.parenthesesOrArrow G x) := by
  -- an arrow after parentheses takes them for its parameters
  let choose : Option (Tree × Cursor) → Option (Tree × Cursor) → Option (Tree × Cursor) :=
    fun inside arrow =>
      if inside.all fun p => Reader.startsWithMark "=>" p.2.skip.rest then arrow else inside
  refine .choice choose (fun inside arrow => ?_) (fun c => ?_) (opens_parentheses (G := G))
    (opens_arrow hG x)
  · unfold choose
    split
    · exact .inr rfl
    · exact .inl rfl
  · unfold choose Expression.parenthesesOrArrow
    cases Expression.parentheses G c with
    | ok p =>
      simp only [hG.untyped, Bool.false_and, Bool.false_eq_true, if_false]
      show _ = if Reader.startsWithMark "=>" p.2.skip.rest = true then _ else _
      split
      · rfl
      · rfl
    | error stuck =>
      cases Callable.arrow G x [] c with
      | ok p => rfl
      | error stuck' => rfl

omit hG in
/-- A name, or an arrow function of that name. -/
theorem opens_nameOrArrow (x : Context) : Opens Opening (Expression.nameOrArrow G x) := by
  have harrow : Opens (fun _ _ => True) (do
      let _ ← Reader.anyWord .identifier
      Reader.mark "=>") := (opens_anyWord rfl).bind fun _ _ _ => gives_any
  unfold Expression.nameOrArrow
  exact harrow.test fun _ => .ite (opens_arrowOfName x) (opens_anyWord rfl)

/-- What starts with the word for asynchronous functions begins with it, be it the word of one or a
name. -/
theorem opens_async (x : Context) : Opens Opening (Expression.async G x) := by
  -- whatever is tried out begins with the word
  have htest : ∀ {α : Type} (f : Tree → Reader α),
      Opens (fun _ _ => True) (Reader.keyword "async" >>= f) :=
    fun f => (opens_keyword "async").bind fun _ _ _ => gives_any
  have hname := opens_nameOrArrow (G := G) x
  unfold Expression.async
  extract_lets name word
  refine (htest _).test fun begins => .ite ?_ hname
  refine (htest _).test fun called => .ite opens_function ?_
  refine (htest _).test fun plain => .ite ?_ ?_
  · exact (opens_keyword "async").bind fun n word hword =>
      (extends_arrowOfName x [word]).gives n hword.head
  · refine (htest _).test fun opened => .ite (.either ?_ hname) hname
    exact (opens_keyword "async").bind fun n word hword =>
      (extends_arrow hG x [word]).gives n hword.head

omit hG in
/-- A construction begins with its word. -/
theorem opens_new (x : Context) : Opens Opening (Expression.new G x) := by
  unfold Expression.new
  refine (opens_keyword "new").bind fun n word hword => .next fun dotted => .ite ?_ ?_
  · exact .next fun dot => .next fun target => gives_branch rfl hword.head
  · refine .next fun base => ?_
    extract_lets base finish
    have hfinish : ∀ generics, Gives (Opening n) (finish generics) := fun generics =>
      .next fun called => .ite (.next fun items => gives_branch rfl hword.head)
        (gives_branch rfl hword.head)
    refine .next fun cs => .ite (.next fun args => ?_) (hfinish [])
    split
    · exact hfinish _
    · exact hfinish []

omit hG in
theorem opens_importing : Opens Opening Expression.importing := by
  unfold Expression.importing
  refine (opens_keyword "import").bind fun n word hword => .next fun dotted => .ite ?_ ?_
  · exact .next fun dot => .next fun known => gives_branch rfl hword.head
  · exact .next fun called => .ite (gives_pure (hword.withKind rfl)) gives_fail

/-- An operand that starts with a word begins with it. -/
theorem opens_wordPrimary (x : Context) (w : String) :
    Opens Opening (Expression.wordPrimary G x w) := by
  unfold Expression.wordPrimary
  split
  next name kind hfound =>
    have hkinds : ∀ p ∈ Expression.wordKinds, isProper (.kind p.2) = true := by decide
    exact opens_leaf (hkinds _ (List.mem_of_find?_eq_some hfound)) _
  next =>
    refine .ite opens_function (.ite ?_ (.ite (opens_new x) (.ite opens_importing ?_)))
    · exact (extends_classOf rfl []).opens rfl
    · exact .ite (opens_async hG x) (opens_nameOrArrow x)

/-- What starts with an angle bracket is an element where there are no types. -/
theorem opens_angled (x : Context) : Opens Opening (Expression.angled G x) := by
  unfold Expression.angled
  exact hG.opens_ite (hG.one .element rfl)

omit hG in
theorem opens_array : Opens Opening (Expression.array G) := by
  unfold Expression.array
  refine (opens_mark "[").bind fun n opening hopening => ?_
  exact .next fun items => .next fun closing => gives_branch rfl hopening.head

omit hG in
theorem opens_object : Opens Opening (Expression.object G) := by
  unfold Expression.object
  refine (opens_mark "\x7b").bind fun n opening hopening => ?_
  exact .next fun members => .next fun closing => gives_branch rfl hopening.head

/-- A decorated class begins with its first decorator. -/
theorem opens_decorated : Opens Opening (Expression.decorated G) := by
  unfold Expression.decorated
  exact hG.decorators.extend fun decorators => extends_classOf rfl decorators

/-- An operand without suffixes and signs, by its first character. -/
theorem opens_primary (x : Context) : Opens Opening (Expression.primary G x) := by
  unfold Expression.primary
  refine .peek fun cs => ?_
  split
  · exact opens_fail
  · refine .ite (opens_parenthesesOrArrow hG x) (.ite opens_array (.ite opens_object ?_))
    refine .ite opens_string (.ite opens_template (.ite opens_regex (.ite ?_ ?_)))
    · exact opens_angled hG x
    · refine .ite opens_privateName (.ite (opens_decorated hG) (.ite ?_ opens_number))
      exact opens_wordPrimary hG x _

/-! ## Suffixes -/

/-- What has a suffix for what may be missing begins with its base. -/
theorem gives_optionalSuffix {base : Tree} {n : Nat} (h : Opening n base) :
    Gives (Opening n) (Expression.optionalSuffix G base) := by
  have hhead : ∀ (f : Field) (ts : List Tree), HeadAt n (base.withField f :: ts) :=
    fun f _ => (h.withField f).head
  unfold Expression.optionalSuffix
  refine .next fun chain => .next fun indexed => .ite ?_ ?_
  · exact .next fun index => gives_branch rfl (hhead _ _)
  · refine .next fun called => .ite ?_ (.next fun cs => hG.gives_ite_and ?_)
    · exact .next fun items => gives_branch rfl (hhead _ _)
    · exact .next fun name => gives_branch rfl (hhead _ _)

/-- A suffix wraps a tree around its base. -/
theorem gives_suffix? (calls : Bool) {base : Tree} {n : Nat} (h : Opening n base) :
    Gives (fun whole => ∀ t, whole = some t → Opening n t)
      (Expression.suffix? G calls base) := by
  have hsome : ∀ {t : Tree}, Opening n t →
      Gives (fun whole => ∀ t, whole = some t → Opening n t) (pure (some t)) := by
    intro t ht
    refine gives_pure ?_
    rintro _ ⟨⟩
    exact ht
  have hhead : ∀ (f : Field) (ts : List Tree), HeadAt n (base.withField f :: ts) :=
    fun f _ => (h.withField f).head
  unfold Expression.suffix?
  refine .next fun cs => .ite ?_ (.ite ?_ (.ite ?_ (.ite ?_ (.ite ?_ (.ite ?_ ?_)))))
  · exact .next fun dot => .next fun name => hsome (opening_branch rfl (hhead _ _))
  · exact (gives_optionalSuffix hG h).bind fun whole hwhole => hsome hwhole
  · exact .next fun index => hsome (opening_branch rfl (hhead _ _))
  · exact .next fun items => hsome (opening_branch rfl (hhead _ _))
  · exact .next fun template => hsome (opening_branch rfl (hhead _ _))
  · exact .next fun operator => hsome (opening_branch rfl (hhead _ _))
  · simp only [hG.untyped, Bool.false_and, Bool.false_eq_true, if_false]
    exact gives_pure nofun

/-- An operand with suffixes begins with its base: each of them wraps a tree around what comes
before it. -/
theorem gives_suffixes (x : Context) (calls : Bool) {base : Tree} {n : Nat}
    (h : Opening n base) : Gives (OneAt n) (Expression.suffixes G x calls base) := by
  have hbase : Gives (OneAt n) (pure [base]) := gives_pure (oneAt_singleton h)
  unfold Expression.suffixes
  refine .next fun stop => .ite hbase ((gives_suffix? hG calls h).bind fun found hfound => ?_)
  split
  next whole => exact hG.onward (.suffixes x calls whole) whole n rfl (hfound whole rfl)
  next => exact hbase

/-! ## Assignments and unary operators -/

omit hG in
/-- An assignment begins with its left side. -/
theorem gives_assignment (x : Context) {left : Tree} {n : Nat} (h : Opening n left) :
    Gives (Opening n) (Expression.assignment G x left) := by
  unfold Expression.assignment
  refine .next fun cs => .ite (gives_pure h) (.ite ?_ ?_)
  · exact .next fun sign => .next fun right => gives_branch rfl (h.withField _).head
  · split
    · exact gives_pure h
    · exact .next fun operator => .next fun right => gives_branch rfl (h.withField _).head

omit hG in
/-- An assignment to a pattern begins with the pattern. -/
theorem opens_patternAssignment (x : Context) :
    Opens Opening (Expression.patternAssignment G x) := by
  unfold Expression.patternAssignment
  refine opens_destructuring.bind fun n left hleft => .next fun sign => .next fun right => ?_
  exact gives_branch rfl (hleft.withField _).head

/-- An operand that may be assigned to begins with its primary, whichever reading is taken. -/
theorem opens_assignable (x : Context) : Opens Opening (Expression.assignable G x) := by
  unfold Expression.assignable
  extract_lets plain value
  have hplain : Opens Opening plain := by
    -- the primary comes first: its suffixes and the assignment wrap it
    refine (opens_primary hG x).bind fun n base hbase => ?_
    refine (hG.oneFrom (.suffixes x true base) rfl hbase).bind fun whole hwhole => ?_
    exact gives_assignment x hwhole
  have hvalue : Opens Opening value :=
    hplain.bind fun n t ht => .next fun assigned => .ite gives_fail (gives_pure ht)
  exact .peek fun opened => .ite (.either hvalue (opens_patternAssignment x)) hplain

omit hG in
/-- An operand with a sign begins with the sign. -/
theorem opens_unary (x : Context) {kind : Kind} (hkind : isProper (.kind kind) = true)
    (operator : String) : Opens Opening (Expression.unary G x kind operator) := by
  unfold Expression.unary
  exact (opens_operatorLeaf operator _).bind fun n sign hsign => .next fun argument =>
    gives_branch hkind hsign.head

omit hG in
/-- A yield begins with its word. -/
theorem opens_yield (x : Context) : Opens Opening (Expression.yield_ G x) := by
  unfold Expression.yield_
  refine (opens_keyword "yield").bind fun n word hword => .next fun ends => ?_
  have hbranch : ∀ ts, Gives (Opening n) (pure (Reader.branch .yieldExpression (word :: ts))) :=
    fun ts => gives_branch rfl hword.head
  refine .ite (hbranch []) (.next fun starred => .ite ?_ (.next fun cs => .ite ?_ (hbranch [])))
  · exact .next fun star => .next fun value => hbranch _
  · exact .next fun value => hbranch _

/-- An operand, by its first character or word. -/
theorem opens_operand (x : Context) : Opens Opening (Expression.operand G x) := by
  unfold Expression.operand
  refine .peek fun cs => .ite ?_ ?_
  · refine .ite (opens_unary x rfl _) (.ite ?_ (.ite (opens_yield x) (opens_assignable hG x)))
    exact (opens_keyword "await").bind fun n word hword => .next fun argument =>
      gives_branch rfl hword.head
  · split
    · exact opens_unary x rfl _
    · exact .ite (opens_unary x rfl _) (.ite (opens_unary x rfl _) (opens_assignable hG x))

/-! ## Imports and exports -/

/-- An import begins with its word, whatever is imported. -/
theorem opens_importStatement : Opens Opening (Module.importStatement G) := by
  unfold Module.importStatement
  refine (opens_keyword "import").bind fun n word hword => ?_
  extract_lets finish plain restricted
  have hfinish : ∀ parts, HeadAt n parts → Gives (Opening n) (finish parts) :=
    fun parts hparts => .next fun attributes => gives_statement rfl _ hparts.append
  -- with the word for types behind it or without
  have hplain : ∀ before, HeadAt n before → Gives (Opening n) (plain before) :=
    fun before hbefore => .next fun clause => .next fun source =>
      hfinish _ hbefore.append.append
  refine .next fun cs => .ite (.next fun source => hfinish _ hword.head) ?_
  exact hG.gives_ite (hplain [word] hword.head)

omit hG in
/-- An export of all names begins with its word. -/
theorem gives_exportAll {before : List Tree} {n : Nat} (h : HeadAt n before) :
    Gives (Opening n) (Module.exportAll G before) := by
  unfold Module.exportAll
  refine .next fun star => .next fun renamed => ?_
  extract_lets finish
  have hfinish : ∀ all, Gives (Opening n) (finish all) := fun all =>
    .next fun source => .next fun attributes => gives_statement rfl _ h.append.append.append
  exact .ite (.next fun word => .next fun name => hfinish _) (hfinish _)

omit hG in
/-- An export of names between braces begins with its word. -/
theorem gives_exportNames {before : List Tree} {n : Nat} (h : HeadAt n before) :
    Gives (Opening n) (Module.exportNames G before) := by
  unfold Module.exportNames
  refine .next fun clause => .next fun source => .next fun attributes => ?_
  exact gives_statement rfl _ h.append.append.append

omit hG in
/-- The standard export begins with its word. -/
theorem gives_exportStandard {before : List Tree} {n : Nat} (declaration : Reader Tree)
    (declares : List Char → Bool) (h : HeadAt n before) :
    Gives (Opening n) (Module.exportStandard G before declaration declares) := by
  unfold Module.exportStandard
  refine .next fun word => ?_
  extract_lets value
  have hvalue : Gives (Opening n) value := .next fun t => gives_statement rfl _ h.append
  exact .next fun cs => .ite (.either (.next fun t => gives_branch rfl h.append) hvalue) hvalue

/-! ## Declarations of names -/

omit hG in
/-- The word that declares names decides the kind of the statement, which is a proper one. -/
theorem opens_declaringWord :
    Opens (fun n p => Opening n p.1 ∧ isProper (.kind p.2) = true) Statement.declaringWord := by
  unfold Statement.declaringWord
  refine .peek fun cs => .ite ?_ (.ite ?_ ?_)
  · exact (opens_keyword "var").bind fun n word hword => gives_pure ⟨hword, rfl⟩
  · exact (opens_keyword "let").bind fun n word hword => gives_pure ⟨hword.withField _, rfl⟩
  · exact (opens_keyword "const").bind fun n word hword => gives_pure ⟨hword.withField _, rfl⟩

omit hG in
/-- A declaration of names begins with its word. -/
theorem opens_bindings (x : Context) : Opens Opening (Statement.bindings G x) := by
  unfold Statement.bindings
  refine opens_declaringWord.bind fun n p hp => .next fun names => .ite ?_ ?_
  · exact gives_statement hp.2 _ hp.1.head
  · exact .next fun last => gives_branch hp.2 hp.1.head

/-! ## Control flow -/

omit hG in
theorem opens_if : Opens Opening (Statement.if_ G) := by
  unfold Statement.if_
  refine (opens_keyword "if").bind fun n word hword => .next fun test => .next fun yes => ?_
  refine .next fun more => .ite ?_ (gives_branch rfl hword.head)
  exact .next fun other => .next fun no => gives_branch rfl hword.head

omit hG in
theorem opens_switch : Opens Opening (Statement.switch G) := by
  unfold Statement.switch
  refine (opens_keyword "switch").bind fun n word hword => .next fun value => ?_
  refine .next fun opening => .next fun cases => .next fun closing => ?_
  exact gives_branch rfl hword.head

omit hG in
theorem opens_forEach : Opens Opening (Statement.forEach G) := by
  unfold Statement.forEach
  refine (opens_keyword "for").bind fun n word hword => .next fun await => ?_
  refine .next fun opening => .next fun header => .next fun closing => .next fun body => ?_
  exact gives_branch rfl hword.head

omit hG in
/-- A loop with three parts in its header begins with its word. -/
theorem opens_forThree : Opens Opening (Statement.forThree G) := by
  unfold Statement.forThree
  refine (opens_keyword "for").bind fun n word hword => .next fun opening => .next fun cs => ?_
  -- the three parts of the header one after the other, each of which may be left out
  extract_lets afterStart
  have hstart : ∀ start, Gives (Opening n) (afterStart start) := by
    intro start
    refine .next fun untested => ?_
    extract_lets afterTest
    have htest : ∀ test, Gives (Opening n) (afterTest test) := by
      intro test
      refine .next fun stepless => ?_
      extract_lets afterStep
      have hstep : ∀ step, Gives (Opening n) (afterStep step) := fun step =>
        .next fun closing => .next fun body => gives_branch rfl hword.head
      exact .ite (hstep []) (.next fun step => hstep _)
    exact .ite (.next fun test => htest _) (.next fun inside => .next fun last => htest _)
  refine .ite (.next fun start => hstart _) (.ite (.next fun names => hstart _) ?_)
  exact .next fun inside => .next fun last => hstart _

omit hG in
theorem opens_while : Opens Opening (Statement.while_ G) := by
  unfold Statement.while_
  exact (opens_keyword "while").bind fun n word hword => .next fun test => .next fun body =>
    gives_branch rfl hword.head

omit hG in
/-- A loop that ends with its condition begins with its word. -/
theorem opens_do : Opens Opening (Statement.do_ G) := by
  unfold Statement.do_
  refine (opens_keyword "do").bind fun n word hword => .next fun body => .next fun again => ?_
  refine .next fun test => .next fun missing => .ite ?_ ?_
  · exact .next fun stop => gives_pure (opening_branchTo rfl hword.head)
  · exact .next fun last => gives_branch rfl hword.head

omit hG in
/-- A statement with a handler begins with its word. -/
theorem opens_try : Opens Opening (Statement.try_ G) := by
  unfold Statement.try_
  refine (opens_keyword "try").bind fun n word hword => .next fun body => .next fun caught => ?_
  extract_lets afterHandler
  -- the last part comes after the handler, if there is one
  have hhandler : ∀ handler, Gives (Opening n) (afterHandler handler) := by
    intro handler
    refine .next fun final => ?_
    extract_lets finish
    have hfinish : ∀ finalizer, Gives (Opening n) (finish finalizer) :=
      fun finalizer => gives_branch rfl hword.head
    exact .ite (.next fun word => .next fun body => hfinish _) (hfinish [])
  refine .ite (.next fun word => .next fun bound => ?_) (hhandler [])
  extract_lets afterParameter
  have hparameter : ∀ parameter, Gives (Opening n) (afterParameter parameter) :=
    fun parameter => .next fun body => hhandler _
  refine .ite (.next fun opening => .next fun name => ?_) (hparameter [])
  exact .next fun type => .next fun closing => hparameter _

omit hG in
theorem opens_with : Opens Opening (Statement.with_ G) := by
  unfold Statement.with_
  exact (opens_keyword "with").bind fun n word hword => .next fun object => .next fun body =>
    gives_branch rfl hword.head

omit hG in
/-- A jump begins with its word, with a label or without. -/
theorem opens_jump (w : String) {kind : Kind} (hkind : isProper (.kind kind) = true) :
    Opens Opening (Statement.jump G w kind) := by
  unfold Statement.jump
  refine (opens_keyword w).bind fun n word hword => .next fun ends => .next fun named => ?_
  extract_lets finish
  have hfinish : ∀ label, Gives (Opening n) (finish label) :=
    fun label => gives_statement hkind _ hword.head
  exact .ite (.next fun label => hfinish _) (hfinish [])

omit hG in
theorem opens_return : Opens Opening (Statement.return_ G) := by
  unfold Statement.return_
  refine (opens_keyword "return").bind fun n word hword => .next fun ends => .next fun last => ?_
  refine .ite (gives_statement rfl _ hword.head) ?_
  exact .next fun value => gives_statement rfl _ hword.head

omit hG in
theorem opens_throw : Opens Opening (Statement.throw_ G) := by
  unfold Statement.throw_
  exact (opens_keyword "throw").bind fun n word hword => .next fun value =>
    gives_statement rfl _ hword.head

/-- An expression as a statement begins with the expression. -/
theorem opens_expression : Opens Opening (Statement.expression G) := by
  unfold Statement.expression
  exact (hG.leading (.expressions .statement) rfl).bind fun n value hvalue =>
    gives_statement rfl _ hvalue.head

omit hG in
/-- A labelled statement begins with its label. -/
theorem opens_labeled : Opens Opening (Statement.labeled G) := by
  unfold Statement.labeled
  refine (opens_anyWord rfl).bind fun n label hlabel => .next fun colon => .next fun body => ?_
  exact gives_branch rfl (hlabel.withField _).head

/-! ## Exports -/

/-- An export begins with its decorators, or with its word. -/
theorem extends_exportStatement (decorators : List Tree) :
    Extends decorators (Statement.exportStatement G decorators) := by
  unfold Statement.exportStatement
  refine (opens_keyword "export").extend fun n word hword => ?_
  extract_lets before declared
  have hdeclared : Gives (Opening n) declared := .next fun t => gives_branch rfl hword.append
  refine .next fun cs => .ite (gives_exportAll hword) (.ite (gives_exportNames hword) (.ite ?_ ?_))
  · exact gives_exportStandard _ _ hword
  · exact hG.gives_ite (.ite hdeclared gives_fail)

omit hG in
/-- An abstract class begins with its decorators, or with its word. -/
theorem extends_abstractClass (decorators : List Tree) :
    Extends decorators (Statement.abstractClass G decorators) := by
  unfold Statement.abstractClass
  refine (opens_keyword "abstract").extend fun n word hword => ?_
  exact (extends_classOf rfl _).gives n hword

/-! ## All statements -/

/-- A statement that starts with a brace begins there, whichever of the two readings is taken. -/
theorem opens_braces : Opens Opening (Statement.braces G) := by
  -- an object takes the place of statements of which the first one is labelled
  let choose : Option (Tree × Cursor) → Option (Tree × Cursor) → Option (Tree × Cursor) :=
    fun block value =>
      if block.all fun p => p.1.operands.head?.any fun t => t.is .labeledStatement then
        value.or block
      else block
  refine .choice choose (fun block value => ?_) (fun c => ?_) (opens_block (G := G) false)
    (opens_expression hG)
  · unfold choose
    split
    · cases value with
      | none => exact .inl rfl
      | some p => exact .inr rfl
    · exact .inl rfl
  · unfold choose Statement.braces
    cases Callable.block G false c with
    | ok p =>
      show _ = if (p.1.operands.head?.any fun t => t.is .labeledStatement) = true then _ else _
      simp only
      cases p.1.operands with
      | nil => rfl
      | cons first more =>
        show _ = if first.is .labeledStatement = true then _ else _
        simp only
        split
        · cases Statement.expression G c with
          | ok p => rfl
          | error stuck => rfl
        · rfl
    | error stuck =>
      cases Statement.expression G c with
      | ok p => rfl
      | error stuck' => rfl

/-- A statement that starts with a word begins with it, also where the word turns out to be a label
or a name. -/
theorem opens_ofWord (cs : List Char) (w : String) :
    Opens Opening (Statement.ofWord G cs w) := by
  have hexpression := opens_expression hG
  unfold Statement.ofWord
  extract_lets after plain
  have hplain : Opens Opening plain := by
    have hlabel : Opens (fun _ _ => True) (do
        let _ ← Reader.anyWord .identifier
        Reader.mark ":") := (opens_anyWord rfl).bind fun _ _ _ => gives_any
    exact hlabel.test fun _ => .ite opens_labeled hexpression
  refine .ite (opens_bindings _) (.ite (hG.opens_ite (opens_bindings _)) ?_)
  refine .ite (opens_bindings _) (.ite opens_declaration (.ite (.either ?_ hexpression) ?_))
  · refine ((extends_classOf rfl []).opens rfl).bind fun n t ht => .ite ?_ gives_fail
    exact .next fun missing => gives_pure ht
  -- the words of control flow, then those of modules
  refine .ite opens_if (.ite (.either opens_forEach opens_forThree) (.ite opens_while ?_))
  refine .ite opens_do (.ite opens_switch (.ite opens_try (.ite opens_with ?_)))
  refine .ite (opens_jump _ rfl) (.ite (opens_jump _ rfl) (.ite ?_ ?_))
  · exact (opens_keyword "debugger").bind fun n word hword => gives_statement rfl _ hword.head
  refine .ite opens_return (.ite opens_throw (.ite ?_ (.ite ?_ ?_)))
  · exact .ite hexpression (opens_importStatement hG)
  · exact (extends_exportStatement hG []).opens rfl
  · rw [hG.untyped]
    exact hplain

/-- **A statement begins with its first token.** -/
theorem opens_statement_ : Opens Opening (Statement.statement_ G) := by
  unfold Statement.statement_
  refine .peek fun cs => .ite (opens_braces hG) (.ite ?_ (.ite ?_ ?_))
  · exact (opens_mark ";").bind fun n mark hmark => gives_branch rfl hmark.head
  · -- decorators come before an export or a class, and the tree begins with the first of them
    refine hG.decorators.extend fun decorators => ?_
    refine .peek fun exported => .ite (extends_exportStatement hG decorators) ?_
    refine .peek fun abstract => .ite (extends_abstractClass decorators) ?_
    exact extends_classOf rfl decorators
  · exact .ite (opens_ofWord hG cs _) (opens_expression hG)

end Leading

/-! ## All goals -/

/-- A rule that gives one tree. -/
theorem Opens.single {r : Reader Tree} (hr : Opens Opening r) : Opens OneAt (single r) :=
  hr.bind fun _ _ ht => gives_pure (oneAt_singleton ht)

/-- **Each rule begins where it should if the goals below it do.** One case for each goal: some
begin with a token, some with what was read before them, and some may read nothing. -/
theorem leading_produce (hG : G.Leading) : Grammar.Leading ⟨false, G.lenient, produce G⟩ where
  untyped := rfl
  leading g hg := by
    cases g with
    | statement => exact (opens_statement_ hG).single
    | expressions x => exact opens_expressions hG x
    | expression x => exact hG.leading (.climb x 1) rfl
    | climb x level => exact opens_climb hG x level
    | operand x => exact (opens_operand hG x).single
    | element => exact opens_element.single
    -- no other goal begins a statement
    | _ => cases hg
  onward g base n hg hbase := by
    cases g with
    | climbOn x level left =>
      cases hg
      exact gives_climbOn hG x level hbase
    | suffixes x calls left =>
      cases hg
      exact gives_suffixes hG x calls hbase
    | _ => cases hg
  decorators := leads_decorators

/-- **The grammar without types begins where it should.** Induction on the depth: a rule pursues
goals one level below its own. -/
theorem leading_readGoal (lenient : Bool) (depth : Nat) :
    Grammar.Leading ⟨false, lenient, readGoal false lenient depth⟩ := by
  induction depth with
  | zero =>
    -- at no depth nothing is read
    exact ⟨rfl, fun _ _ => opens_fail, fun _ _ _ _ _ => gives_fail, opens_fail.leads⟩
  | succ depth ih => exact leading_produce ih

end OptionTypes.Syntax
