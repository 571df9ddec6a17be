import OptionTypes.Proofs.Grammar.Callable

/-!
# Expressions give operands

Whatever is read as an expression is an operand. Operators and suffixes are read with the operand
before them at hand, so what they give is one provided that it is one. An operation has its operator
and its operands, and parentheses stand around an operand.
-/

namespace OptionTypes.Syntax

open Evaluation (isOperand partsOf holdsOperand)

/-- Several operands. -/
def AllOperands (ts : List Tree) : Prop := ∀ t ∈ ts, IntactOperand t

theorem allOperands_singleton {t : Tree} (h : IntactOperand t) : AllOperands [t] :=
  List.forall_mem_singleton.mpr h

variable {G : Grammar} (hG : G.Plain)
include hG

/-- The trees of a goal that gives operands. -/
theorem Grammar.Plain.operands (g : Goal) (hg : g.Pre)
    (h : ∀ t, g.PostTree t → IntactOperand t) : Yields AllOperands (G.sub g) :=
  (hG.sub g hg).mono fun _ hts t ht => h t (hts.1 t ht)

/-! ## Operators

Operations are read by climbing: an operator is read with the operand before it, and the operation
is the operand before the next operator. So what goes on from an operand assumes that it is one,
which is the precondition of the goals `climbOn`, `suffixes` and `dotted`. -/

/-- A dotted name goes on from an operand, and each name behind a dot makes an operand of it
again. -/
theorem yields_dotted {base : Tree} (hbase : IntactOperand base) :
    Yields AllOperands (TypeGrammar.dotted G base) := by
  unfold TypeGrammar.dotted
  refine .next fun more => .ite ?_ (yields_pure (allOperands_singleton hbase))
  refine (yields_mark ".").bind fun dot hdot => .next fun cs => ?_
  extract_lets finish
  -- whatever is behind the dot, the whole is an operand to go on from
  have hfinish : ∀ name, Intact name → Yields AllOperands (finish name) := by
    intro name hname
    have hwhole : IntactOperand (Reader.branch .nestedIdentifier [base, dot, name]) :=
      operand_branch rfl (by simp [hbase.intact, hdot, hname])
    exact hG.operands (.dotted _) hwhole fun _ h => h
  exact .ite ((yields_leaf rfl 1).bind hfinish) ((yields_anyWord rfl).intact.bind hfinish)

omit hG in
/-- An operator is marked as such, which is the mark that an operation is evaluated by. -/
theorem yields_operatorLeaf (text : String) (n : Nat) :
    Yields (fun t => Intact t ∧ t.field = some .operator) (Expression.operatorLeaf text n) := by
  unfold Expression.operatorLeaf
  refine (yields_leaf rfl n).bind fun t ht => yields_pure ⟨?_, field_withField _ t⟩
  exact intact_withField.mpr ht

omit hG in
/-- An operation with its operator and its operands. -/
theorem operand_binary {left sign right : Tree} (hleft : IntactOperand left)
    (hsign : Intact sign ∧ sign.field = some .operator) (hright : IntactOperand right) :
    IntactOperand
      (Reader.branch .binaryExpression [left.withField .left, sign, right.withField .right]) := by
  refine operand_of_parts rfl rfl ?_ ?_
  · simp [partsOf, hsign.2]
  · simp [hleft.intact, hsign.1, hright.intact]

/-- A choice has a condition that is an operand; its kind asks for no parts. -/
theorem yields_ternary (x : Context) {condition : Tree} (h : IntactOperand condition) :
    Yields IntactOperand (Expression.ternary G x condition) := by
  unfold Expression.ternary
  refine (yields_leaf rfl 1).bind fun question hquestion => ?_
  refine (hG.one (.expression .between) trivial).bind fun yes hyes => ?_
  refine (yields_mark ":").bind fun colon hcolon => ?_
  refine (hG.one (.expression x) trivial).bind fun no hno => yields_pure (operand_branch rfl ?_)
  simp [h.intact, hquestion, hyes.intact, hcolon, hno.intact]

/-- Going on from an operand gives operands: the operand itself where no operator follows that binds
tightly enough, and otherwise what going on from the operation gives. -/
theorem yields_climbOn (x : Context) (level : Nat) {left : Tree} (hleft : IntactOperand left) :
    Yields AllOperands (Expression.climbOn G x level left) := by
  have hstop : Yields AllOperands (pure [left]) := yields_pure (allOperands_singleton hleft)
  have hrest : ∀ t, IntactOperand t → Yields AllOperands (G.sub (.climbOn x level t)) :=
    fun t ht => hG.operands (.climbOn x level t) ht fun _ h => h
  unfold Expression.climbOn
  refine .next fun ends => .ite hstop (.next fun cs => ?_)
  cases Expression.binaryAt? x cs with
  -- an operation is complete with the operand before it, its sign and the operand behind it
  | some found =>
    obtain ⟨operator, l⟩ := found
    refine .ite hstop ?_
    refine (yields_operatorLeaf operator _).bind fun sign hsign => ?_
    refine (hG.one (.climb x _) trivial).bind fun right hright => ?_
    exact hrest _ (operand_binary hleft hsign hright)
  -- a choice goes on alike; the words that check or change a type are read with types only
  | none =>
    refine .ite ((yields_ternary hG x hleft).bind hrest) ?_
    exact .skip (by simp [hG.untyped]) (.skip (by simp [hG.untyped]) hstop)

/-- An operand, and what goes on from it. -/
theorem yields_climb (x : Context) (level : Nat) :
    Yields AllOperands (Expression.climb G x level) := by
  unfold Expression.climb
  refine (hG.one (.operand x) trivial).bind fun left hleft => ?_
  exact hG.operands (.climbOn x level left) hleft fun _ h => h

/-- The expressions behind a comma, each with its comma. -/
theorem yields_commas (x : Context) : Yields AllIntact (Expression.commas G x) := by
  unfold Expression.commas
  refine .next fun ends => .next fun comma => .ite ?_ (yields_pure allIntact_nil)
  refine (yields_mark ",").bind fun comma hcomma => ?_
  refine (hG.one (.expression x) trivial).bind fun next hnext => ?_
  refine (hG.all (.commas x) trivial fun _ h => h).bind fun rest hrest => yields_pure ?_
  simp [hcomma, hnext.intact, hrest]

/-- One operand: an expression, or all of them as a sequence. -/
theorem yields_expressions (x : Context) :
    Yields (Goal.expressions x).Post (Expression.expressions G x) := by
  have hone : ∀ t, IntactOperand t → Yields (Goal.expressions x).Post (pure [t]) := by
    intro t ht
    refine yields_pure ⟨List.forall_mem_singleton.mpr ht.intact, ?_⟩
    exact fun _ _ => ⟨t, List.mem_singleton_self t, ht.isOperand⟩
  unfold Expression.expressions
  refine (hG.one (.expression x) trivial).bind fun first hfirst => ?_
  refine (hG.all (.commas x) trivial fun _ h => h).bind fun more hmore => ?_
  refine .ite (hone first hfirst) ?_
  exact hone _ (operand_branch rfl (allIntact_cons.mpr ⟨hfirst.intact, hmore⟩))

/-! ## Operands -/

/-- Parentheses hold an operand, since the expressions inside do. -/
theorem yields_parentheses : Yields IntactOperand (Expression.parentheses G) := by
  unfold Expression.parentheses
  refine (yields_mark "(").bind fun opening hopening => ?_
  refine (hG.expressions .inner).bind fun inside hinside => ?_
  refine (yields_clause? hG false).bind fun type htype => ?_
  refine (yields_mark ")").bind fun closing hclosing => yields_pure ?_
  -- no type stands behind the expressions
  rw [htype, List.append_nil]
  exact operand_between rfl (fun _ => rfl) hopening hclosing hinside.1 hinside.2

/-- What begins with a parenthesis is read as an expression in parentheses; where that fails, or an
arrow follows, it is read again as the parameters of an arrow. -/
theorem yields_parenthesesOrArrow (x : Context) :
    Yields IntactOperand (Expression.parenthesesOrArrow G x) := by
  intro c t d h
  rcases parenthesesOrArrow_eq_ok hG.untyped h with h | h
  · exact yields_parentheses hG c t d h
  · exact yields_arrow hG x allIntact_nil c t d h

/-- A name, or an arrow from that name. -/
theorem yields_nameOrArrow (x : Context) : Yields IntactOperand (Expression.nameOrArrow G x) := by
  unfold Expression.nameOrArrow
  exact .next fun _ => .ite (yields_arrowOfName hG x allIntact_nil) (yields_anyWord rfl)

/-- The word for an asynchronous function stands before a function, before both forms of an arrow,
or is a name like any other. -/
theorem yields_async (x : Context) : Yields IntactOperand (Expression.async G x) := by
  have hname := yields_nameOrArrow hG x
  have hword : Yields (fun t => AllIntact [t]) (Reader.keyword "async") :=
    (yields_keyword "async").mono fun _ ht => by simpa using ht
  unfold Expression.async
  extract_lets name word
  refine .next fun starts => .ite ?_ hname
  refine .next fun function => .ite (yields_functionExpression hG) ?_
  refine .next fun arrow => .ite ?_ (.next fun opens => .ite (.either ?_ hname) hname)
  · exact hword.bind fun w hw => yields_arrowOfName hG x hw
  · exact hword.bind fun w hw => yields_arrow hG x hw

/-- Arguments are a sequence of items between parentheses. -/
theorem yields_arguments : Yields Intact (Expression.arguments G) := by
  unfold Expression.arguments
  refine (yields_mark "(").bind fun opening hopening => ?_
  refine (hG.items .arguments rfl).bind fun items hitems => ?_
  refine (yields_mark ")").bind fun closing hclosing => yields_pure ?_
  exact intact_withField.mpr (intact_branch rfl (by simp [hopening, hitems, hclosing]))

/-- An element of an array, or an argument: an expression, or a spread of one. -/
theorem yields_item : Yields Intact (Expression.element G) := by
  unfold Expression.element
  refine .next fun spread => .ite ?_ (Yields.intact (hG.one (.expression .inner) trivial))
  refine (yields_mark "...").bind fun dots hdots => ?_
  refine (hG.one (.expression .inner) trivial).bind fun t ht => yields_pure ?_
  exact (operand_spread hdots ht).intact

/-- A construction has a constructor, and arguments or none. -/
theorem yields_new (x : Context) : Yields IntactOperand (Expression.new G x) := by
  unfold Expression.new
  refine (yields_keyword "new").bind fun word hword => .next fun dotted => .ite ?_ ?_
  · refine (yields_mark ".").bind fun dot hdot => ?_
    refine (yields_keyword "target").bind fun name hname => yields_pure (operand_branch rfl ?_)
    simp [hword, hdot, hname]
  · refine (hG.one (.constructed x) trivial).bind fun base hbase => .next fun cs => ?_
    extract_lets finish
    -- type arguments are not read here, so that only the list without any comes up
    have hfinish : ∀ generics, AllIntact generics → Yields IntactOperand (finish generics) := by
      intro generics hgenerics
      refine .next fun called => .ite ?_ (yields_pure (operand_branch rfl ?_))
      · refine (yields_arguments hG).bind fun args hargs => yields_pure (operand_branch rfl ?_)
        simp [hword, hbase.intact, hgenerics, hargs]
      · simp [hword, hbase.intact, hgenerics]
    exact hG.ite_and ((yields_pure allIntact_nil).bind hfinish)

omit hG in
/-- The word for an import as a value: a property of the module, or what is called to load one. -/
theorem yields_importing : Yields IntactOperand Expression.importing := by
  unfold Expression.importing
  refine (yields_keyword "import").bind fun word hword => .next fun dotted => .ite ?_ ?_
  · refine (yields_mark ".").bind fun dot hdot => ?_
    refine (yields_keyword "meta").bind fun name hname => yields_pure (operand_branch rfl ?_)
    simp [hword, hdot, hname]
  · refine .next fun called => .ite (yields_pure ⟨hword.withKind rfl, ?_⟩) yields_fail
    cases word
    rfl

/-- An operand that begins with a word: a value that the word denotes, a function, a class, a
construction, an import, or a name. -/
theorem yields_wordPrimary (x : Context) (w : String) :
    Yields IntactOperand (Expression.wordPrimary G x w) := by
  unfold Expression.wordPrimary
  split
  next found hfound =>
    -- every word that denotes a value by itself is a leaf of a kind that asks for no parts
    have hmem := List.mem_of_find?_eq_some hfound
    have hfree : ∀ p ∈ Expression.wordKinds, isFree p.2 = true := by decide
    exact yields_leaf_kind (hfree _ hmem) _
  next =>
    exact .ite (yields_functionExpression hG) (.ite (yields_classOf hG rfl allIntact_nil)
      (.ite (yields_new hG x) (.ite yields_importing (.ite (yields_async hG x)
        (yields_nameOrArrow hG x)))))

theorem yields_angled (x : Context) : Yields IntactOperand (Expression.angled G x) := by
  unfold Expression.angled
  rw [hG.untyped]
  exact hG.one .element trivial

/-- An array may hold any items. -/
theorem yields_array : Yields IntactOperand (Expression.array G) := by
  unfold Expression.array
  refine (yields_mark "[").bind fun opening hopening => ?_
  refine (hG.items .elements rfl).bind fun items hitems => ?_
  refine (yields_mark "]").bind fun closing hclosing => yields_pure (operand_branch rfl ?_)
  simp [hopening, hitems, hclosing]

/-- An object may hold any members; what they need is asked of each member. -/
theorem yields_object : Yields IntactOperand (Expression.object G) := by
  unfold Expression.object
  refine (yields_mark "\x7b").bind fun opening hopening => ?_
  refine (hG.items .members rfl).bind fun items hitems => ?_
  refine (yields_mark "\x7d").bind fun closing hclosing => yields_pure (operand_branch rfl ?_)
  simp [hopening, hitems, hclosing]

/-- Decorators stand before a class. -/
theorem yields_decorated : Yields IntactOperand (Expression.decorated G) := by
  unfold Expression.decorated
  refine (hG.all .decorators trivial fun _ h => h).bind fun decorators hdecorators => ?_
  exact yields_classOf hG rfl hdecorators

/-- An operand without suffixes, by the character it begins with. -/
theorem yields_primary (x : Context) : Yields IntactOperand (Expression.primary G x) := by
  unfold Expression.primary
  refine .next fun cs => ?_
  cases cs with
  | nil => exact yields_fail
  | cons c rest =>
    exact .ite (yields_parenthesesOrArrow hG x) (.ite (yields_array hG) (.ite (yields_object hG)
      (.ite (yields_string hG) (.ite (yields_template hG) (.ite yields_regex
        (.ite (yields_angled hG x) (.ite yields_privateName (.ite (yields_decorated hG)
          (.ite (yields_wordPrimary hG x _) yields_number)))))))))

/-! ## Suffixes

A suffix takes the operand before it and gives a larger one, of a kind without demands. -/

omit hG in
/-- The name of a member, public or private. -/
theorem yields_memberName : Yields Intact Expression.memberName := by
  unfold Expression.memberName
  refine .next fun cs => ?_
  extract_lets finish
  have hfinish : ∀ name, IntactOperand name → Yields Intact (finish name) := by
    intro name hname
    exact yields_pure (intact_withField.mpr hname.intact)
  exact .ite (yields_privateName.bind hfinish) ((yields_anyWord rfl).bind hfinish)

/-- What stands in brackets behind an operand. -/
theorem yields_index : Yields AllIntact (Expression.index G) := by
  unfold Expression.index
  refine (yields_mark "[").bind fun opening hopening => ?_
  refine (hG.expressions .inner).bind fun inside hinside => ?_
  refine (yields_mark "]").bind fun closing hclosing => yields_pure ?_
  simp [hopening, hinside.1, hclosing]

/-- A suffix behind `?.` is an index, a call or the name of a member. -/
theorem yields_optionalSuffix {base : Tree} (hbase : IntactOperand base) :
    Yields IntactOperand (Expression.optionalSuffix G base) := by
  unfold Expression.optionalSuffix
  refine (yields_leaf rfl 2).bind fun chain hchain => .next fun bracket => .ite ?_ ?_
  · refine (yields_index hG).bind fun index hindex => yields_pure (operand_branch rfl ?_)
    simp [hbase.intact, hchain, hindex]
  · refine .next fun called => .ite ?_ (.next fun cs => hG.ite_and ?_)
    · refine (yields_arguments hG).bind fun args hargs => yields_pure (operand_branch rfl ?_)
      simp [hbase.intact, hchain, hargs]
    · refine yields_memberName.bind fun name hname => yields_pure (operand_branch rfl ?_)
      simp [hbase.intact, hchain, hname]

/-- A suffix gives an operand from an operand, if there is one. -/
theorem yields_suffix? (calls : Bool) {base : Tree} (hbase : IntactOperand base) :
    Yields (fun whole => ∀ t, whole = some t → IntactOperand t)
      (Expression.suffix? G calls base) := by
  -- the reader tells whether it has found a suffix, and the claim is about what it has found
  have hsome : ∀ t, IntactOperand t → Yields (fun whole => ∀ u, whole = some u → IntactOperand u)
      (pure (some t)) := by
    intro t ht
    refine yields_pure fun u hu => ?_
    cases hu
    exact ht
  unfold Expression.suffix?
  -- a name, an optional suffix, an index, arguments, a template, and a mark read with types only
  refine .next fun cs => .ite ?_ (.ite ?_ (.ite ?_ (.ite ?_ (.ite ?_ (.ite ?_ (hG.ite_and ?_))))))
  · refine (yields_mark ".").bind fun dot hdot => yields_memberName.bind fun name hname => ?_
    exact hsome _ (operand_branch rfl (by simp [hbase.intact, hdot, hname]))
  · exact (yields_optionalSuffix hG hbase).bind hsome
  · refine (yields_index hG).bind fun index hindex => hsome _ (operand_branch rfl ?_)
    simp [hbase.intact, hindex]
  · refine (yields_arguments hG).bind fun args hargs => hsome _ (operand_branch rfl ?_)
    simp [hbase.intact, hargs]
  · refine (yields_template hG).bind fun args hargs => hsome _ (operand_branch rfl ?_)
    simp [hbase.intact, hargs.intact]
  · refine (yields_operatorLeaf _ 2).bind fun sign hsign => hsome _ (operand_branch rfl ?_)
    simp [hbase.intact, hsign.1]
  · exact .skip (by simp [hG.untyped]) (yields_pure nofun)

/-- Suffixes are read as long as there is one, each from the operand that the one before has
given. -/
theorem yields_suffixes (x : Context) (calls : Bool) {base : Tree} (hbase : IntactOperand base) :
    Yields AllOperands (Expression.suffixes G x calls base) := by
  have hstop : Yields AllOperands (pure [base]) := yields_pure (allOperands_singleton hbase)
  unfold Expression.suffixes
  refine .next fun ends => .ite hstop ?_
  refine (yields_suffix? hG calls hbase).bind fun whole hwhole => ?_
  cases whole with
  | some whole => exact hG.operands (.suffixes x calls whole) (hwhole _ rfl) fun _ h => h
  | none => exact hstop

/-- What stands behind `new`: another construction or an operand, with suffixes that are no
calls. -/
theorem yields_constructed (x : Context) : Yields AllOperands (Expression.constructed G x) := by
  have hrest : ∀ base, IntactOperand base → Yields AllOperands (G.sub (.suffixes x false base)) :=
    fun base hbase => hG.operands (.suffixes x false base) hbase fun _ h => h
  unfold Expression.constructed
  refine .next fun again => ?_
  extract_lets finish
  exact .ite ((yields_new hG x).bind hrest) ((yields_primary hG x).bind hrest)

/-! ## Assignments and unary operators

An assignment is of a kind without demands. A unary operation is complete with its operator and its
argument. -/

/-- An operand, or an assignment to it. -/
theorem yields_assignment (x : Context) {left : Tree} (hleft : IntactOperand left) :
    Yields IntactOperand (Expression.assignment G x left) := by
  unfold Expression.assignment
  refine .next fun cs => .ite (yields_pure hleft) (.ite ?_ ?_)
  · refine (yields_mark "=").bind fun sign hsign => ?_
    refine (hG.one (.expression x) trivial).bind fun right hright => yields_pure ?_
    refine operand_branch rfl ?_
    simp [hleft.intact, hsign, hright.intact]
  · cases Expression.augmenting.find? fun m => Reader.startsWithMark m cs with
    | none => exact yields_pure hleft
    | some m =>
      refine (yields_operatorLeaf _ _).bind fun sign hsign => ?_
      refine (hG.one (.expression x) trivial).bind fun right hright => yields_pure ?_
      refine operand_branch rfl ?_
      simp [hleft.intact, hsign.1, hright.intact]

/-- An assignment to a pattern. -/
theorem yields_patternAssignment (x : Context) :
    Yields IntactOperand (Expression.patternAssignment G x) := by
  unfold Expression.patternAssignment
  refine (yields_destructuring hG).bind fun left hleft => ?_
  refine (yields_mark "=").bind fun sign hsign => ?_
  refine (hG.one (.expression x) trivial).bind fun right hright => yields_pure ?_
  refine operand_branch rfl ?_
  simp [hleft, hsign, hright.intact]

/-- What begins like a pattern is read as an operand first. An object or an array before an equals
sign does not count as one, and is read again as a pattern that is assigned to. -/
theorem yields_assignable (x : Context) : Yields IntactOperand (Expression.assignable G x) := by
  unfold Expression.assignable
  extract_lets plain
  have hplain : Yields IntactOperand plain := by
    refine (yields_primary hG x).bind fun base hbase => ?_
    refine (hG.one (.suffixes x true base) hbase).bind fun whole hwhole => ?_
    exact yields_assignment hG x hwhole
  refine .next fun pattern => .ite (.either ?_ (yields_patternAssignment hG x)) hplain
  exact hplain.bind fun t ht => .next fun _ => .ite yields_fail (yields_pure ht)

/-- A unary operation has its operator and its argument, for either of the kinds that ask for
nothing else. -/
theorem yields_unary (x : Context) (kind : Kind) (hholds : holdsOperand kind = false)
    (hcomment : ∀ ts, (Reader.branch kind ts).isComment = false)
    (hparts : ∀ f ∈ partsOf kind, f = .operator ∨ f = .argument) (operator : String) :
    Yields IntactOperand (Expression.unary G x kind operator) := by
  unfold Expression.unary
  refine (yields_operatorLeaf operator _).bind fun sign hsign => ?_
  refine (hG.one (.operand x) trivial).bind fun t ht => yields_pure ?_
  refine operand_of_parts hholds (hcomment _) ?_ ?_
  · rw [List.all_eq_true]
    intro f hf
    -- one of the two parts is the sign and the other one the operand behind it
    rcases hparts f hf with rfl | rfl
    · simp [hsign.2]
    · simp
  · simp [hsign.1, ht.intact]

/-- The word alone, with an operand, or with a star and an operand. -/
theorem yields_yield (x : Context) : Yields IntactOperand (Expression.yield_ G x) := by
  unfold Expression.yield_
  refine (yields_keyword "yield").bind fun word hword => ?_
  have halone : Yields IntactOperand (pure (Reader.branch .yieldExpression [word])) :=
    yields_pure (operand_branch rfl (by simpa using hword))
  refine .next fun ends => .ite halone (.next fun all => .ite ?_ (.next fun cs => .ite ?_ halone))
  · refine (yields_mark "*").bind fun star hstar => ?_
    refine (hG.one (.expression x) trivial).bind fun t ht => yields_pure (operand_branch rfl ?_)
    simp [hword, hstar, ht.intact]
  · refine (hG.one (.expression x) trivial).bind fun t ht => yields_pure (operand_branch rfl ?_)
    simp [hword, ht.intact]

theorem yields_operand (x : Context) : Yields IntactOperand (Expression.operand G x) := by
  have hunary := yields_unary hG x .unaryExpression rfl (fun _ => rfl) (by decide)
  have hupdate := yields_unary hG x .updateExpression rfl (fun _ => rfl) (by decide)
  have hassignable := yields_assignable hG x
  unfold Expression.operand
  refine .next fun cs => .ite ?_ ?_
  · refine .ite (hunary _) (.ite ?_ (.ite (yields_yield hG x) hassignable))
    refine (yields_keyword "await").bind fun word hword => ?_
    refine (hG.one (.operand x) trivial).bind fun t ht => yields_pure (operand_branch rfl ?_)
    simp [hword, ht.intact]
  · cases Expression.signs.find? fun m => Reader.startsWithMark m cs with
    | some m => exact hunary m
    | none => exact .ite (hupdate _) (.ite (hupdate _) hassignable)

end OptionTypes.Syntax
