import OptionTypes.Proofs.Grammar.Lays

/-!
# The rules of expressions continue a row

Literals, elements, patterns, functions, classes and operators. Each rule is taken apart in the
order in which it reads. Where a rule goes on in the same way after several alternatives, what it
does from there on comes first (`hfinish`), for any trees that an alternative may have read.
-/

namespace OptionTypes.Syntax

variable {source : List Char} {G : Grammar} (hG : G.Orderly source)
include hG

/-! ## Literals -/

/-- The parts of a string: fragments and escapes, up to the closing mark or a line end. -/
theorem lays_stringParts (quote : Char) : LaysAll source [] (Literal.stringParts G quote) := by
  have hrest := hG.sub (.stringParts quote) rfl
  unfold Literal.stringParts
  refine .look fun cs => ?_
  cases cs with
  | nil => exact lays_fail
  | cons c rest =>
    refine .ite (lays_leafHere 1).single (.ite ?_ ?_)
    · cases Lexeme.stringEscape? (c :: rest) with
      | none => exact lays_fail
      | some n => exact (lays_leafHere n).cons hrest
    · exact .ite lays_fail ((lays_leafHere _).cons hrest)

/-- A string is its marks with its parts between them. -/
theorem lays_string : LaysOne source [] (Literal.string G) := by
  unfold Literal.string
  refine .look fun cs => ?_
  cases cs.head? with
  | none => exact lays_fail
  | some c =>
    refine .ite ((lays_leaf 1).bind fun opening => ?_) lays_fail
    exact (hG.sub (.stringParts c) rfl).next fun parts => lays_branch rfl nofun

/-- A substitution is an expression between its marks. -/
theorem lays_substitution : LaysOne source [] (Literal.substitution G) := by
  unfold Literal.substitution
  refine (lays_leafHere 2).bind fun opening => ?_
  refine (hG.sub (.expressions .inner) rfl).next fun inner => ?_
  exact (lays_mark "\x7d").next fun closing => lays_branch rfl nofun

/-- The parts of a template: fragments, escapes and substitutions, up to its closing mark. -/
theorem lays_templateParts : LaysAll source [] (Literal.templateParts G) := by
  have hrest := hG.sub .templateParts rfl
  unfold Literal.templateParts
  refine .look fun cs => ?_
  split
  · exact lays_fail
  · exact (lays_leafHere 1).single
  · exact (lays_substitution hG).cons hrest
  · split
    · exact lays_fail
    · exact (lays_leafHere _).cons hrest
  · exact (lays_leafHere _).cons hrest

/-- A template is its marks with its parts between them. -/
theorem lays_template : LaysOne source [] (Literal.template G) := by
  unfold Literal.template
  refine .look fun cs => .ite ((lays_leaf 1).bind fun opening => ?_) lays_fail
  exact (hG.sub .templateParts rfl).next fun parts => lays_branch rfl nofun

omit hG in
/-- A regular expression is its body between two slashes, and flags behind the second one. -/
theorem lays_regex : LaysOne source [] Literal.regex := by
  unfold Literal.regex
  refine .look fun cs => ?_
  split
  · split
    · exact lays_fail
    · exact lays_fail
    · refine (lays_leaf 1).bind fun opening => (lays_leafHere _).next fun body => ?_
      refine (lays_leafHere 1).next fun closing => .look fun after => ?_
      extract_lets flags finish
      have hfinish : ∀ tail, LaysOne source ([opening, body, closing] ++ tail) (finish tail) :=
        fun tail => lays_branch (by simp) (by simp)
      refine .ite (hfinish []) ((lays_leafHere flags).next fun last => ?_)
      exact (hfinish _).after (folds_of_shape (by simp))
  · exact lays_fail

omit hG in
theorem lays_number : LaysOne source [] Literal.number := by
  unfold Literal.number
  exact .look fun cs => .ite lays_fail (lays_leaf _)

/-! ## Elements -/

omit hG in
theorem lays_elementName : LaysOne source [] Element.name := by
  unfold Element.name
  exact .look fun cs => .ite lays_fail (lays_leaf _)

/-- An expression in an element stands between braces; there may be none, or a spread. -/
theorem lays_elementExpression : LaysOne source [] (Element.expression G) := by
  unfold Element.expression
  refine (lays_mark "\x7b").bind fun opening => .look fun empty => .look fun spread => ?_
  extract_lets finish
  -- whatever is inside, the closing brace ends it
  have hfinish : ∀ inside, LaysOne source (opening :: inside) (finish inside) :=
    fun inside => (lays_mark "\x7d").next fun closing => lays_branch rfl nofun
  refine .ite (hfinish []) (.ite ?_ ?_)
  · refine (lays_mark "...").next fun dots => ?_
    refine (hG.one (.expression .inner) rfl).next fun t => (hfinish _).after ?_
    exact (Folds.refl [opening]).append (folds_branch (.refl [dots, t]) nofun)
  · exact (hG.sub (.expressions .inner) rfl).next hfinish

/-- The value of an attribute is a string, an expression or an element. -/
theorem lays_attributeValue : LaysOne source [] (Element.attributeValue G) := by
  unfold Element.attributeValue
  refine .look fun cs => ?_
  cases cs with
  | nil => exact lays_fail
  | cons c rest =>
    refine .ite (.ite lays_fail (lays_leaf _)) (.ite (lays_elementExpression hG) ?_)
    exact hG.one .element rfl

/-- An attribute has a name, and a value if an equals sign follows. -/
theorem lays_attribute : LaysOne source [] (Element.attribute_ G) := by
  unfold Element.attribute_
  refine .look fun braced => .ite (LaysOne.withField (lays_elementExpression hG) _) ?_
  refine lays_elementName.bind fun name => .look fun valued => ?_
  extract_lets finish
  have hfinish : ∀ value, LaysOne source (name :: value) (finish value) :=
    fun value => lays_branchAs rfl nofun
  refine .ite ?_ (hfinish [])
  refine (lays_mark "=").next fun sign => (lays_attributeValue hG).next fun value => ?_
  exact hfinish [sign, value]

/-- Attributes, as long as a name follows. -/
theorem lays_attributes : LaysAll source [] (Element.attributes G) := by
  unfold Element.attributes
  refine .look fun cs => .ite (lays_pure (.refl [])) ?_
  exact (lays_attribute hG).cons (hG.sub .attributes rfl)

/-- The parts of an element: texts, expressions and elements, up to its closing tag. -/
theorem lays_elementParts : LaysAll source [] (Element.parts G) := by
  have hrest := hG.sub .elementParts rfl
  unfold Element.parts
  refine .look fun cs => ?_
  split
  · exact lays_fail
  · exact .ite (lays_pure (.refl [])) (LaysOne.cons (hG.one .element rfl) hrest)
  · exact (lays_elementExpression hG).cons hrest
  · exact (lays_leafHere _).cons hrest

/-- An element with its attributes and parts, or closed at once. -/
theorem lays_element : LaysOne source [] (Element.element G) := by
  unfold Element.element
  refine (lays_part "<").bind fun opening => .look fun cs => ?_
  extract_lets finish
  -- whether the tag has a name or not, attributes follow, and then one of the two ends
  have hfinish : ∀ tag, LaysOne source (opening :: tag) (finish tag) := by
    intro tag
    refine (hG.sub .attributes rfl).next fun attributes => .look fun cs => .ite ?_ ?_
    · -- one tag that closes itself
      refine (lays_part "/").next fun slash => (lays_part ">").next fun closing => ?_
      exact lays_branch (by simp) nofun
    · refine (lays_part ">").next fun greater => ?_
      extract_lets first
      -- the first tag takes the place of what it is made of
      have hfirst : Folds (opening :: tag ++ attributes ++ [greater]) [first] :=
        folds_branch (.refl _) nofun
      refine Lays.after ?_ hfirst
      refine (hG.sub .elementParts rfl).next fun inside => (lays_part "<").next fun less => ?_
      refine (lays_part "/").next fun slash => .look fun cs => ?_
      extract_lets finish
      have hfinish : ∀ closing,
          LaysOne source ([first] ++ inside ++ ([less, slash] ++ closing)) (finish closing) := by
        intro closing
        refine (lays_part ">").next fun greater => ?_
        extract_lets last
        refine lays_pure (folds_branch ?_ (by simp))
        rw [List.append_assoc]
        exact (folds_of_shape (by simp)).append (folds_branchAs (.refl _) (by simp))
      refine .ite ((hfinish []).after (folds_of_shape (by simp))) ?_
      refine lays_elementName.next fun name => (hfinish _).after (folds_of_shape (by simp))
  refine .ite (hfinish []) (lays_elementName.next fun name => ?_)
  exact (hfinish _).after (folds_of_shape (by simp))

/-! ## Patterns -/

omit hG in
theorem lays_privateName : LaysOne source [] Pattern.privateName := by
  unfold Pattern.privateName
  refine .look fun cs => ?_
  split
  · exact .ite lays_fail (lays_leaf _)
  · exact lays_fail

/-- A key is a name, a string, a number, or an expression between brackets. -/
theorem lays_key : LaysOne source [] (Pattern.key G) := by
  unfold Pattern.key
  refine .look fun cs => ?_
  cases cs with
  | nil => exact lays_fail
  | cons c rest =>
    refine .ite ?_ (.ite (lays_string hG) (.ite lays_privateName
      (.ite (lays_anyWord _) lays_number)))
    refine (lays_mark "[").bind fun opening => (hG.one (.expression .inner) rfl).next fun t => ?_
    exact (lays_mark "]").next fun closing => lays_branch rfl nofun

/-- A standard value is an expression behind an equals sign. -/
theorem lays_standard : Lays source [] (fun p => [p.1, p.2]) (Pattern.standard G) := by
  unfold Pattern.standard
  refine (lays_mark "=").bind fun sign => (hG.one (.expression .inner) rfl).next fun t => ?_
  exact lays_pure (folds_of_shape (by simp))

/-- A target may have a standard value behind it. -/
theorem lays_targetWithStandard : LaysOne source [] (Pattern.targetWithStandard G) := by
  unfold Pattern.targetWithStandard
  refine (hG.one .target rfl).bind fun target => .look fun more => .ite ?_ (lays_pure (.refl _))
  exact (lays_standard hG).next fun p => lays_branch (by simp) nofun

theorem lays_rest : LaysOne source [] (Pattern.rest G) := by
  unfold Pattern.rest
  refine (lays_mark "...").bind fun dots => (hG.one .target rfl).next fun t => ?_
  exact lays_branch rfl nofun

theorem lays_patternElement : LaysOne source [] (Pattern.element G) := by
  unfold Pattern.element
  exact .look fun _ => .ite (lays_rest hG) (lays_targetWithStandard hG)

/-- A member of a pattern: the rest, a key with a target, or a name that is both. -/
theorem lays_patternMember : LaysOne source [] (Pattern.member G) := by
  unfold Pattern.member
  refine .look fun dots => .ite (lays_rest hG) ?_
  refine (lays_key hG).bind fun name => .look fun colon => .ite ?_ (.ite ?_ lays_fail)
  · refine (lays_mark ":").next fun colon => (lays_targetWithStandard hG).next fun value => ?_
    exact lays_branch (by simp) nofun
  · refine .look fun more => .ite ?_ (lays_pure (folds_of_shape (by simp)))
    exact (lays_standard hG).next fun p => lays_branch (by simp) nofun

/-- A pattern between braces or brackets. -/
theorem lays_destructuring : LaysOne source [] (Pattern.destructuring G) := by
  unfold Pattern.destructuring
  refine .look fun brace => .ite ?_ ?_
  · refine (lays_mark "\x7b").bind fun opening => ?_
    refine (hG.sub (.items .patternMembers) rfl).next fun items => ?_
    exact (lays_mark "\x7d").next fun closing => lays_branch rfl nofun
  · refine (lays_mark "[").bind fun opening => ?_
    refine (hG.sub (.items .patternElements) rfl).next fun items => ?_
    exact (lays_mark "]").next fun closing => lays_branch rfl nofun

theorem lays_binding : LaysOne source [] (Pattern.binding G) := by
  unfold Pattern.binding
  exact .look fun _ => .ite (lays_destructuring hG) (lays_anyWord _)

/-- A target is a pattern, or a place that can be assigned to: a name with suffixes. -/
theorem lays_target : LaysOne source [] (Pattern.target G) := by
  unfold Pattern.target
  refine .look fun pattern => .ite (lays_destructuring hG) (.look fun this => ?_)
  extract_lets finish
  -- behind its base a target goes on as an operand does
  have hfinish : ∀ base, LaysOne source [base] (finish base) := by
    intro base
    refine (hG.one (.suffixes .inner true base) rfl).bind fun whole => ?_
    exact .ite (lays_pure (.refl _)) lays_fail
  exact .ite ((lays_leaf 4).bind hfinish) ((lays_anyWord _).bind hfinish)

omit hG in
theorem lays_modifier (w : String) : LaysOne source [] (Pattern.modifier w) := by
  unfold Pattern.modifier
  refine (lays_keyword w).bind fun word => .ite (lays_branch rfl nofun) ?_
  exact .ite (lays_branch rfl nofun) (lays_pure (.refl _))

/-- Modifiers, as long as one follows. -/
theorem lays_modifiers (words : List String) : LaysAll source [] (Pattern.modifiers G words) := by
  unfold Pattern.modifiers
  refine .look fun cs => ?_
  cases words.find? fun w => Pattern.modifies w cs with
  | none => exact lays_pure (.refl _)
  | some w => exact (lays_modifier w).cons (hG.sub (.modifiers words) rfl)

/-- A parameter without types is an element of a pattern. -/
theorem lays_parameter : LaysOne source [] (Pattern.parameter G) := by
  unfold Pattern.parameter
  rw [hG.untyped]
  exact lays_patternElement hG

/-- Parameters between parentheses. -/
theorem lays_formals : LaysOne source [] (Pattern.parameters G) := by
  unfold Pattern.parameters
  refine (lays_mark "(").bind fun opening => (hG.sub (.items .parameters) rfl).next fun items => ?_
  exact (lays_mark ")").next fun closing => lays_branchAs rfl nofun

/-! ## Functions -/

/-- There are no type parameters where there are no types. -/
theorem lays_typeParameters? : LaysAll source [] (TypeGrammar.parameters? G) := by
  unfold TypeGrammar.parameters?
  exact .look fun _ => hG.ite_and (lays_pure (.refl _))

/-- There is no type where there are no types. -/
theorem lays_clause? (ends : Bool) : LaysAll source [] (TypeGrammar.clause? G ends) := by
  unfold TypeGrammar.clause?
  exact .look fun _ => hG.ite_and (lays_pure (.refl _))

/-- There is no type of a result where there are no types. -/
theorem lays_result? (ends : Bool) : LaysAll source [] (TypeGrammar.result? G ends) := by
  unfold TypeGrammar.result?
  exact .look fun _ => hG.ite_and (lays_pure (.refl _))

/-- The signature of a function: its parameters. -/
theorem lays_signature (ends : Bool) : LaysAll source [] (Callable.signature G ends) := by
  unfold Callable.signature
  refine (lays_typeParameters? hG).bind fun generics => (lays_formals hG).next fun formals => ?_
  exact (lays_result? hG ends).next fun result => lays_pure (.refl _)

/-- A block is statements between braces. -/
theorem lays_block (operator : Bool) : LaysOne source [] (Callable.block G operator) := by
  unfold Callable.block
  refine (lays_mark "\x7b").bind fun opening => ?_
  refine (hG.sub (.statements .brace) rfl).next fun inside => ?_
  refine (lays_mark "\x7d").next fun closing => (lays_passMissing _).bind fun _ => ?_
  exact lays_branchTo (.refl _)

theorem lays_body (operator : Bool) : LaysOne source [] (Callable.body G operator) := by
  unfold Callable.body
  exact LaysOne.withField (hG.one (.block operator) rfl) .body

omit hG in
/-- A function starts with its word; there may be others around that. -/
theorem lays_head : Lays source [] (fun p => p.1) Callable.head := by
  unfold Callable.head
  refine (lays_keyword? "async").bind fun async => (lays_keyword "function").next fun word => ?_
  exact (lays_mark? "*").next fun star => lays_pure (.refl _)

/-- A function as an expression may have a name. -/
theorem lays_functionExpression : LaysOne source [] (Callable.expression G) := by
  unfold Callable.expression
  refine lays_head.bind fun p => .look fun named => ?_
  extract_lets kind finish
  -- with a name or without one, a signature and a body follow
  have hfinish : ∀ name, LaysOne source (p.1 ++ name) (finish name) := by
    intro name
    refine (lays_signature hG false).next fun parts => (lays_body hG true).next fun body => ?_
    exact lays_branch rfl (by simp)
  refine .ite ((lays_anyWord _).next fun name => ?_) ((hfinish []).after (folds_of_shape (by simp)))
  exact (hfinish _).after (folds_of_shape (by simp))

/-- A function as a statement has a name. -/
theorem lays_functionDeclaration : LaysOne source [] (Callable.declaration G) := by
  unfold Callable.declaration
  refine lays_head.bind fun p => (lays_anyWord _).next fun word => ?_
  refine (lays_signature hG true).next fun parts => .look fun braced => ?_
  refine .ite ((lays_body hG false).next fun body => ?_) (hG.ite lays_fail)
  exact lays_branch (by simp) (by simp)

/-- Behind an arrow there is a block or an expression. -/
theorem lays_arrowBody (x : Context) : LaysAll source [] (Callable.arrowBody G x) := by
  unfold Callable.arrowBody
  refine (lays_mark "=>").bind fun arrow => .look fun braced => .ite ?_ ?_
  · exact (lays_body hG true).next fun body => lays_pure (.refl _)
  · exact (hG.one (.expression x) rfl).next fun t => lays_pure (folds_of_shape (by simp))

/-- An arrow function with a single name before the arrow. -/
theorem lays_arrowOfName (x : Context) (async : List Tree) :
    LaysOne source async (Callable.arrowOfName G x async) := by
  unfold Callable.arrowOfName
  refine (lays_anyWord _).next fun name => (lays_arrowBody hG x).next fun body => ?_
  exact lays_branch (by simp) (by simp)

omit hG in
/-- The body of an arrow function is not empty, since it starts with the arrow. -/
theorem gives_arrowBody (x : Context) : Gives (fun ts => ts ≠ []) (Callable.arrowBody G x) := by
  unfold Callable.arrowBody
  refine .next fun arrow => .next fun braced => .ite ?_ ?_
  · exact .next fun body => gives_pure nofun
  · exact .next fun t => gives_pure nofun

/-- An arrow function with parameters between parentheses. Its signature may be all that is there
before the arrow, so that its body is known not to be empty counts here. -/
theorem lays_arrow (x : Context) (async : List Tree) :
    LaysOne source async (Callable.arrow G x async) := by
  unfold Callable.arrow
  refine (lays_signature hG false).next fun parts => ?_
  exact (lays_arrowBody hG x).given (gives_arrowBody x) fun body hbody =>
    lays_branch rfl (by simp [hbody])

/-! ## Members of objects -/

theorem lays_value (x : Context) : LaysOne source [] (Callable.value G x) := by
  unfold Callable.value
  exact LaysOne.withField (hG.one (.expression x) rfl) .value

/-- A pair is a name and a value with a colon between them. A missing value has a node of its
own. -/
theorem lays_pair (name : Tree) : LaysOne source [name] (Callable.pair G name) := by
  unfold Callable.pair
  refine (lays_mark ":").next fun colon => ?_
  extract_lets start
  refine .look fun comma => .look fun brace => .ite ?_ ?_
  · refine (lays_missing (.kind .identifier) (some .value)).next fun n => ?_
    exact lays_branch (by simp [start]) (by simp)
  · exact (lays_value hG .inner).next fun value => lays_branch (by simp [start]) (by simp)

/-- A member of an object: a spread, a method, a pair or a name alone. -/
theorem lays_objectMember : LaysOne source [] (Callable.objectMember G) := by
  unfold Callable.objectMember
  refine .look fun spread => .ite ?_ ?_
  · refine (lays_mark "...").bind fun dots => (hG.one (.expression .inner) rfl).next fun t => ?_
    exact lays_branch rfl nofun
  · refine (hG.sub .decorators rfl).bind fun decorators => ?_
    refine (hG.sub (.modifiers _) rfl).next fun words => (lays_mark? "*").next fun star => ?_
    refine (lays_key hG).next fun name => ?_
    simp only [hG.untyped, Bool.false_eq_true, if_false, pure_bind]
    -- without a signature nothing else may stand before the name
    have hname : Folds (decorators ++ words ++ star ++ [name]) [name] := folds_drop _ _
    refine .look fun signed => .ite ?_ (.ite lays_fail (.look fun colon => .ite ?_ ?_))
    · refine (lays_signature hG false).next fun parts => (lays_body hG false).next fun body => ?_
      exact lays_branch (by simp) (by simp)
    · exact (lays_pair hG name).after hname
    · exact .ite (lays_pure (hname.trans (folds_of_shape (by simp)))) lays_fail

/-! ## Classes -/

/-- A decorator is its sign and what it names or calls. -/
theorem lays_decorator : LaysOne source [] (Callable.decorator G) := by
  unfold Callable.decorator
  refine (lays_part "@").bind fun sign => .look fun braced => ?_
  extract_lets finish
  have hfinish : ∀ subject, LaysOne source [sign, subject] (finish subject) :=
    fun subject => lays_branchAs rfl nofun
  refine .ite ?_ ?_
  · refine (lays_mark "(").next fun opening => (hG.one (.expression .inner) rfl).next fun t => ?_
    refine (lays_mark ")").next fun closing => (hfinish _).after ?_
    exact (Folds.refl [sign]).append (folds_branch (.refl [opening, t, closing]) nofun)
  · refine (lays_anyWord .identifier).next fun name => ?_
    refine (hG.one (.dotted name) rfl).frame.bind fun whole => .look fun after => ?_
    refine .ite ?_ (hfinish whole)
    refine (lays_mark "(").next fun opening => ?_
    refine (hG.sub (.items .arguments) rfl).next fun items => (lays_mark ")").next fun closing => ?_
    refine (hfinish _).after ((Folds.refl [sign]).append (folds_branch ?_ nofun))
    exact (folds_withField _).append (folds_branchAs (.refl (opening :: items ++ [closing])) nofun)

/-- Decorators, as long as one follows. -/
theorem lays_decorators : LaysAll source [] (Callable.decorators G) := by
  unfold Callable.decorators
  refine .look fun cs => .ite ?_ (lays_pure (.refl _))
  exact (lays_decorator hG).cons (hG.sub .decorators rfl)

/-- A block that runs when its class is defined. -/
theorem lays_staticBlock : LaysOne source [] (Callable.staticBlock G) := by
  unfold Callable.staticBlock
  refine (lays_keyword "static").bind fun word => (lays_body hG false).next fun body => ?_
  exact lays_branchAs rfl nofun

/-- What ends a member of a class, where that is asked for. -/
theorem lays_memberEnd (s : Semicolon.Setting) : LaysAll source [] (Callable.memberEnd G s) := by
  unfold Callable.memberEnd
  exact .look fun _ => hG.ite_and (lays_semicolon s)

/-- A field of a class: a name with modifiers around it, and a value if one follows. -/
theorem lays_field (before : List Tree) (name : Tree) (after : List Tree) :
    LaysAll source (before ++ [name] ++ after) (Callable.field G before name after) := by
  unfold Callable.field
  simp only [hG.untyped, Bool.false_eq_true, if_false]
  refine (lays_clause? hG true).next fun type => .look fun valued => ?_
  have hfinish : ∀ value : List Tree,
      LaysAll source (before ++ [name] ++ after ++ type ++ value) (do
        let whole := Reader.branch .fieldDefinition
          (before ++ [name.withField .property] ++ after ++ type ++ value)
        return whole.withField .member
          :: (← Callable.memberEnd G (G.setting (!value.isEmpty)))) := by
    intro value
    refine (lays_memberEnd hG _).next fun last => lays_pure (.cons ?_ last)
    exact folds_branchAs (folds_of_shape (by simp)) (by simp)
  refine .ite ?_ ((hfinish []).after (folds_of_shape (by simp)))
  refine (lays_mark "=").next fun sign => (lays_value hG .statement).next fun value => ?_
  exact (hfinish _).after (folds_of_shape (by simp))

/-- A method of a class: a signature and a body. -/
theorem lays_method (before : List Tree) (name : Tree) (after : List Tree) :
    LaysAll source (before ++ [name] ++ after) (Callable.method G before name after) := by
  unfold Callable.method
  refine (lays_signature hG true).next fun parts => .look fun braced => ?_
  refine .ite ((lays_body hG false).next fun body => ?_) (hG.ite lays_fail)
  refine (lays_mark? ";").next fun last => lays_pure (.cons ?_ last)
  exact folds_branchAs (folds_of_shape (by simp)) (by simp)

/-- A member of a class. Decorators and modifiers come first, and the member is what follows its
name. -/
theorem lays_classMember : LaysAll source [] (Callable.classMember G) := by
  unfold Callable.classMember
  have hblock := LaysOne.single (lays_staticBlock hG)
  refine .look fun cs => .ite (lays_mark ";").single (.ite hblock ?_)
  refine (hG.sub .decorators rfl).bind fun decorators => ?_
  refine (hG.sub (.modifiers _) rfl).next fun words => ?_
  simp only [hG.untyped, Bool.not_false, if_true, pure_bind]
  -- the index of a class is for types
  refine .either lays_fail ?_
  refine (lays_mark? "*").next fun star => (lays_key hG).next fun name => ?_
  refine .look fun signed => .ite ?_ (.ite ?_ lays_fail)
  · exact (lays_method hG (decorators ++ words ++ star) name []).after (folds_of_shape (by simp))
  · -- a field has no star before its name
    have hstar : Folds (decorators ++ words ++ star ++ [name]) (decorators ++ words ++ [name]) :=
      (folds_drop star [name]).tail (by simp)
    refine (lays_field hG (decorators ++ words) name []).after (hstar.trans ?_)
    exact folds_of_shape (by simp)

/-- The members of a class, up to its closing brace. -/
theorem lays_classMembers : LaysAll source [] (Callable.classMembers G) := by
  unfold Callable.classMembers
  refine .look fun closed => .ite (lays_pure (.refl _)) ((lays_classMember hG).bind fun first => ?_)
  exact (hG.sub .classMembers rfl).next fun rest => lays_pure (.refl _)

/-- What a class derives from, if anything. -/
theorem lays_heritageClauses : LaysAll source [] (Callable.heritageClauses G) := by
  unfold Callable.heritageClauses
  refine hG.ite (.look fun derived => .ite ?_ (lays_pure (.refl _)))
  refine (lays_keyword "extends").bind fun word => (hG.one (.operand .inner) rfl).next fun t => ?_
  exact lays_pure (folds_branch (.refl _) nofun)

/-- A class with its name, what it derives from, and its members. -/
theorem lays_classOf (kind : Kind) (before : List Tree) :
    LaysOne source before (Callable.classOf G kind before) := by
  unfold Callable.classOf
  refine (lays_keyword "class").next fun word => .look fun cs => ?_
  extract_lets named finish
  have hfinish : ∀ name, LaysOne source (before ++ [word] ++ name) (finish name) := by
    intro name
    refine (lays_typeParameters? hG).next fun generics => ?_
    refine (lays_heritageClauses hG).next fun clauses => ?_
    refine (lays_mark "\x7b").next fun opening => (hG.sub .classMembers rfl).next fun members => ?_
    refine (lays_mark "\x7d").next fun closing => ?_
    extract_lets body
    have hbody : Folds ([opening] ++ members ++ [closing]) [body] :=
      folds_branchAs (.refl _) nofun
    exact lays_pure (folds_branch (hbody.tail (by simp)) (by simp))
  refine .ite ?_ ((hfinish []).after (folds_of_shape (by simp)))
  exact (lays_anyWord _).next fun name => (hfinish _).after (folds_of_shape (by simp))

/-! ## Operators -/

/-- Names with dots between them. -/
theorem lays_dotted (base : Tree) : LaysAll source [base] (TypeGrammar.dotted G base) := by
  unfold TypeGrammar.dotted
  refine .look fun more => .ite ((lays_mark ".").next fun dot => ?_) (lays_pure (.refl _))
  refine .look fun cs => ?_
  extract_lets finish
  have hfinish : ∀ name, LaysAll source [base, dot, name] (finish name) := fun name =>
    (hG.sub (.dotted _) rfl).after (folds_branch (.refl _) nofun)
  exact .ite ((lays_leaf 1).next hfinish) ((lays_anyWord _).next hfinish)

omit hG in
theorem lays_operatorLeaf (text : String) (n : Nat) :
    LaysOne source [] (Expression.operatorLeaf text n) := by
  unfold Expression.operatorLeaf
  exact LaysOne.withField (lays_leaf n) .operator

/-- A choice between two expressions, with its two marks. -/
theorem lays_ternary (x : Context) (condition : Tree) :
    LaysOne source [condition] (Expression.ternary G x condition) := by
  unfold Expression.ternary
  refine (lays_leaf 1).next fun question => (hG.one (.expression .between) rfl).next fun yes => ?_
  refine (lays_mark ":").next fun colon => (hG.one (.expression x) rfl).next fun no => ?_
  exact lays_branch (by simp) nofun

/-- What follows a left side: an operator that binds tighter than the level and its right side,
after which the whole is the left side of what follows; or nothing. -/
theorem lays_climbOn (x : Context) (level : Nat) (left : Tree) :
    LaysAll source [left] (Expression.climbOn G x level left) := by
  have hstop : LaysAll source [left] (pure [left]) := lays_pure (.refl _)
  have hrest : ∀ t, LaysAll source [t] (G.sub (.climbOn x level t)) :=
    fun t => hG.sub (.climbOn x level t) rfl
  unfold Expression.climbOn
  refine .look fun ends => .ite hstop (.look fun cs => ?_)
  cases Expression.binaryAt? x cs with
  | some found =>
    obtain ⟨operator, l⟩ := found
    refine .ite hstop ((lays_operatorLeaf operator _).next fun sign => ?_)
    refine (hG.one (.climb x _) rfl).next fun right => (hrest _).after ?_
    exact folds_branch (folds_of_shape (by simp)) nofun
  | none =>
    refine .ite ((lays_ternary hG x left).bind hrest) ?_
    rw [hG.untyped]
    exact hstop

/-- An operand and the operators after it. -/
theorem lays_climb (x : Context) (level : Nat) :
    LaysAll source [] (Expression.climb G x level) := by
  unfold Expression.climb
  exact (hG.one (.operand x) rfl).bind fun left => hG.sub (.climbOn x level left) rfl

/-- Further expressions, each behind a comma. -/
theorem lays_commas (x : Context) : LaysAll source [] (Expression.commas G x) := by
  unfold Expression.commas
  refine .look fun ends => .look fun comma => .ite ?_ (lays_pure (.refl _))
  refine (lays_mark ",").bind fun comma => (hG.one (.expression x) rfl).next fun next => ?_
  exact (hG.sub (.commas x) rfl).next fun rest => lays_pure (.refl _)

/-- Expressions with commas between them, as one node unless there is only one. -/
theorem lays_expressions (x : Context) : LaysAll source [] (Expression.expressions G x) := by
  unfold Expression.expressions
  refine (hG.one (.expression x) rfl).bind fun first => ?_
  refine (hG.sub (.commas x) rfl).next fun more => ?_
  cases more with
  | nil => exact lays_pure (.refl _)
  | cons comma rest => exact lays_pure (folds_branch (.refl _) nofun)

/-! ## Operands -/

/-- An expression between parentheses. -/
theorem lays_parentheses : LaysOne source [] (Expression.parentheses G) := by
  unfold Expression.parentheses
  refine (lays_mark "(").bind fun opening => ?_
  refine (hG.sub (.expressions .inner) rfl).next fun inside => ?_
  refine (lays_clause? hG false).next fun type => (lays_mark ")").next fun closing => ?_
  exact lays_branch rfl nofun

/-- What starts with a parenthesis: an expression between parentheses, or the parameters of an arrow
function. Either reading lays out its trees from where it began. -/
theorem lays_parenthesesOrArrow (x : Context) :
    LaysOne source [] (Expression.parenthesesOrArrow G x) := by
  intro lo c t d hc hrow h
  rcases parenthesesOrArrow_eq_ok hG.untyped h with h | h
  · exact lays_parentheses hG lo c t d hc hrow h
  · exact lays_arrow hG x [] lo c t d hc hrow h

/-- A name, or an arrow function with it as its parameter. -/
theorem lays_nameOrArrow (x : Context) : LaysOne source [] (Expression.nameOrArrow G x) := by
  unfold Expression.nameOrArrow
  exact .look fun _ => .ite (lays_arrowOfName hG x []) (lays_anyWord _)

/-- What starts with the word for asynchronous functions: one of these, or the word as a name. -/
theorem lays_async (x : Context) : LaysOne source [] (Expression.async G x) := by
  have hname := lays_nameOrArrow hG x
  unfold Expression.async
  extract_lets name word
  refine .look fun starts => .ite ?_ hname
  refine .look fun function => .ite (lays_functionExpression hG) ?_
  refine .look fun arrow => .ite ?_ (.look fun opens => .ite (.either ?_ hname) hname)
  · exact (lays_keyword "async").bind fun w => lays_arrowOfName hG x [w]
  · exact (lays_keyword "async").bind fun w => lays_arrow hG x [w]

/-- Arguments between parentheses. -/
theorem lays_arguments : LaysOne source [] (Expression.arguments G) := by
  unfold Expression.arguments
  refine (lays_mark "(").bind fun opening => (hG.sub (.items .arguments) rfl).next fun items => ?_
  exact (lays_mark ")").next fun closing => lays_branchAs rfl nofun

/-- An item of a list or an argument: an expression or a spread. -/
theorem lays_item : LaysOne source [] (Expression.element G) := by
  unfold Expression.element
  refine .look fun spread => .ite ?_ (hG.one (.expression .inner) rfl)
  refine (lays_mark "...").bind fun dots => (hG.one (.expression .inner) rfl).next fun t => ?_
  exact lays_branch rfl nofun

/-- A construction, with arguments or without. -/
theorem lays_new (x : Context) : LaysOne source [] (Expression.new G x) := by
  unfold Expression.new
  refine (lays_keyword "new").bind fun word => .look fun dotted => .ite ?_ ?_
  · refine (lays_mark ".").next fun dot => (lays_keyword "target").next fun name => ?_
    exact lays_branch rfl nofun
  · refine (hG.one (.constructed x) rfl).next fun base => .look fun cs => ?_
    extract_lets finish
    have hfinish : ∀ generics, LaysOne source ([word, base] ++ generics) (finish generics) := by
      intro generics
      refine .look fun called => .ite ?_ (lays_branch (by simp) nofun)
      exact (lays_arguments hG).next fun args => lays_branch (by simp) nofun
    exact hG.ite_and (hfinish [])

omit hG in
/-- The word for importing, as a call or for what is known of the module. -/
theorem lays_importing : LaysOne source [] Expression.importing := by
  unfold Expression.importing
  refine (lays_keyword "import").bind fun word => .look fun dotted => .ite ?_ ?_
  · refine (lays_mark ".").next fun dot => (lays_keyword "meta").next fun name => ?_
    exact lays_branch rfl nofun
  · exact .look fun called => .ite (lays_pure (folds_of_shape (by simp))) lays_fail

/-- An operand that starts with a word, by the word. -/
theorem lays_wordPrimary (x : Context) (w : String) :
    LaysOne source [] (Expression.wordPrimary G x w) := by
  unfold Expression.wordPrimary
  split
  next => exact lays_leaf _
  next =>
    exact .ite (lays_functionExpression hG) (.ite (lays_classOf hG _ []) (.ite (lays_new hG x)
      (.ite lays_importing (.ite (lays_async hG x) (lays_nameOrArrow hG x)))))

theorem lays_angled (x : Context) : LaysOne source [] (Expression.angled G x) := by
  unfold Expression.angled
  rw [hG.untyped]
  exact hG.one .element rfl

theorem lays_array : LaysOne source [] (Expression.array G) := by
  unfold Expression.array
  refine (lays_mark "[").bind fun opening => (hG.sub (.items .elements) rfl).next fun items => ?_
  exact (lays_mark "]").next fun closing => lays_branch rfl nofun

theorem lays_object : LaysOne source [] (Expression.object G) := by
  unfold Expression.object
  refine (lays_mark "\x7b").bind fun opening => (hG.sub (.items .members) rfl).next fun items => ?_
  exact (lays_mark "\x7d").next fun closing => lays_branch rfl nofun

theorem lays_decorated : LaysOne source [] (Expression.decorated G) := by
  unfold Expression.decorated
  exact (hG.sub .decorators rfl).bind fun decorators => lays_classOf hG _ decorators

/-- An operand without suffixes and signs, by its first character. -/
theorem lays_primary (x : Context) : LaysOne source [] (Expression.primary G x) := by
  unfold Expression.primary
  refine .look fun cs => ?_
  cases cs with
  | nil => exact lays_fail
  | cons c rest =>
    exact .ite (lays_parenthesesOrArrow hG x) (.ite (lays_array hG) (.ite (lays_object hG)
      (.ite (lays_string hG) (.ite (lays_template hG) (.ite lays_regex
        (.ite (lays_angled hG x) (.ite lays_privateName (.ite (lays_decorated hG)
          (.ite (lays_wordPrimary hG x _) lays_number)))))))))

/-! ## Suffixes -/

omit hG in
/-- The name of a member, which may be private. -/
theorem lays_memberName : LaysOne source [] Expression.memberName := by
  unfold Expression.memberName
  refine .look fun cs => ?_
  extract_lets finish
  have hfinish : ∀ name, LaysOne source [name] (finish name) :=
    fun name => lays_pure (folds_withField _)
  exact .ite (lays_privateName.bind hfinish) ((lays_anyWord _).bind hfinish)

/-- An index between brackets. -/
theorem lays_index : LaysAll source [] (Expression.index G) := by
  unfold Expression.index
  refine (lays_mark "[").bind fun opening => ?_
  refine (hG.sub (.expressions .inner) rfl).next fun inside => ?_
  exact (lays_mark "]").next fun closing => lays_pure (folds_of_shape (by simp))

/-- A suffix behind the mark for what may be missing: an index, a call or a name. -/
theorem lays_optionalSuffix (base : Tree) :
    LaysOne source [base] (Expression.optionalSuffix G base) := by
  unfold Expression.optionalSuffix
  refine (lays_leaf 2).next fun chain => .look fun bracket => .ite ?_ ?_
  · exact (lays_index hG).next fun index => lays_branch (by simp) (by simp)
  · refine .look fun called => .ite ?_ (.look fun cs => hG.ite_and ?_)
    · exact (lays_arguments hG).next fun args => lays_branch (by simp) nofun
    · exact lays_memberName.next fun name => lays_branch (by simp) nofun

/-- One suffix of an operand, if there is one: a member, an index, a call, or a template. -/
theorem lays_suffix? (calls : Bool) (base : Tree) :
    Lays source [base] (fun whole => [whole.getD base]) (Expression.suffix? G calls base) := by
  have hsome : ∀ {before ts : List Tree} {k : Kind},
      ts.map Tree.shape = before.map Tree.shape → ts ≠ [] →
        Lays source before (fun whole => [whole.getD base]) (pure (some (Reader.branch k ts))) :=
    fun hshape hne => lays_pure (folds_branch (folds_of_shape hshape) hne)
  unfold Expression.suffix?
  refine .look fun cs => .ite ?_ (.ite ?_ (.ite ?_ (.ite ?_ (.ite ?_ (.ite ?_ (hG.ite_and ?_))))))
  · refine (lays_mark ".").next fun dot => lays_memberName.next fun name => ?_
    exact hsome (by simp) nofun
  · exact (lays_optionalSuffix hG base).bind fun t => lays_pure (.refl _)
  · exact (lays_index hG).next fun index => hsome (by simp) nofun
  · exact (lays_arguments hG).next fun args => hsome (by simp) nofun
  · exact (lays_template hG).next fun args => hsome (by simp) nofun
  · exact (lays_operatorLeaf _ 2).next fun sign => hsome (by simp) nofun
  · rw [hG.untyped]
    exact lays_pure (.refl _)

/-- Suffixes of an operand, each of the whole before it. -/
theorem lays_suffixes (x : Context) (calls : Bool) (base : Tree) :
    LaysAll source [base] (Expression.suffixes G x calls base) := by
  unfold Expression.suffixes
  refine .look fun ends => .ite (lays_pure (.refl _)) ?_
  refine (lays_suffix? hG calls base).bind fun whole => ?_
  cases whole with
  | some whole => exact hG.sub (.suffixes x calls whole) rfl
  | none => exact lays_pure (.refl _)

/-- What is constructed: an operand with suffixes but without calls. -/
theorem lays_constructed (x : Context) : LaysAll source [] (Expression.constructed G x) := by
  have hrest : ∀ base, LaysAll source [base] (G.sub (.suffixes x false base)) :=
    fun base => hG.sub (.suffixes x false base) rfl
  unfold Expression.constructed
  refine .look fun again => ?_
  extract_lets finish
  exact .ite ((lays_new hG x).bind hrest) ((lays_primary hG x).bind hrest)

/-! ## Assignments and unary operators -/

/-- An assignment to what is on the left, or that alone. -/
theorem lays_assignment (x : Context) (left : Tree) :
    LaysOne source [left] (Expression.assignment G x left) := by
  unfold Expression.assignment
  refine .look fun cs => .ite (lays_pure (.refl _)) (.ite ?_ ?_)
  · refine (lays_mark "=").next fun sign => (hG.one (.expression x) rfl).next fun right => ?_
    exact lays_branch (by simp) nofun
  · cases Expression.augmenting.find? fun m => Reader.startsWithMark m cs with
    | none => exact lays_pure (.refl _)
    | some m =>
      refine (lays_operatorLeaf _ _).next fun sign => ?_
      exact (hG.one (.expression x) rfl).next fun right => lays_branch (by simp) nofun

/-- An assignment to a pattern. -/
theorem lays_patternAssignment (x : Context) :
    LaysOne source [] (Expression.patternAssignment G x) := by
  unfold Expression.patternAssignment
  refine (lays_destructuring hG).bind fun left => (lays_mark "=").next fun sign => ?_
  exact (hG.one (.expression x) rfl).next fun right => lays_branch (by simp) nofun

/-- An operand that may be assigned to. What looks like a pattern is tried as an operand first. -/
theorem lays_assignable (x : Context) : LaysOne source [] (Expression.assignable G x) := by
  unfold Expression.assignable
  extract_lets plain
  have hplain : LaysOne source [] plain := by
    refine (lays_primary hG x).bind fun base => ?_
    refine (hG.one (.suffixes x true base) rfl).bind fun whole => lays_assignment hG x whole
  refine .look fun pattern => .ite (.either ?_ (lays_patternAssignment hG x)) hplain
  exact hplain.bind fun t => .look fun _ => .ite lays_fail (lays_pure (.refl _))

/-- A sign and its operand. -/
theorem lays_unary (x : Context) (kind : Kind) (operator : String) :
    LaysOne source [] (Expression.unary G x kind operator) := by
  unfold Expression.unary
  refine (lays_operatorLeaf operator _).bind fun sign => (hG.one (.operand x) rfl).next fun t => ?_
  exact lays_branch (by simp) nofun

/-- A yield alone, with an expression, or with what to go through. -/
theorem lays_yield (x : Context) : LaysOne source [] (Expression.yield_ G x) := by
  unfold Expression.yield_
  refine (lays_keyword "yield").bind fun word => ?_
  have halone : LaysOne source [word] (pure (Reader.branch .yieldExpression [word])) :=
    lays_branch rfl nofun
  refine .look fun ends => .ite halone (.look fun all => .ite ?_ (.look fun cs => .ite ?_ halone))
  · refine (lays_mark "*").next fun star => (hG.one (.expression x) rfl).next fun t => ?_
    exact lays_branch rfl nofun
  · exact (hG.one (.expression x) rfl).next fun t => lays_branch rfl nofun

/-- An operand: a sign, a word that takes one, or what may be assigned to. -/
theorem lays_operand (x : Context) : LaysOne source [] (Expression.operand G x) := by
  have hassignable := lays_assignable hG x
  unfold Expression.operand
  refine .look fun cs => .ite ?_ ?_
  · refine .ite (lays_unary hG x _ _) (.ite ?_ (.ite (lays_yield hG x) hassignable))
    refine (lays_keyword "await").bind fun word => (hG.one (.operand x) rfl).next fun t => ?_
    exact lays_branch rfl nofun
  · cases Expression.signs.find? fun m => Reader.startsWithMark m cs with
    | some m => exact lays_unary hG x _ m
    | none => exact .ite (lays_unary hG x _ _) (.ite (lays_unary hG x _ _) hassignable)

end OptionTypes.Syntax
