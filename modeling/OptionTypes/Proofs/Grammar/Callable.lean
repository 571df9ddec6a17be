import OptionTypes.Proofs.Grammar.Literal

/-!
# Patterns, functions and classes give intact trees

In a script without types a parameter is a pattern, and neither a signature nor a field has a type.
What must have certain parts are the members of objects and classes: a pair its key and its value, a
method its name.
-/

namespace OptionTypes.Syntax

open Evaluation (partsOf)

variable {G : Grammar} (hG : G.Plain)
include hG

/-! ## Patterns

A pattern is never evaluated, so its nodes may have any children: each rule below only has to give
intact parts. The one exception is a name in brackets, which holds an operand. -/

omit hG in
theorem yields_privateName : Yields IntactOperand Pattern.privateName := by
  unfold Pattern.privateName
  refine .next fun cs => ?_
  split
  · exact .ite yields_fail (yields_leaf_kind rfl _)
  · exact yields_fail

/-- A key is intact. The only kind with a demand is the computed one, whose brackets hold the
operand that the goal for expressions gives. -/
theorem yields_key : Yields Intact (Pattern.key G) := by
  unfold Pattern.key
  refine .next fun cs => ?_
  cases cs with
  | nil => exact yields_fail
  | cons c rest =>
    refine .ite ?_ (.ite (yields_string hG).intact (.ite yields_privateName.intact
      (.ite (yields_anyWord rfl).intact yields_number.intact)))
    refine (yields_mark "[").bind fun opening hopening => ?_
    refine (hG.one (.expression .inner) trivial).bind fun t ht => ?_
    refine (yields_mark "]").bind fun closing hclosing => yields_pure ?_
    -- a name in brackets is evaluated by what it holds
    have hinside : AllIntact [t] := by simpa using ht.intact
    exact (operand_between rfl (fun _ => rfl) hopening hclosing hinside
      ⟨t, List.mem_singleton.mpr rfl, ht.isOperand⟩).intact

/-- A standard value is its sign and an expression, and the mark of its place changes nothing. -/
theorem yields_standard :
    Yields (fun p => Intact p.1 ∧ Intact p.2) (Pattern.standard G) := by
  unfold Pattern.standard
  refine (yields_mark "=").bind fun sign hsign => ?_
  refine (hG.one (.expression .inner) trivial).bind fun t ht => yields_pure ⟨hsign, ?_⟩
  exact intact_withField.mpr ht.intact

theorem yields_targetWithStandard : Yields Intact (Pattern.targetWithStandard G) := by
  unfold Pattern.targetWithStandard
  refine (hG.one .target trivial).bind fun target htarget => .next fun more => ?_
  refine .ite ?_ (yields_pure htarget)
  refine (yields_standard hG).bind fun p hp => yields_pure (intact_branch rfl ?_)
  have htarget : Intact target := htarget
  simp [htarget, hp.1, hp.2]

theorem yields_rest : Yields Intact (Pattern.rest G) := by
  unfold Pattern.rest
  refine (yields_mark "...").bind fun dots hdots => ?_
  refine (hG.one .target trivial).bind fun t ht => yields_pure (intact_branch rfl ?_)
  have ht : Intact t := ht
  simp [hdots, ht]

theorem yields_patternElement : Yields Intact (Pattern.element G) := by
  unfold Pattern.element
  exact .next fun _ => .ite (yields_rest hG) (yields_targetWithStandard hG)

/-- A member of a pattern is the rest, a pair, or a name alone. The name alone is read as a key
first and renamed afterwards, to a kind without demands. -/
theorem yields_patternMember : Yields Intact (Pattern.member G) := by
  unfold Pattern.member
  refine .next fun dots => .ite (yields_rest hG) ?_
  refine (yields_key hG).bind fun name hname => .next fun colon => .ite ?_ (.ite ?_ yields_fail)
  · refine (yields_mark ":").bind fun colon hcolon => ?_
    refine (yields_targetWithStandard hG).bind fun value hvalue => yields_pure ?_
    exact intact_branch rfl (by simp [hname, hcolon, hvalue])
  · have hshort : Intact (name.withKind .shorthandPropertyIdentifierPattern) := hname.withKind rfl
    refine .next fun more => .ite ?_ (yields_pure hshort)
    refine (yields_standard hG).bind fun p hp => yields_pure (intact_branch rfl ?_)
    simp [hshort, hp.1, hp.2]

/-- Both forms of a pattern hold a sequence of items between two marks. -/
theorem yields_destructuring : Yields Intact (Pattern.destructuring G) := by
  unfold Pattern.destructuring
  refine .next fun brace => .ite ?_ ?_
  · refine (yields_mark "\x7b").bind fun opening hopening => ?_
    refine (hG.items .patternMembers rfl).bind fun items hitems => ?_
    refine (yields_mark "\x7d").bind fun closing hclosing => yields_pure (intact_branch rfl ?_)
    simp [hopening, hitems, hclosing]
  · refine (yields_mark "[").bind fun opening hopening => ?_
    refine (hG.items .patternElements rfl).bind fun items hitems => ?_
    refine (yields_mark "]").bind fun closing hclosing => yields_pure (intact_branch rfl ?_)
    simp [hopening, hitems, hclosing]

theorem yields_binding : Yields Intact (Pattern.binding G) := by
  unfold Pattern.binding
  exact .next fun _ => .ite (yields_destructuring hG) (yields_anyWord rfl).intact

/-- A target is a pattern, or an operand with its suffixes that ends in a place to assign to. -/
theorem yields_target : Yields Intact (Pattern.target G) := by
  unfold Pattern.target
  refine .next fun pattern => .ite (yields_destructuring hG) (.next fun this => ?_)
  extract_lets finish
  -- suffixes go on from an operand, which both beginnings give
  have hfinish : ∀ base, IntactOperand base → Yields Intact (finish base) := by
    intro base hbase
    refine (hG.one (.suffixes .inner true base) hbase).bind fun whole hwhole => ?_
    exact .ite (yields_pure hwhole.intact) yields_fail
  refine .ite ?_ ?_
  · exact (yields_leaf_kind rfl 4).bind hfinish
  · exact (yields_anyWord rfl).bind hfinish

omit hG in
/-- A modifier is a keyword; the words for access and for overriding have a node of their own around
them. -/
theorem yields_modifier (w : String) : Yields Intact (Pattern.modifier w) := by
  unfold Pattern.modifier
  refine (yields_keyword w).bind fun word hword => ?_
  have hone : AllIntact [word] := by simpa using hword
  exact .ite (yields_pure (intact_branch rfl hone))
    (.ite (yields_pure (intact_branch rfl hone)) (yields_pure hword))

/-- Modifiers are read as long as one of the words is there; the rest of them is a goal of its
own. -/
theorem yields_modifiers (words : List String) : Yields AllIntact (Pattern.modifiers G words) := by
  unfold Pattern.modifiers
  refine .next fun cs => ?_
  cases words.find? fun w => Pattern.modifies w cs with
  | none => exact yields_pure allIntact_nil
  | some w => exact (yields_modifier w).cons (hG.all (.modifiers words) trivial fun _ h => h)

/-- In a script without types a parameter is an element of a pattern. -/
theorem yields_parameter : Yields Intact (Pattern.parameter G) := by
  unfold Pattern.parameter
  rw [hG.untyped]
  exact yields_patternElement hG

theorem yields_formals : Yields Intact (Pattern.parameters G) := by
  unfold Pattern.parameters
  refine (yields_mark "(").bind fun opening hopening => ?_
  refine (hG.items .parameters rfl).bind fun items hitems => ?_
  refine (yields_mark ")").bind fun closing hclosing => yields_pure ?_
  exact intact_withField.mpr (intact_branch rfl (by simp [hopening, hitems, hclosing]))

/-! ## Functions

Of the parts of a function only its body and its parameters are read without types: the rules for
type parameters, the type of a field and the type of a result give nothing there. -/

theorem yields_typeParameters? : Yields AllIntact (TypeGrammar.parameters? G) := by
  unfold TypeGrammar.parameters?
  exact .next fun _ => hG.ite_and (yields_pure allIntact_nil)

/-- Without types there is no type of a field. -/
theorem yields_clause? (ends : Bool) : Yields (fun ts => ts = []) (TypeGrammar.clause? G ends) := by
  unfold TypeGrammar.clause?
  exact .next fun _ => hG.ite_and (yields_pure rfl)

/-- Without types there is no type of a result. -/
theorem yields_result? (ends : Bool) : Yields AllIntact (TypeGrammar.result? G ends) := by
  unfold TypeGrammar.result?
  exact .next fun _ => hG.ite_and (yields_pure allIntact_nil)

/-- A signature is its parameters, between type parameters and a type that are not there. -/
theorem yields_signature (ends : Bool) : Yields AllIntact (Callable.signature G ends) := by
  unfold Callable.signature
  refine (yields_typeParameters? hG).bind fun generics hgenerics => ?_
  refine (yields_formals hG).bind fun formals hformals => ?_
  refine (yields_result? hG ends).bind fun result hresult => yields_pure ?_
  simp [hgenerics, hformals, hresult]

/-- A missing semicolon behind a block belongs to it, so the block may reach further than its
closing brace. That is no matter for its parts. -/
theorem yields_block (operator : Bool) : Yields Intact (Callable.block G operator) := by
  unfold Callable.block
  refine (yields_mark "\x7b").bind fun opening hopening => ?_
  refine (hG.all (.statements .brace) trivial fun _ h => h).bind fun inside hinside => ?_
  refine (yields_mark "\x7d").bind fun closing hclosing => .next fun _ => .next fun stop => ?_
  exact yields_pure (intact_branchTo rfl (by simp [hopening, hinside, hclosing]))

theorem yields_body (operator : Bool) : Yields Intact (Callable.body G operator) := by
  unfold Callable.body
  exact Yields.withField (hG.one (.block operator) trivial) .body

omit hG in
/-- The words before the name of a function; the second part of the result says whether a star is
among them. -/
theorem yields_head : Yields (fun p => AllIntact p.1) Callable.head := by
  unfold Callable.head
  refine (yields_keyword? "async").bind fun async hasync => ?_
  refine (yields_keyword "function").bind fun word hword => ?_
  refine (yields_mark? "*").bind fun star hstar => yields_pure ?_
  simp [hasync, hword, hstar]

/-- A function as a value is an operand, with a name or without one. -/
theorem yields_functionExpression : Yields IntactOperand (Callable.expression G) := by
  unfold Callable.expression
  refine yields_head.bind fun p hp => .next fun named => ?_
  extract_lets kind finish
  -- the star decides on the kind, and neither kind has demands
  have hkind : isFree kind = true := by
    show isFree (if p.2 then .generatorFunction else .functionExpression) = true
    cases p.2
    · rfl
    · rfl
  have hp : AllIntact p.1 := hp
  -- what follows is the same with a name and without one
  have hfinish : ∀ name, AllIntact name → Yields IntactOperand (finish name) := by
    intro name hname
    refine (yields_signature hG false).bind fun parts hparts => ?_
    refine (yields_body hG true).bind fun body hbody => yields_pure (operand_branch hkind ?_)
    simp [hp, hname, hparts, hbody]
  refine .ite ?_ (hfinish [] allIntact_nil)
  exact (yields_anyWord rfl).bind fun name hname => hfinish _ (by simpa using hname.intact)

/-- A function as a statement has a name and a body. Without a body it is a signature, which is read
in scripts with types only. -/
theorem yields_functionDeclaration : Yields Intact (Callable.declaration G) := by
  unfold Callable.declaration
  refine yields_head.bind fun p hp => (yields_anyWord rfl).bind fun word hword => ?_
  refine (yields_signature hG true).bind fun parts hparts => .next fun braced => ?_
  refine .ite ?_ (hG.ite yields_fail)
  refine (yields_body hG false).bind fun body hbody => yields_pure (intact_branch ?_ ?_)
  · cases p.2
    · rfl
    · rfl
  · have hp : AllIntact p.1 := hp
    simp [hp, hword.intact, hparts, hbody]

/-- The body of an arrow is a block or an expression; the sign before it is a part as well. -/
theorem yields_arrowBody (x : Context) : Yields AllIntact (Callable.arrowBody G x) := by
  unfold Callable.arrowBody
  refine (yields_mark "=>").bind fun arrow harrow => .next fun braced => .ite ?_ ?_
  · refine (yields_body hG true).bind fun body hbody => yields_pure ?_
    simp [harrow, hbody]
  · refine (hG.one (.expression x) trivial).bind fun t ht => yields_pure ?_
    simp [harrow, ht.intact]

/-- An arrow from one name, which stands for all its parameters. -/
theorem yields_arrowOfName (x : Context) {async : List Tree} (hasync : AllIntact async) :
    Yields IntactOperand (Callable.arrowOfName G x async) := by
  unfold Callable.arrowOfName
  refine (yields_anyWord rfl).bind fun name hname => ?_
  refine (yields_arrowBody hG x).bind fun body hbody => yields_pure (operand_branch rfl ?_)
  simp [hasync, hname.intact, hbody]

/-- An arrow from parameters in parentheses. -/
theorem yields_arrow (x : Context) {async : List Tree} (hasync : AllIntact async) :
    Yields IntactOperand (Callable.arrow G x async) := by
  unfold Callable.arrow
  refine (yields_signature hG false).bind fun parts hparts => ?_
  refine (yields_arrowBody hG x).bind fun body hbody => yields_pure (operand_branch rfl ?_)
  simp [hasync, hparts, hbody]

/-! ## Members of objects

An object is evaluated by the keys and values of its pairs and by the names of its methods, so here
the fields of the parts matter: `operand_of_parts` asks for them. -/

/-- A value is an expression with the mark that pairs and fields look for. -/
theorem yields_value (x : Context) :
    Yields (fun t => Intact t ∧ t.field = some .value) (Callable.value G x) := by
  unfold Callable.value
  refine (hG.one (.expression x) trivial).bind fun t ht => yields_pure ⟨?_, field_withField _ t⟩
  exact intact_withField.mpr ht.intact

/-- A pair has its key and its value, also where the value is marked as missing. -/
theorem yields_pair {name : Tree} (hname : Intact name) : Yields Intact (Callable.pair G name) := by
  have hpair : ∀ colon value : Tree, Intact colon → Intact value → value.field = some .value →
      Intact (Reader.branch .pair ([name.withField .key, colon] ++ [value])) := by
    intro colon value hcolon hvalue hfield
    refine (operand_of_parts rfl rfl ?_ ?_).intact
    · simp [partsOf, hfield]
    · simp [hname, hcolon, hvalue]
  unfold Callable.pair
  refine (yields_mark ":").bind fun colon hcolon => ?_
  refine .next fun comma => .next fun brace => .ite ?_ ?_
  · refine .next fun n => yields_pure (hpair colon _ hcolon ?_ rfl)
    exact intact_of_isFreeLabel rfl allIntact_nil
  · refine (yields_value hG .inner).bind fun value hvalue => yields_pure ?_
    exact hpair colon value hcolon hvalue.1 hvalue.2

omit hG in
/-- A method has its name. -/
theorem intact_method {before after : List Tree} {name : Tree} (hbefore : AllIntact before)
    (hname : Intact name) (hafter : AllIntact after) :
    Intact (Reader.branch .methodDefinition (before ++ [name.withField .name] ++ after)) := by
  refine (operand_of_parts rfl rfl ?_ ?_).intact
  · simp [partsOf]
  · simp [hbefore, hname, hafter]

/-- A member of an object is a spread, a method, a pair or a name alone. Decorators and modifiers
come before each of the last three, and without types no question mark or exclamation mark
follows. -/
theorem yields_objectMember : Yields Intact (Callable.objectMember G) := by
  unfold Callable.objectMember
  refine .next fun spread => .ite ?_ ?_
  · refine (yields_mark "...").bind fun dots hdots => ?_
    refine (hG.one (.expression .inner) trivial).bind fun t ht => yields_pure ?_
    exact (operand_spread hdots ht).intact
  · refine (hG.all .decorators trivial fun _ h => h).bind fun decorators hdecorators => ?_
    refine (hG.all (.modifiers _) trivial fun _ h => h).bind fun words hwords => ?_
    refine (yields_mark? "*").bind fun star hstar => ?_
    refine (yields_key hG).bind fun name hname => ?_
    have hbefore : AllIntact (decorators ++ words ++ star) := by
      simp [hdecorators, hwords, hstar]
    -- the marks that belong to types are not looked for
    simp only [hG.untyped, Bool.false_eq_true, if_false, pure_bind]
    refine .next fun signed => .ite ?_ (.ite yields_fail (.next fun colon => .ite ?_ ?_))
    · -- parameters make a method of it, a colon makes a pair of it, and otherwise it is a name
      -- alone
      refine (yields_signature hG false).bind fun parts hparts => ?_
      refine (yields_body hG false).bind fun body hbody => yields_pure ?_
      have hafter : AllIntact (parts ++ [body]) := by simp [hparts, hbody]
      simpa using intact_method hbefore hname hafter
    · exact yields_pair hG hname
    · exact .ite (yields_pure (hname.withKind rfl)) yields_fail

/-! ## Classes

A class is evaluated as a whole, so nothing is asked of its members but what is asked of a method
anywhere: its name. -/

/-- A decorator is its sign and an expression in parentheses, or a dotted name that may be
called. -/
theorem yields_decorator : Yields Intact (Callable.decorator G) := by
  unfold Callable.decorator
  refine (yields_part "@").bind fun sign hsign => .next fun braced => ?_
  extract_lets finish
  -- the sign and the node around both are the same in every case
  have hfinish : ∀ subject, Intact subject → Yields Intact (finish subject) := by
    intro subject hsubject
    exact yields_pure (intact_withField.mpr (intact_branch rfl (by simp [hsign, hsubject])))
  refine .ite ?_ ?_
  · -- an expression in parentheses, or a dotted name with arguments or without
    refine (yields_mark "(").bind fun opening hopening => ?_
    refine (hG.one (.expression .inner) trivial).bind fun t ht => ?_
    refine (yields_mark ")").bind fun closing hclosing => hfinish _ ?_
    have hinside : AllIntact [t] := by simpa using ht.intact
    exact (operand_between rfl (fun _ => rfl) hopening hclosing hinside
      ⟨t, List.mem_singleton.mpr rfl, ht.isOperand⟩).intact
  · refine (yields_anyWord rfl).bind fun name hname => ?_
    refine (hG.one (.dotted name) hname).bind fun whole hwhole => .next fun after => ?_
    have hwhole : Intact whole := hwhole.intact
    refine .ite ?_ (hfinish whole hwhole)
    refine (yields_mark "(").bind fun opening hopening => ?_
    refine (hG.items .arguments rfl).bind fun items hitems => ?_
    refine (yields_mark ")").bind fun closing hclosing => hfinish _ ?_
    have hargs : Intact (Reader.branch .arguments (opening :: (items ++ [closing]))) :=
      intact_branch rfl (by simp [hopening, hitems, hclosing])
    exact intact_branch rfl (by simp [hwhole, hargs])

theorem yields_decorators : Yields AllIntact (Callable.decorators G) := by
  unfold Callable.decorators
  refine .next fun cs => .ite ?_ (yields_pure allIntact_nil)
  exact (yields_decorator hG).cons (hG.all .decorators trivial fun _ h => h)

/-- A block that is run for a class is a keyword and a body. -/
theorem yields_staticBlock : Yields Intact (Callable.staticBlock G) := by
  unfold Callable.staticBlock
  refine (yields_keyword "static").bind fun word hword => ?_
  refine (yields_body hG false).bind fun body hbody => yields_pure ?_
  exact intact_withField.mpr (intact_branch rfl (by simp [hword, hbody]))

/-- The end of a member is read with the types only. -/
theorem yields_memberEnd (s : Semicolon.Setting) : Yields AllIntact (Callable.memberEnd G s) := by
  unfold Callable.memberEnd
  exact .next fun _ => hG.ite_and (yields_semicolon s)

/-- A field is intact with a value and without one. What is read before its name and behind it is
intact by hypothesis, and in a script without types there is nothing between name and value. -/
theorem yields_field {before after : List Tree} {name : Tree} (hbefore : AllIntact before)
    (hname : Intact name) (hafter : AllIntact after) :
    Yields AllIntact (Callable.field G before name after) := by
  unfold Callable.field
  simp only [hG.untyped, Bool.false_eq_true, if_false]
  refine (yields_clause? hG true).bind fun type htype => .next fun valued => ?_
  -- the node and the end of the member are the same in both cases
  have hfinish : ∀ value : List Tree, AllIntact value → Yields AllIntact (do
      let whole := Reader.branch .fieldDefinition
        (before ++ [name.withField .property] ++ after ++ type ++ value)
      return whole.withField .member
        :: (← Callable.memberEnd G (G.setting (!value.isEmpty)))) := by
    intro value hvalue
    refine (yields_memberEnd hG _).bind fun last hlast => yields_pure ?_
    refine allIntact_cons.mpr ⟨intact_withField.mpr (intact_branch rfl ?_), hlast⟩
    simp [hbefore, hname, hafter, htype, hvalue]
  refine .ite ?_ (hfinish [] allIntact_nil)
  refine (yields_mark "=").bind fun sign hsign => ?_
  refine (yields_value hG .statement).bind fun value hvalue => hfinish _ ?_
  simp [hsign, hvalue.1]

/-- A method of a class has its name and a body, where a semicolon may follow. -/
theorem yields_method {before after : List Tree} {name : Tree} (hbefore : AllIntact before)
    (hname : Intact name) (hafter : AllIntact after) :
    Yields AllIntact (Callable.method G before name after) := by
  unfold Callable.method
  refine (yields_signature hG true).bind fun parts hparts => .next fun braced => ?_
  refine .ite ?_ (hG.ite yields_fail)
  refine (yields_body hG false).bind fun body hbody => ?_
  refine (yields_mark? ";").bind fun last hlast => yields_pure ?_
  have hrest : AllIntact (after ++ parts ++ [body]) := by simp [hafter, hparts, hbody]
  have hwhole := intact_method hbefore hname hrest
  rw [← List.append_assoc, ← List.append_assoc] at hwhole
  exact allIntact_cons.mpr ⟨intact_withField.mpr hwhole, hlast⟩

/-- A member of a class is a semicolon, a block, a method or a field. -/
theorem yields_classMember : Yields AllIntact (Callable.classMember G) := by
  unfold Callable.classMember
  refine .next fun cs => .ite (yields_mark ";").single (.ite (yields_staticBlock hG).single ?_)
  refine (hG.all .decorators trivial fun _ h => h).bind fun decorators hdecorators => ?_
  refine (hG.all (.modifiers _) trivial fun _ h => h).bind fun words hwords => ?_
  have hbefore : AllIntact (decorators ++ words) := by simp [hdecorators, hwords]
  simp only [hG.untyped, Bool.not_false, if_true, pure_bind]
  -- the index of a class is for types
  refine .either yields_fail ?_
  refine (yields_mark? "*").bind fun star hstar => (yields_key hG).bind fun name hname => ?_
  refine .next fun signed => .ite ?_ (.ite ?_ yields_fail)
  · exact yields_method hG (allIntact_append.mpr ⟨hbefore, hstar⟩) hname allIntact_nil
  · exact yields_field hG hbefore hname allIntact_nil

/-- The members of a class: the first, and the goal for the others. -/
theorem yields_classMembers : Yields AllIntact (Callable.classMembers G) := by
  unfold Callable.classMembers
  refine .next fun closed => .ite (yields_pure allIntact_nil) ?_
  refine (yields_classMember hG).bind fun first hfirst => ?_
  refine (hG.all .classMembers trivial fun _ h => h).bind fun rest hrest => yields_pure ?_
  exact allIntact_append.mpr ⟨hfirst, hrest⟩

/-- What a class extends is one operand behind a keyword. -/
theorem yields_heritageClauses : Yields AllIntact (Callable.heritageClauses G) := by
  unfold Callable.heritageClauses
  refine hG.ite (.next fun derived => .ite ?_ (yields_pure allIntact_nil))
  refine (yields_keyword "extends").bind fun word hword => ?_
  refine (hG.one (.operand .inner) trivial).bind fun t ht => yields_pure ?_
  have hwhole : Intact (Reader.branch .classHeritage [word, t]) :=
    intact_branch rfl (by simp [hword, ht.intact])
  simpa using hwhole

/-- A class is an operand of any kind without demands, whatever intact trees come before its
keyword. -/
theorem yields_classOf {kind : Kind} (hkind : isFree kind = true) {before : List Tree}
    (hbefore : AllIntact before) : Yields IntactOperand (Callable.classOf G kind before) := by
  unfold Callable.classOf
  refine (yields_keyword "class").bind fun word hword => .next fun cs => ?_
  extract_lets named finish
  -- its name may be left out, and the rest is read alike
  have hfinish : ∀ name, AllIntact name → Yields IntactOperand (finish name) := by
    intro name hname
    refine (yields_typeParameters? hG).bind fun generics hgenerics => ?_
    refine (yields_heritageClauses hG).bind fun clauses hclauses => ?_
    refine (yields_mark "\x7b").bind fun opening hopening => ?_
    refine (hG.all .classMembers trivial fun _ h => h).bind fun members hmembers => ?_
    refine (yields_mark "\x7d").bind fun closing hclosing => ?_
    -- the members with their braces are one node
    have hbody : Intact (Reader.branch .classBody (opening :: (members ++ [closing]))) :=
      intact_branch rfl (by simp [hopening, hmembers, hclosing])
    refine yields_pure (operand_branch hkind ?_)
    simp [hbefore, hword, hname, hgenerics, hclauses, hbody]
  refine .ite ?_ (hfinish [] allIntact_nil)
  exact (yields_anyWord rfl).bind fun name hname => hfinish _ (by simpa using hname.intact)

end OptionTypes.Syntax
