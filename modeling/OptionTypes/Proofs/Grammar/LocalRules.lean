import OptionTypes.Proofs.Grammar.Locality

/-!
# The rules of the grammar are local

Each rule reads the same from the same place if the goals below it do. Nothing but the way in which
a rule combines readers is needed for that; a rule that looks at what it has read is split into its
cases first.

* `local_produce`: the rule of any goal is local.
* `local_readGoal`: so is reading to any depth.
-/

namespace OptionTypes.Syntax

-- some rules are long sequences with several alternatives
set_option synthInstance.maxSize 5000

variable {G : Grammar} [hG : G.Local]

/-! ## Literals -/

instance (quote : Char) : Local (Literal.stringParts G quote) := by
  unfold Literal.stringParts
  refine .next fun cs => ?_
  split
  · infer_instance
  · refine .ite inferInstance (.ite ?_ inferInstance)
    split <;> infer_instance

instance : Local (Literal.string G) := by
  unfold Literal.string
  refine .next fun cs => ?_
  split <;> infer_instance

instance : Local (Literal.substitution G) := by unfold Literal.substitution; infer_instance

instance : Local (Literal.templateParts G) := by
  unfold Literal.templateParts
  refine .next fun cs => ?_
  split
  · infer_instance
  · infer_instance
  · infer_instance
  · split <;> infer_instance
  · infer_instance

instance : Local (Literal.template G) := by unfold Literal.template; infer_instance

instance : Local Literal.regex := by
  unfold Literal.regex
  refine .next fun cs => ?_
  split
  · split <;> infer_instance
  · infer_instance

instance : Local Literal.number := by unfold Literal.number; infer_instance

/-! ## Types -/

instance : Local (TypeGrammar.group G) := by
  unfold TypeGrammar.group
  refine .next fun cs => ?_
  split <;> infer_instance

instance : Local (TypeGrammar.balanced G) := by
  unfold TypeGrammar.balanced
  refine .next fun cs => ?_
  split <;> infer_instance

instance : Local (TypeGrammar.arguments G) := by unfold TypeGrammar.arguments; infer_instance
instance : Local (TypeGrammar.bound? G) := by unfold TypeGrammar.bound?; infer_instance
instance : Local (TypeGrammar.parameter G) := by unfold TypeGrammar.parameter; infer_instance
instance : Local (TypeGrammar.parameters G) := by unfold TypeGrammar.parameters; infer_instance
instance : Local (TypeGrammar.parameters? G) := by unfold TypeGrammar.parameters?; infer_instance

instance (ends : Bool) : Local (TypeGrammar.function G ends) := by
  unfold TypeGrammar.function; infer_instance

instance (base : Tree) : Local (TypeGrammar.dotted G base) := by
  unfold TypeGrammar.dotted; infer_instance

instance : Local (TypeGrammar.named G) := by
  unfold TypeGrammar.named
  refine .next fun word => .next fun name => .next fun cs => .ite (.next fun args => ?_) ?_
  · split <;> infer_instance
  · infer_instance

instance (ends : Bool) : Local (TypeGrammar.primary G ends) := by
  unfold TypeGrammar.primary
  refine .next fun cs => ?_
  split <;> infer_instance

instance (ends : Bool) (base : Tree) : Local (TypeGrammar.suffixes G ends base) := by
  unfold TypeGrammar.suffixes; infer_instance

instance (ends : Bool) (left : Tree) : Local (TypeGrammar.typeOn G ends left) := by
  unfold TypeGrammar.typeOn; infer_instance

instance (ends : Bool) : Local (TypeGrammar.type G ends) := by
  unfold TypeGrammar.type; infer_instance

instance (ends : Bool) : Local (TypeGrammar.typeList G ends) := by
  unfold TypeGrammar.typeList; infer_instance

instance (ends : Bool) : Local (TypeGrammar.clause G ends) := by
  unfold TypeGrammar.clause; infer_instance

instance (ends : Bool) : Local (TypeGrammar.clause? G ends) := by
  unfold TypeGrammar.clause?; infer_instance

instance (ends : Bool) : Local (TypeGrammar.result G ends) := by
  unfold TypeGrammar.result; infer_instance

instance (ends : Bool) : Local (TypeGrammar.result? G ends) := by
  unfold TypeGrammar.result?; infer_instance

/-! ## Names, patterns and parameters -/

instance : Local Pattern.privateName := by
  unfold Pattern.privateName
  refine .next fun cs => ?_
  split <;> infer_instance

instance : Local (Pattern.key G) := by
  unfold Pattern.key
  refine .next fun cs => ?_
  split <;> infer_instance

instance : Local (Pattern.standard G) := by unfold Pattern.standard; infer_instance

instance : Local (Pattern.targetWithStandard G) := by
  unfold Pattern.targetWithStandard; infer_instance

instance : Local (Pattern.rest G) := by unfold Pattern.rest; infer_instance
instance : Local (Pattern.element G) := by unfold Pattern.element; infer_instance
instance : Local (Pattern.member G) := by unfold Pattern.member; infer_instance
instance : Local (Pattern.destructuring G) := by unfold Pattern.destructuring; infer_instance
instance : Local Pattern.atDestructuring := by unfold Pattern.atDestructuring; infer_instance

instance : Local (Pattern.binding G) := by unfold Pattern.binding; infer_instance
instance : Local (Pattern.target G) := by unfold Pattern.target; infer_instance
instance (w : String) : Local (Pattern.modifier w) := by unfold Pattern.modifier; infer_instance

instance (words : List String) : Local (Pattern.modifiers G words) := by
  unfold Pattern.modifiers
  refine .next fun cs => ?_
  split <;> infer_instance

instance : Local (Pattern.typedParameter G) := by unfold Pattern.typedParameter; infer_instance
instance : Local (Pattern.parameter G) := by unfold Pattern.parameter; infer_instance
instance : Local (Pattern.parameters G) := by unfold Pattern.parameters; infer_instance

/-! ## Functions and classes -/

instance (ends : Bool) : Local (Callable.signature G ends) := by
  unfold Callable.signature; infer_instance

instance (operator : Bool) : Local (Callable.block G operator) := by
  unfold Callable.block; infer_instance

instance (operator : Bool) : Local (Callable.body G operator) := by
  unfold Callable.body; infer_instance

instance : Local Callable.head := by unfold Callable.head; infer_instance

instance : Local (Callable.expression G) := by unfold Callable.expression; infer_instance
instance : Local (Callable.declaration G) := by unfold Callable.declaration; infer_instance

instance (x : Context) : Local (Callable.arrowBody G x) := by
  unfold Callable.arrowBody; infer_instance

instance (x : Context) (async : List Tree) : Local (Callable.arrowOfName G x async) := by
  unfold Callable.arrowOfName; infer_instance

instance (x : Context) (async : List Tree) : Local (Callable.arrow G x async) := by
  unfold Callable.arrow; infer_instance

instance (x : Context) : Local (Callable.value G x) := by unfold Callable.value; infer_instance
instance : Local (Callable.atSignature G) := by unfold Callable.atSignature; infer_instance
instance (name : Tree) : Local (Callable.pair G name) := by unfold Callable.pair; infer_instance
instance : Local (Callable.objectMember G) := by unfold Callable.objectMember; infer_instance
instance : Local (Callable.decorator G) := by unfold Callable.decorator; infer_instance
instance : Local (Callable.decorators G) := by unfold Callable.decorators; infer_instance
instance : Local (Callable.staticBlock G) := by unfold Callable.staticBlock; infer_instance

instance (words : List Tree) : Local (Callable.indexSignature G words) := by
  unfold Callable.indexSignature; infer_instance

instance (s : Semicolon.Setting) : Local (Callable.memberEnd G s) := by
  unfold Callable.memberEnd; infer_instance

instance (before : List Tree) (name : Tree) (after : List Tree) :
    Local (Callable.field G before name after) := by
  unfold Callable.field; infer_instance

instance (before : List Tree) (name : Tree) (after : List Tree) :
    Local (Callable.method G before name after) := by
  unfold Callable.method; infer_instance

instance : Local (Callable.classMember G) := by unfold Callable.classMember; infer_instance
instance : Local (Callable.classMembers G) := by unfold Callable.classMembers; infer_instance
instance : Local (Callable.heritage G) := by unfold Callable.heritage; infer_instance
instance : Local (Callable.heritageClauses G) := by unfold Callable.heritageClauses; infer_instance

instance (kind : Kind) (before : List Tree) : Local (Callable.classOf G kind before) := by
  unfold Callable.classOf; infer_instance

/-! ## Elements -/

instance : Local Element.name := by unfold Element.name; infer_instance

instance : Local (Element.expression G) := by unfold Element.expression; infer_instance

instance : Local (Element.attributeValue G) := by
  unfold Element.attributeValue
  refine .next fun cs => ?_
  split <;> infer_instance

instance : Local (Element.attribute_ G) := by unfold Element.attribute_; infer_instance
instance : Local (Element.attributes G) := by unfold Element.attributes; infer_instance

instance : Local (Element.parts G) := by
  unfold Element.parts
  refine .next fun cs => ?_
  split <;> infer_instance

instance : Local (Element.element G) := by unfold Element.element; infer_instance

/-! ## Expressions -/

instance (text : String) (n : Nat) : Local (Expression.operatorLeaf text n) := by
  unfold Expression.operatorLeaf; infer_instance

instance (x : Context) (condition : Tree) : Local (Expression.ternary G x condition) := by
  unfold Expression.ternary; infer_instance

instance (x : Context) (word : String) (left : Tree) :
    Local (Expression.casting G x word left) := by
  unfold Expression.casting; infer_instance

instance (x : Context) (level : Nat) (left : Tree) : Local (Expression.climbOn G x level left) := by
  unfold Expression.climbOn
  refine .next fun stop => .ite inferInstance (.next fun cs => ?_)
  split <;> infer_instance

instance (x : Context) (level : Nat) : Local (Expression.climb G x level) := by
  unfold Expression.climb; infer_instance

instance (x : Context) : Local (Expression.commas G x) := by
  unfold Expression.commas; infer_instance

instance (x : Context) : Local (Expression.expressions G x) := by
  unfold Expression.expressions; infer_instance

instance : Local (Expression.parentheses G) := by unfold Expression.parentheses; infer_instance

instance (x : Context) : Local (Expression.typedArrow G x) := by
  unfold Expression.typedArrow; infer_instance

/-- Of parentheses and an arrow function each is tried from the same place. -/
instance (x : Context) : Local (Expression.parenthesesOrArrow G x) where
  same {source c c'} h := by
    have hinside : SameOutcome source (Expression.parentheses G c) (Expression.parentheses G c') :=
      Local.same h
    have harrow : SameOutcome source (Callable.arrow G x [] c) (Callable.arrow G x [] c') :=
      Local.same h
    have htyped : SameOutcome source (Expression.typedArrow G x c) (Expression.typedArrow G x c') :=
      Local.same h
    unfold Expression.parenthesesOrArrow
    generalize Expression.parentheses G c = inside at hinside ⊢
    generalize Expression.parentheses G c' = inside' at hinside ⊢
    generalize Callable.arrow G x [] c = arrow at harrow ⊢
    generalize Callable.arrow G x [] c' = arrow' at harrow ⊢
    generalize Expression.typedArrow G x c = typed at htyped ⊢
    generalize Expression.typedArrow G x c' = typed' at htyped ⊢
    cases hinside with
    | error stuck =>
      cases harrow with
      | ok t hplace => exact .ok t hplace
      | error stuck' => exact .error _
    | ok t hplace =>
      simp only [hplace.skip.rest]
      split
      · exact harrow
      · split
        · cases htyped with
          | ok t' hplace' => exact .ok t' hplace'
          | error stuck => exact .ok t hplace
        · exact .ok t hplace

instance (x : Context) : Local (Expression.nameOrArrow G x) := by
  unfold Expression.nameOrArrow; infer_instance

instance (x : Context) : Local (Expression.async G x) := by unfold Expression.async; infer_instance
instance : Local (Expression.arguments G) := by unfold Expression.arguments; infer_instance
instance : Local (Expression.element G) := by unfold Expression.element; infer_instance

instance (x : Context) : Local (Expression.new G x) := by
  unfold Expression.new
  refine .next fun word => .next fun dotted => .ite inferInstance (.next fun base => ?_)
  extract_lets base finish
  have hfinish : ∀ generics, Local (finish generics) := fun generics => by
    unfold finish
    infer_instance
  refine .next fun cs => .ite (.next fun args => ?_) inferInstance
  split <;> infer_instance

instance : Local Expression.importing := by unfold Expression.importing; infer_instance

instance (x : Context) (w : String) : Local (Expression.wordPrimary G x w) := by
  unfold Expression.wordPrimary
  split <;> infer_instance

instance (x : Context) : Local (Expression.angled G x) := by
  unfold Expression.angled; infer_instance

instance : Local (Expression.array G) := by unfold Expression.array; infer_instance
instance : Local (Expression.object G) := by unfold Expression.object; infer_instance
instance : Local (Expression.decorated G) := by unfold Expression.decorated; infer_instance

instance (x : Context) : Local (Expression.primary G x) := by
  unfold Expression.primary
  refine .next fun cs => ?_
  split <;> infer_instance

instance : Local Expression.memberName := by unfold Expression.memberName; infer_instance

instance : Local (Expression.index G) := by unfold Expression.index; infer_instance

instance (base : Tree) : Local (Expression.optionalSuffix G base) := by
  unfold Expression.optionalSuffix; infer_instance

instance (base : Tree) : Local (Expression.generic G base) := by
  unfold Expression.generic; infer_instance

instance (calls : Bool) (base : Tree) : Local (Expression.suffix? G calls base) := by
  unfold Expression.suffix?; infer_instance

instance (x : Context) (calls : Bool) (base : Tree) :
    Local (Expression.suffixes G x calls base) := by
  unfold Expression.suffixes
  refine .next fun stop => .ite inferInstance (.next fun whole => ?_)
  split <;> infer_instance

instance (x : Context) : Local (Expression.constructed G x) := by
  unfold Expression.constructed; infer_instance

instance (x : Context) (left : Tree) : Local (Expression.assignment G x left) := by
  unfold Expression.assignment
  refine .next fun cs => .ite inferInstance (.ite inferInstance ?_)
  split <;> infer_instance

instance (x : Context) : Local (Expression.patternAssignment G x) := by
  unfold Expression.patternAssignment; infer_instance

instance (x : Context) : Local (Expression.assignable G x) := by
  unfold Expression.assignable; infer_instance

instance (x : Context) (kind : Kind) (operator : String) :
    Local (Expression.unary G x kind operator) := by
  unfold Expression.unary; infer_instance

instance (x : Context) : Local (Expression.yield_ G x) := by
  unfold Expression.yield_; infer_instance

instance (x : Context) : Local (Expression.operand G x) := by
  unfold Expression.operand
  refine .next fun cs => .ite inferInstance ?_
  split <;> infer_instance

/-! ## Imports and exports -/

instance : Local (Module.exportedName G) := by unfold Module.exportedName; infer_instance

instance (before : List Tree) (kind : Kind) : Local (Module.renamed G before kind) := by
  unfold Module.renamed; infer_instance

instance (w : String) : Local (Module.atTypeOnly G w) := by unfold Module.atTypeOnly; infer_instance

instance (kind : Kind) : Local (Module.specifier G kind) := by
  unfold Module.specifier; infer_instance

instance : Local (Module.fromClause G) := by unfold Module.fromClause; infer_instance
instance : Local (Module.attributes? G) := by unfold Module.attributes?; infer_instance
instance : Local (Module.names G) := by unfold Module.names; infer_instance
instance : Local (Module.importClause G) := by unfold Module.importClause; infer_instance

instance (before : List Tree) : Local (Module.importAlias G before) := by
  unfold Module.importAlias; infer_instance

instance : Local (Module.importStatement G) := by unfold Module.importStatement; infer_instance
instance : Local (Module.exportClause G) := by unfold Module.exportClause; infer_instance
instance : Local (Module.fromClause? G) := by unfold Module.fromClause?; infer_instance

instance (before : List Tree) : Local (Module.exportAll G before) := by
  unfold Module.exportAll; infer_instance

instance (before : List Tree) : Local (Module.exportNames G before) := by
  unfold Module.exportNames; infer_instance

instance (before : List Tree) (declaration : Reader Tree) [Local declaration]
    (declares : List Char → Bool) :
    Local (Module.exportStandard G before declaration declares) := by
  unfold Module.exportStandard; infer_instance

/-! ## Statements -/

instance (x : Context) : Local (Statement.initializer G x) := by
  unfold Statement.initializer; infer_instance

instance (x : Context) : Local (Statement.declarator G x) := by
  unfold Statement.declarator; infer_instance

instance (x : Context) : Local (Statement.declarators G x) := by
  unfold Statement.declarators; infer_instance

instance : Local Statement.declaringWord := by unfold Statement.declaringWord; infer_instance

instance (x : Context) : Local (Statement.bindings G x) := by
  unfold Statement.bindings; infer_instance

instance (f : Field) : Local (Statement.condition G f) := by
  unfold Statement.condition; infer_instance

instance (f : Field) : Local (Statement.substatement G f) := by
  unfold Statement.substatement; infer_instance

instance : Local (Statement.if_ G) := by unfold Statement.if_; infer_instance
instance : Local (Statement.cases G) := by unfold Statement.cases; infer_instance
instance : Local (Statement.switch G) := by unfold Statement.switch; infer_instance
instance : Local (Statement.eachHeader G) := by unfold Statement.eachHeader; infer_instance
instance : Local (Statement.forEach G) := by unfold Statement.forEach; infer_instance
instance (f : Field) : Local (Statement.empty f) := by unfold Statement.empty; infer_instance

instance : Local (Statement.forThree G) := by unfold Statement.forThree; infer_instance
instance : Local (Statement.while_ G) := by unfold Statement.while_; infer_instance
instance : Local (Statement.do_ G) := by unfold Statement.do_; infer_instance
instance : Local (Statement.try_ G) := by unfold Statement.try_; infer_instance
instance : Local (Statement.with_ G) := by unfold Statement.with_; infer_instance

instance (w : String) (kind : Kind) : Local (Statement.jump G w kind) := by
  unfold Statement.jump; infer_instance

instance : Local (Statement.return_ G) := by unfold Statement.return_; infer_instance
instance : Local (Statement.throw_ G) := by unfold Statement.throw_; infer_instance
instance : Local (Statement.expression G) := by unfold Statement.expression; infer_instance
instance : Local (Statement.labeled G) := by unfold Statement.labeled; infer_instance
instance : Local (Statement.typeAlias G) := by unfold Statement.typeAlias; infer_instance
instance : Local (Statement.interface G) := by unfold Statement.interface; infer_instance
instance : Local (Statement.enumMember G) := by unfold Statement.enumMember; infer_instance
instance : Local (Statement.enum G) := by unfold Statement.enum; infer_instance

instance (w : String) (kind : Kind) : Local (Statement.module_ G w kind) := by
  unfold Statement.module_; infer_instance

instance (decorators : List Tree) : Local (Statement.abstractClass G decorators) := by
  unfold Statement.abstractClass; infer_instance

instance : Local (Statement.ambient G) := by unfold Statement.ambient; infer_instance
instance : Local (Statement.declaration G) := by unfold Statement.declaration; infer_instance

instance : Local (Statement.standardDeclaration G) := by
  unfold Statement.standardDeclaration; infer_instance

instance (decorators : List Tree) : Local (Statement.exportStatement G decorators) := by
  unfold Statement.exportStatement; infer_instance

instance : Local (Statement.braces G) where
  same {source c c'} h := by
    have hblock : SameOutcome source (Callable.block G false c) (Callable.block G false c') :=
      Local.same h
    have hvalue : SameOutcome source (Statement.expression G c) (Statement.expression G c') :=
      Local.same h
    unfold Statement.braces
    generalize Callable.block G false c = block at hblock ⊢
    generalize Callable.block G false c' = block' at hblock ⊢
    generalize Statement.expression G c = value at hvalue ⊢
    generalize Statement.expression G c' = value' at hvalue ⊢
    cases hblock with
    | error stuck =>
      cases hvalue with
      | ok t hplace => exact .ok t hplace
      | error stuck' => exact .error _
    | ok t hplace =>
      simp only
      split
      · split
        · cases hvalue with
          | ok t' hplace' => exact .ok t' hplace'
          | error stuck => exact .ok t hplace
        · exact .ok t hplace
      · exact .ok t hplace

/-- Each of the declarations that begin with an ordinary name. -/
theorem local_of_mem_typeDeclarations {p : String × Reader Tree}
    (h : p ∈ Statement.typeDeclarations G) : Local p.2 := by
  unfold Statement.typeDeclarations at h
  simp only [List.mem_cons, List.not_mem_nil, or_false] at h
  rcases h with rfl | rfl | rfl | rfl | rfl | rfl | rfl <;> infer_instance

instance (cs : List Char) (w : String) : Local (Statement.ofWord G cs w) := by
  unfold Statement.ofWord
  extract_lets after plain
  have hplain : Local plain := by
    unfold plain
    infer_instance
  repeat' first | infer_instance | apply Local.ite
  split
  next name declaration hfound =>
    have hmem : (name, declaration) ∈ Statement.typeDeclarations G := by
      split at hfound
      · exact List.mem_of_find?_eq_some hfound
      · cases hfound
    have hdeclaration : Local declaration := local_of_mem_typeDeclarations hmem
    infer_instance
  next => exact hplain

instance : Local (Statement.statement_ G) := by unfold Statement.statement_; infer_instance

instance (ending : Ending) : Local (Statement.statements G ending) := by
  unfold Statement.statements
  infer_instance

/-! ## All goals -/

instance (sequence : Items) : Local (item G sequence) := by
  cases sequence <;> (unfold item; infer_instance)

/-- **Every goal is read locally if the goals below it are.** -/
theorem local_produce (g : Goal) : Local (produce G g) := by
  cases g <;> (unfold produce single; infer_instance)

/-- **The grammar reads locally.** Induction on the depth: a rule pursues goals one level below its
own. -/
theorem local_readGoal (typed lenient : Bool) (depth : Nat) (g : Goal) :
    Local (readGoal typed lenient depth g) := by
  induction depth generalizing g with
  | zero =>
    unfold readGoal
    infer_instance
  | succ depth ih =>
    have hbelow : Grammar.Local ⟨typed, lenient, readGoal typed lenient depth⟩ := ⟨ih⟩
    exact local_produce g

end OptionTypes.Syntax
