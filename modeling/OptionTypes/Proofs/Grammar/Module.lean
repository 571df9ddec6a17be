import OptionTypes.Proofs.Grammar.Callable

/-!
# Imports and exports give intact trees

No node of an import or an export must have certain parts; what they hold are names, strings and the
members of an object.
-/

namespace OptionTypes.Syntax

variable {G : Grammar} (hG : G.Plain)
include hG

/-! ## Imports

Imports and exports are not evaluated. What is asked of their parts is that they are intact, and
what comes before a keyword is intact by hypothesis. -/

/-- A name of a module is a word or a string. -/
theorem yields_exportedName : Yields Intact (Module.exportedName G) := by
  unfold Module.exportedName
  exact .next fun _ => .ite (yields_anyWord rfl).intact (yields_string hG).intact

/-- A name, with another one behind `as` or without it. -/
theorem yields_renamed {before : List Tree} (hbefore : AllIntact before) {kind : Kind}
    (hkind : isFree kind = true) : Yields Intact (Module.renamed G before kind) := by
  unfold Module.renamed
  refine (yields_exportedName hG).bind fun name hname => .next fun more => .ite ?_ ?_
  · refine (yields_keyword "as").bind fun word hword => ?_
    refine (yields_exportedName hG).bind fun other hother => yields_pure (intact_branch hkind ?_)
    simp [hbefore, hname, hword, hother]
  · exact yields_pure (intact_branch hkind (by simp [hbefore, hname]))

/-- A specifier is a name that may be renamed. A word for a type before it is read with types only,
and is a name otherwise. -/
theorem yields_specifier {kind : Kind} (hkind : isFree kind = true) :
    Yields Intact (Module.specifier G kind) := by
  have hafter : ∀ w, Yields Intact (do Module.renamed G [← Reader.keyword w] kind) := by
    intro w
    refine (yields_keyword w).bind fun word hword => yields_renamed hG ?_ hkind
    simpa using hword
  unfold Module.specifier
  exact .next fun _ => .ite (hafter "type")
    (.next fun _ => .ite (hafter "typeof") (yields_renamed hG allIntact_nil hkind))

/-- The word `from` and the module that is named. -/
theorem yields_fromClause : Yields AllIntact (Module.fromClause G) := by
  unfold Module.fromClause
  refine (yields_keyword "from").bind fun word hword => ?_
  refine (yields_string hG).bind fun source hsource => yields_pure ?_
  simp [hword, hsource.intact]

theorem yields_fromClause? : Yields AllIntact (Module.fromClause? G) := by
  unfold Module.fromClause?
  exact .next fun _ => .ite (yields_fromClause hG) (yields_pure allIntact_nil)

/-- The attributes of a module, if there are any. -/
theorem yields_importAttributes? : Yields AllIntact (Module.attributes? G) := by
  unfold Module.attributes?
  refine .next fun more => .ite ?_ (yields_pure allIntact_nil)
  refine (yields_keyword "with").bind fun word hword => ?_
  refine (yields_mark "\x7b").bind fun opening hopening => ?_
  refine (hG.items .members rfl).bind fun members hmembers => ?_
  refine (yields_mark "\x7d").bind fun closing hclosing => yields_pure ?_
  have hobject : Intact (Reader.branch .object (opening :: members ++ [closing])) :=
    intact_branch rfl (by simp [hopening, hmembers, hclosing])
  refine allIntact_cons.mpr ⟨intact_branch rfl ?_, allIntact_nil⟩
  exact allIntact_cons.mpr ⟨hword, allIntact_cons.mpr ⟨hobject, allIntact_nil⟩⟩

/-- Names are imported one by one between braces, or all of them under one name. -/
theorem yields_importNames : Yields Intact (Module.names G) := by
  unfold Module.names
  refine .next fun all => .ite ?_ ?_
  · refine (yields_mark "*").bind fun star hstar => (yields_keyword "as").bind fun word hword => ?_
    refine (yields_anyWord rfl).bind fun name hname => yields_pure (intact_branch rfl ?_)
    simp [hstar, hword, hname.intact]
  · refine (yields_mark "\x7b").bind fun opening hopening => ?_
    refine (hG.items .importSpecifiers rfl).bind fun items hitems => ?_
    refine (yields_mark "\x7d").bind fun closing hclosing => yields_pure (intact_branch rfl ?_)
    simp [hopening, hitems, hclosing]

/-- What is imported: the default of the module, names, or both. -/
theorem yields_importClause : Yields Intact (Module.importClause G) := by
  unfold Module.importClause
  refine .next fun named => .ite ?_ ?_
  · refine (yields_anyWord rfl).bind fun name hname => .next fun more => .ite ?_ ?_
    · refine (yields_mark ",").bind fun comma hcomma => ?_
      refine (yields_importNames hG).bind fun names hnames => yields_pure (intact_branch rfl ?_)
      simp [hname.intact, hcomma, hnames]
    · exact yields_pure (intact_branch rfl (by simpa using hname.intact))
  · refine (yields_importNames hG).bind fun names hnames => yields_pure (intact_branch rfl ?_)
    simpa using hnames

/-- An import, with a clause or of the module alone. -/
theorem yields_importStatement : Yields Intact (Module.importStatement G) := by
  unfold Module.importStatement
  refine (yields_keyword "import").bind fun word hword => ?_
  extract_lets finish plain
  have hfinish : ∀ parts, AllIntact parts → Yields Intact (finish parts) := by
    intro parts hparts
    refine (yields_importAttributes? hG).bind fun attributes hattributes => ?_
    exact yields_statement rfl _ (allIntact_append.mpr ⟨hparts, hattributes⟩)
  have hplain : ∀ before, AllIntact before → Yields Intact (plain before) := by
    intro before hbefore
    refine (yields_importClause hG).bind fun clause hclause => ?_
    refine (yields_fromClause hG).bind fun source hsource => hfinish _ ?_
    simp [hbefore, hclause, hsource]
  refine .next fun cs => .ite ?_ (hG.ite (hplain _ (by simpa using hword)))
  refine (yields_string hG).bind fun source hsource => hfinish _ ?_
  simp [hword, hsource.intact]

/-! ## Exports -/

/-- Names that are exported stand between braces. -/
theorem yields_exportClause : Yields Intact (Module.exportClause G) := by
  unfold Module.exportClause
  refine (yields_mark "\x7b").bind fun opening hopening => ?_
  refine (hG.items .exportSpecifiers rfl).bind fun items hitems => ?_
  refine (yields_mark "\x7d").bind fun closing hclosing => yields_pure (intact_branch rfl ?_)
  simp [hopening, hitems, hclosing]

/-- Everything of a module is exported, under one name or under its own. -/
theorem yields_exportAll {before : List Tree} (hbefore : AllIntact before) :
    Yields Intact (Module.exportAll G before) := by
  unfold Module.exportAll
  refine (yields_mark "*").bind fun star hstar => .next fun named => ?_
  extract_lets finish
  have hfinish : ∀ all, AllIntact all → Yields Intact (finish all) := by
    intro all hall
    refine (yields_fromClause hG).bind fun source hsource => ?_
    refine (yields_importAttributes? hG).bind fun attributes hattributes => ?_
    exact yields_statement rfl _ (by simp [hbefore, hall, hsource, hattributes])
  refine .ite ?_ (hfinish _ (by simpa using hstar))
  refine (yields_keyword "as").bind fun word hword => ?_
  refine (yields_exportedName hG).bind fun name hname => hfinish _ ?_
  have hwhole : Intact (Reader.branch .namespaceExport [star, word, name]) :=
    intact_branch rfl (by simp [hstar, hword, hname])
  simpa using hwhole

/-- Names are exported, which may be those of another module. -/
theorem yields_exportNames {before : List Tree} (hbefore : AllIntact before) :
    Yields Intact (Module.exportNames G before) := by
  unfold Module.exportNames
  refine (yields_exportClause hG).bind fun clause hclause => ?_
  refine (yields_fromClause? hG).bind fun source hsource => ?_
  refine (yields_importAttributes? hG).bind fun attributes hattributes => ?_
  exact yields_statement rfl _ (by simp [hbefore, hclause, hsource, hattributes])

/-- A default of the module is a declaration or an expression, given that declarations are
intact. -/
theorem yields_exportStandard {before : List Tree} (hbefore : AllIntact before)
    {declaration : Reader Tree} (hdeclaration : Yields Intact declaration)
    (declares : List Char → Bool) :
    Yields Intact (Module.exportStandard G before declaration declares) := by
  unfold Module.exportStandard
  refine (yields_keyword "default").bind fun word hword => ?_
  extract_lets value
  have hvalue : Yields Intact value := by
    refine (hG.one (.expression .statement) trivial).bind fun t ht => ?_
    exact yields_statement rfl _ (by simp [hbefore, hword, ht.intact])
  refine .next fun cs => .ite (.either ?_ hvalue) hvalue
  refine hdeclaration.bind fun t ht => yields_pure (intact_branch rfl ?_)
  simp [hbefore, hword, ht]

end OptionTypes.Syntax
