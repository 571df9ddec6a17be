import OptionTypes.Config.Resolution
import OptionTypes.Proofs.Config.Documents
import OptionTypes.Proofs.Run.Stages

/-!
# Which setting counts

The configuration of a run follows from its surroundings: from one file, if there is one, and from
two variables. Each field is that of the standard configuration unless the file says otherwise, and
the two variables count before the file. They reach no other field.

* `Resolution.usedFile` is the file that counts, and `fileMembers` what it holds.
* `Resolution.Variables.replace` puts the variables that are not empty in place of two fields.
* `Resolution.result_resolve`: the configuration of a run is made of these.
* `Resolution.resolve_precedence` says so field by field.
-/

namespace OptionTypes.Resolution

open World Config Check Value

/-- The file that a run is configured with: the one that is asked for, or else the first of the
names that is a file in the current directory. -/
def usedFile (w : World) : Option Text → Option Path
  | some t => some (.ofText t)
  | none =>
    (projectNames.map fun (name : String) => (pathOf w.directory).child (Text.ofString name)).find?
      fun p => w.store.isFile w.directory p

/-- The members of a file, and none if there is no file. -/
def fileMembers (w : World) : Option Path → Except DocumentError Members
  | none => .ok []
  | some p =>
    if w.store.isFile w.directory p then
      match w.store.read w.directory p with
      | .ok bytes => Document.members p bytes
      | .error e => .error (.unreadable p e)
    else .error (.notFound p)

/-- The configuration that a file makes of the standard one. -/
def settled (w : World) (path? : Option Path) : Except ConfigError Config := do
  let ms ← (fileMembers w path?).mapError .document
  (Config.standard.merge ms).mapError .invalid

/-- The value of a variable. -/
def setting? (w : World) (name : Text) : Option Text :=
  (w.environment.find? fun (n, _) => n = name).map Prod.snd

/-- The variables that replace fields. -/
def settings (w : World) : Variables := ⟨setting? w addressVariable, setting? w debugVariable⟩

/-- A text that is there and not empty. -/
def nonempty? (t? : Option Text) : Option Text := t?.filter fun t => !t.isEmpty

/-- A configuration with the variables that are not empty in place of two fields. -/
def Variables.replace (v : Variables) (c : Config) : Config :=
  { c with
    urlTemplate := (nonempty? v.address).getD c.urlTemplate
    debugDir := (nonempty? v.debugDirectory).getD c.debugDir }

/-! ## The layer of the variables -/

/-- A variable that is empty stands for nothing, as one that is missing does. -/
theorem variableMember_eq (field : String) (t? : Option Text) : variableMember field t?
    = ((nonempty? t?).map fun t => (Key.text field, Value.text t)).toList := by
  cases t? with
  | none => rfl
  | some t =>
    cases t with
    | nil => rfl
    | cons c t => rfl

variable {base : Config}

/-- Variables are texts under two different keys, as a document might hold them. -/
theorem fromDocument_variables (v : Variables) : FromDocument (.object v.members) := by
  have hne : (Key.text "url_template").same (.text "debug_dir") = false := by decide
  rw [Variables.members, variableMember_eq, variableMember_eq]
  -- four cases, by which of the two is there
  cases nonempty? v.address with
  | none =>
    cases nonempty? v.debugDirectory with
    | none => exact fromDocument_empty
    | some d => exact ⟨List.pairwise_singleton _ _, trivial, trivial⟩
  | some t =>
    cases nonempty? v.debugDirectory with
    | none => exact ⟨List.pairwise_singleton _ _, trivial, trivial⟩
    | some d => exact ⟨by simp [Members.Distinct, hne], trivial, trivial, trivial⟩

/-- Variables are texts for two different fields: laying them over a configuration succeeds. Both
fields accept every text, and the other six have no member, so each is what it was. -/
theorem merge_variables (hvalid : base.Valid) (hdata : base.IsData) (v : Variables) :
    base.merge v.members = .ok (v.replace base) := by
  rw [merge_eq_ok_iff hvalid (fromDocument_variables v).1, hdata.written_eq, Variables.members,
    variableMember_eq, variableMember_eq, Variables.replace]
  generalize nonempty? v.address = address
  generalize nonempty? v.debugDirectory = directory
  cases address with
  | none =>
    cases directory with
    | none => exact ⟨rfl, rfl, rfl, rfl, rfl, rfl, rfl, rfl⟩
    | some d => exact ⟨rfl, rfl, rfl, rfl, rfl, rfl, rfl, rfl⟩
  | some t =>
    cases directory with
    | none => exact ⟨rfl, rfl, rfl, rfl, rfl, rfl, rfl, rfl⟩
    | some d => exact ⟨rfl, rfl, rfl, rfl, rfl, rfl, rfl, rfl⟩

/-- Nothing is laid over a configuration where all variables are empty. -/
theorem unless_isEmpty (hvalid : base.Valid) (hdata : base.IsData) (v : Variables) :
    (if v.members.isEmpty then (.ok base : Checked Config) else base.merge v.members)
      = .ok (v.replace base) := by
  rw [← merge_variables hvalid hdata v]
  split
  next hempty => rw [List.isEmpty_iff.mp hempty, merge_nil hvalid hdata]
  next => rfl

/-! ## The layer of the file -/

/-- The symbols of the standard configuration are texts. -/
theorem isData_standard : IsData .standard := by
  intro s hs
  obtain rfl := List.mem_singleton.mp hs
  rfl

/-- What a file holds comes from a document, and without a file there is nothing. -/
theorem fromDocument_fileMembers {w : World} {path? : Option Path} {ms : Members}
    (h : fileMembers w path? = .ok ms) : FromDocument (.object ms) := by
  cases path? with
  | none =>
    cases h
    exact fromDocument_empty
  | some p =>
    simp only [fileMembers] at h
    split at h
    · split at h
      · exact Document.fromDocument_members h
      · cases h
    · cases h

/-- A document that is laid over the standard configuration leaves a valid one without functions:
the checks give the bounds again, and the symbols are those of the standard and of the document. -/
theorem valid_and_isData {ms : Members} {c : Config} (hms : FromDocument (.object ms))
    (h : Config.standard.merge ms = .ok c) : c.Valid ∧ c.IsData := by
  have hlayered := (merge_eq_ok_iff valid_standard hms.1).mp h
  refine ⟨hlayered.valid valid_standard, hlayered.isData isData_standard fun v hv => ?_⟩
  obtain ⟨k, hmem⟩ := Members.exists_mem_of_get? hv
  exact (membersFromDocument_iff.mp hms.2 _ hmem).isData

/-- Variables over the standard configuration. -/
theorem overlay_none (v : Variables) : overlay none v = .ok (v.replace .standard) :=
  unless_isEmpty valid_standard isData_standard v

/-- Variables over what a document makes of the standard configuration. That one is valid and holds
no function, so the second merge is replacing two texts. -/
theorem overlay_some {ms : Members} (hms : FromDocument (.object ms)) (v : Variables) :
    overlay (some ms) v = (Config.standard.merge ms).map v.replace := by
  have hoverlay : overlay (some ms) v = Config.standard.merge ms >>= fun base =>
      if v.members.isEmpty then .ok base else base.merge v.members := rfl
  rw [hoverlay]
  cases h : Config.standard.merge ms with
  | error issues => rfl
  | ok base =>
    obtain ⟨hvalid, hdata⟩ := valid_and_isData hms h
    exact unless_isEmpty hvalid hdata v

/-! ## Asking the surroundings -/

/-- The first of some names that is a file in a directory, as a search through a list. Induction on
the names: asking whether one is a file changes nothing, so the others are asked in the same
world. -/
theorem result_firstFile (w : World) (directory : Path) (names : List String) :
    result (firstFile directory names) w
      = (names.map fun (name : String) => directory.child (Text.ofString name)).find?
          fun p => w.store.isFile w.directory p := by
  induction names with
  | nil => rfl
  | cons name names ih =>
    rw [firstFile, (reading_isFile _).result_bind, List.map_cons, List.find?_cons]
    show result (if w.store.isFile w.directory _ = true then _ else _) w = _
    split
    next hfile => rw [hfile, result_pure]
    next hfile => rw [Bool.eq_false_iff.mpr hfile, ih]

/-- What loading a file gives, as a function of the world: the two questions that it asks change
nothing. -/
theorem result_load (w : World) (path : Path) :
    result (load path) w = fileMembers w (some path) := by
  rw [load, (reading_isFile _).result_bind]
  show result (if w.store.isFile w.directory path then _ else _) w = if _ then _ else _
  split
  · rw [(reading_read _).result_bind]
    show result (match w.store.read w.directory path with
      | .ok bytes => _
      | .error e => _) w = _
    split
    · rfl
    · rfl
  · rfl

/-- Looking for the file of a project changes nothing. -/
theorem reading_projectFile : Reading (projectFile : StateM World (Option Path)) :=
  reading_directory.bind fun _ => reading_firstFile _ _

/-- The file of a project is the one that counts where none is asked for. -/
theorem result_projectFile (w : World) : result projectFile w = usedFile w none := by
  rw [projectFile, reading_directory.result_bind]
  exact result_firstFile w _ _

/-- Without a file the variables are laid over the standard configuration. -/
theorem overlay_none_eq_settled (w : World) (v : Variables) :
    (overlay none v).mapError .invalid = (settled w none).map v.replace := by
  have hsettled : settled w none = .ok .standard := by
    show (Config.standard.merge []).mapError ConfigError.invalid = _
    rw [merge_nil valid_standard isData_standard]
    rfl
  rw [overlay_none, hsettled]
  rfl

/-- With a file they are laid over what it makes of the standard configuration. -/
theorem overlay_some_eq_settled {w : World} {path? : Option Path} {ms : Members}
    (hms : fileMembers w path? = .ok ms) (v : Variables) :
    (overlay (some ms) v).mapError .invalid = (settled w path?).map v.replace := by
  rw [overlay_some (fromDocument_fileMembers hms), settled, hms]
  show _ = ((Config.standard.merge ms).mapError ConfigError.invalid).map v.replace
  cases Config.standard.merge ms with
  | error issues => rfl
  | ok base => rfl

/-- The configuration of a run is made of one file and two variables. Every part of `resolve` is a
question to the world, so its result is computed part by part in the same world; the failures of the
file come before those of the fields. -/
theorem result_resolve (asked : Option Text) (w : World) :
    result (resolve asked) w = (settled w (usedFile w asked)).map (settings w).replace := by
  unfold resolve
  extract_lets ofFile ofPath
  -- However the file is found, its members and then the variables make the configuration.
  have hfile : ∀ file : Option Members,
      result (ofFile (.ok file)) w = (overlay file (settings w)).mapError .invalid := by
    intro file
    exact reading_readVariables.result_bind _ w
  have hpath : ∀ path?, result (ofPath path?) w
      = (settled w path?).map (settings w).replace := by
    intro path?
    cases path? with
    | none =>
      show result (pure (.ok none) >>= ofFile) w = _
      rw [(Reading.pure _).result_bind, result_pure, hfile, overlay_none_eq_settled w]
    | some p =>
      show result ((load p >>= fun loaded => pure (loaded.map some)) >>= ofFile) w = _
      have hloaded : result (load p >>= fun loaded => pure (loaded.map some)) w
          = (fileMembers w (some p)).map some := by
        rw [(reading_load p).result_bind, result_load, result_pure]
      rw [((reading_load p).bind fun _ => .pure _).result_bind, hloaded]
      cases hms : fileMembers w (some p) with
      | error e =>
        rw [settled, hms]
        rfl
      | ok ms =>
        show result (ofFile (.ok (some ms))) w = _
        rw [hfile, overlay_some_eq_settled hms]
  cases asked with
  | some t =>
    show result (pure (some (Path.ofText t)) >>= ofPath) w = _
    rw [(Reading.pure _).result_bind, result_pure]
    exact hpath (some (Path.ofText t))
  | none =>
    show result (projectFile >>= ofPath) w = _
    rw [reading_projectFile.result_bind, result_projectFile]
    exact hpath _

/-- **What a run is configured with** is valid, and none of its symbols is a function: the file
leaves such a configuration, and the variables replace two texts of it. -/
theorem valid_and_isData_of_resolve {w : World} {asked : Option Text} {c : Config}
    (h : result (resolve asked) w = .ok c) : c.Valid ∧ c.IsData := by
  rw [result_resolve, Outcome.map_eq_ok_iff] at h
  obtain ⟨base, hbase, rfl⟩ := h
  obtain ⟨ms, hms, hmerge⟩ := Outcome.bind_eq_ok_iff.mp hbase
  obtain ⟨hvalid, hdata⟩ := valid_and_isData
    (fromDocument_fileMembers (Outcome.mapError_eq_ok_iff.mp hms))
    (Outcome.mapError_eq_ok_iff.mp hmerge)
  exact ⟨⟨hvalid.wrapWidth, hvalid.timeout⟩, hdata⟩

/-- A configuration but for the fields that variables replace. -/
def otherFields (c : Config) : Config := { c with urlTemplate := [], debugDir := [] }

/-- **Which setting counts.** There is a configuration exactly when there is one file to take it
from, or none, and its members can be laid over the standard configuration. Two variables replace
one field each, and no variable matters for what is left, nor for whether there is one.

The first part is `result_resolve` with merging as layering (`merge_eq_ok_iff`). For the second
part, only `settings` looks at the variables of the world, and what it replaces is left out. -/
theorem resolve_precedence (asked : Option Text) (w : World) :
    (∀ c, result (resolve asked) w = .ok c ↔
      ∃ ms base, fileMembers w (usedFile w asked) = .ok ms
        ∧ Layered .standard ms base ∧ c = (settings w).replace base)
    ∧ ∀ environment, (result (resolve asked) { w with environment }).map otherFields
        = (result (resolve asked) w).map otherFields := by
  constructor
  · intro c
    -- the members of a file have distinct keys, which merging needs in both directions
    rw [result_resolve, Outcome.map_eq_ok_iff]
    constructor
    · rintro ⟨base, hbase, rfl⟩
      obtain ⟨ms, hms, hmerge⟩ := Outcome.bind_eq_ok_iff.mp hbase
      have hms := Outcome.mapError_eq_ok_iff.mp hms
      have hdistinct := (fromDocument_fileMembers hms).1
      have hlayered := (merge_eq_ok_iff valid_standard hdistinct).mp
        (Outcome.mapError_eq_ok_iff.mp hmerge)
      exact ⟨ms, base, hms, hlayered, rfl⟩
    · rintro ⟨ms, base, hms, hlayered, rfl⟩
      have hdistinct := (fromDocument_fileMembers hms).1
      have hmerge := (merge_eq_ok_iff valid_standard hdistinct).mpr hlayered
      refine ⟨base, Outcome.bind_eq_ok_iff.mpr ⟨ms, ?_, ?_⟩, rfl⟩
      · exact Outcome.mapError_eq_ok_iff.mpr hms
      · exact Outcome.mapError_eq_ok_iff.mpr hmerge
  · intro environment
    -- neither the file that is used nor what is in it depends on the environment
    have hsame : settled { w with environment } (usedFile { w with environment } asked)
        = settled w (usedFile w asked) := by
      cases asked <;> rfl
    rw [result_resolve, result_resolve, hsame]
    cases settled w (usedFile w asked) with
    | error e => rfl
    | ok base => rfl

end OptionTypes.Resolution
