import OptionTypes.Proofs.Store.AtomicWrite
import OptionTypes.Run

/-!
# The stages of a run

A run looks at its surroundings, reports, and keeps intermediate results if it is asked to. None of
this reaches the stream of results, and what a stage gives depends on the surroundings alone: not
on how the run reports, nor on what it keeps.

* `Run.Gives` says of a stage which files it may touch and what it gives if it succeeds.
* `Run.configOf`, `Run.sourceOf` and `Run.commandsOf` are what the stages give, as functions of the
  surroundings; `ensures_prepare` and `gives_commands` tie the stages to them.
-/

namespace OptionTypes

open World

variable {α β ε : Type} {paths : List Path} {w w' : World}

/-! ## Looking at the surroundings -/

/-- How a run reports is read off three variables and the terminal, and nothing changes by that. -/
theorem Report.reading_settings (f : Flags) : Reading (Report.settings f) := by
  refine (reading_lookup _).bind fun _ => (reading_lookup _).bind fun _ => ?_
  exact (reading_lookup _).bind fun _ => reading_isTerminal.bind fun _ => .pure _

namespace Resolution

/-- Looking for the first of some files changes nothing. Induction on their names. -/
theorem reading_firstFile (directory : Path) (names : List String) :
    Reading (firstFile directory names) := by
  induction names with
  | nil => exact .pure _
  | cons name rest ih =>
    refine (reading_isFile _).bind fun found => ?_
    split
    · exact .pure _
    · exact ih

/-- Loading the file of a configuration changes nothing. -/
theorem reading_load (path : Path) : Reading (load path) := by
  refine (reading_isFile path).bind fun found => ?_
  split
  · refine (reading_read path).bind fun bytes => ?_
    split
    · exact .pure _
    · exact .pure _
  · exact .pure _

/-- Reading the two variables changes nothing. -/
theorem reading_readVariables : Reading readVariables :=
  (reading_lookup _).bind fun _ => (reading_lookup _).bind fun _ => .pure _

/-- Finding the configuration of a run changes nothing, whichever file it comes from. The two
continuations are stated on their own, since each of them is reached in two ways. -/
theorem reading_resolve (asked : Option Text) : Reading (resolve asked) := by
  unfold resolve
  extract_lets ofFile ofPath
  have hfile : ∀ file, Reading (ofFile file) := by
    intro file
    cases file with
    | error e => exact .pure _
    | ok members => exact reading_readVariables.bind fun _ => .pure _
  have hpath : ∀ path, Reading (ofPath path) := by
    intro path
    cases path with
    | none => exact (Reading.pure _).bind hfile
    | some p => exact (reading_load p).bind fun _ => (Reading.pure _).bind hfile
  split
  · exact (Reading.pure _).bind hpath
  · exact (reading_directory.bind fun _ => reading_firstFile _ _).bind hpath

end Resolution

namespace Retrieval

/-- Loading a source changes nothing. -/
theorem reading_load (path : Text) : Reading (load path) := by
  refine (reading_isFile _).bind fun found => ?_
  split
  · refine (reading_read _).bind fun bytes => ?_
    split
    · exact .pure _
    · exact .pure _
  · exact .pure _

/-- What loading a source gives, as a function of the world. -/
theorem result_load (path : Text) (w : World) :
    result (load path) w =
      if w.store.isFile w.directory (.ofText path) then
        match w.store.read w.directory (.ofText path) with
        | .ok bytes => decode path bytes
        | .error e => .error (.unreadable path e)
      else .error (.notFound path) := by
  rw [load, (reading_isFile _).result_bind]
  show result (if w.store.isFile w.directory (.ofText path) then _ else _) w = _
  split
  · rw [(reading_read _).result_bind]
    show result (match w.store.read w.directory (.ofText path) with
      | .ok bytes => _
      | .error e => _) w = _
    split
    · rfl
    · rfl
  · rfl

/-- Fetching a source changes no file; the request is noted. -/
theorem confined_fetch (version template : Text) (timeout : Number) :
    Confined paths (fetch version template timeout) :=
  (World.confined_fetch _).bind fun _ => .pure _

/-- What fetching a source gives depends on the answer of the world alone. -/
theorem result_fetch (version template : Text) (timeout : Number) (w : World) :
    result (fetch version template timeout) w = textOf (addressOf version template) w.response :=
  rfl

end Retrieval

/-! ## What a stage gives -/

/-- A message, told or not, changes no file and adds nothing to the results. -/
theorem Report.ensures_tell (s : Settings) (n : Notice) (message : Text) (w : World) :
    Ensures (tell s n message) w fun _ w' => Touched paths w w' ∧ w'.store = w.store := by
  unfold tell
  split
  · exact ⟨confined_writeMessage _ w, rfl⟩
  · exact .pure ⟨.refl paths w, rfl⟩

/-! ## Commands of a script -/

namespace Registration

/-- A command has the name that it was looked for by, whether a schema was found for it or not. -/
theorem name_of_extract {script : Script} {symbols : List (Text × Value)} {command : Text}
    {c : Command} (h : extract script symbols command = .ok c) : c.name = command := by
  obtain ⟨schema, -, h⟩ := Outcome.bind_eq_ok_iff.mp h
  cases schema with
  | none =>
    cases h
    rfl
  | some schema =>
    obtain ⟨value, -, h⟩ := Outcome.bind_eq_ok_iff.mp h
    obtain ⟨options, -, hpure⟩ := Outcome.bind_eq_ok_iff.mp h
    cases hpure
    rfl

/-- There is one command for each name, in order. -/
theorem names_of_extractAll {script : Script} {symbols : List (Text × Value)}
    {commands : List Text} {found : List Command}
    (h : extractAll script symbols commands = .ok found) : found.map Command.name = commands := by
  have hall : List.Forall₂ (· = ·) commands (found.map Command.name) := by
    rw [List.forall₂_map_right_iff]
    exact (Outcome.mapM_eq_ok_iff.mp h).imp fun _ _ hc => (name_of_extract hc).symm
  rw [List.forall₂_eq_eq_eq] at hall
  exact hall.symm

end Registration

namespace Run

open Report

/-- Whether a part of a run touches files only where some paths lead, and gives only what has a
property. -/
def Gives (paths : List Path) (x : ExceptT RunError (StateM World) α) (w : World)
    (R : α → Prop) : Prop :=
  Ensures x.run w fun r w' => Touched paths w w' ∧ ∀ a, r = .ok a → R a

/-- A value that is there touches nothing. -/
theorem Gives.pure {R : α → Prop} {a : α} (h : R a) :
    Gives paths (pure a : ExceptT RunError (StateM World) α) w R := by
  refine ⟨.refl paths w, fun b hb => ?_⟩
  cases hb
  exact h

/-- The rule for sequences of a run: a failure of the first part is one of the whole, and the second
part starts from what the first one leaves. -/
theorem ensures_bind {x : ExceptT RunError (StateM World) α}
    {f : α → ExceptT RunError (StateM World) β} {P : Except RunError α → World → Prop}
    {Q : Except RunError β → World → Prop} (hx : Ensures x.run w P)
    (herror : ∀ e w', P (.error e) w' → Q (.error e) w')
    (hok : ∀ a w', P (.ok a) w' → Ensures (f a).run w' Q) : Ensures (x >>= f).run w Q := by
  show Ensures (x.run >>= ExceptT.bindCont f) w Q
  refine hx.bind fun r w' h => ?_
  cases r with
  | error e => exact .pure (herror e w' h)
  | ok a => exact hok a w' h

/-- What cannot fail, as part of a run. -/
theorem ensures_lift {x : StateM World α} {Q : Except RunError α → World → Prop}
    (hx : Ensures x w fun a w' => Q (.ok a) w') : Ensures (ExceptT.lift x).run w Q :=
  hx

/-- A part that touches some files and one that goes on from it. More may be known of the first part
than `Gives` says, for instance that the store is the same. -/
theorem Gives.after {x : ExceptT RunError (StateM World) α}
    {f : α → ExceptT RunError (StateM World) β} {P : Except RunError α → World → Prop}
    {R : β → Prop} (hx : Ensures x.run w P) (htouched : ∀ r w', P r w' → Touched paths w w')
    (hf : ∀ a w', P (.ok a) w' → Gives paths (f a) w' R) : Gives paths (x >>= f) w R := by
  refine ensures_bind hx (fun e w' h => ⟨htouched _ w' h, nofun⟩) fun a w' h => ?_
  exact (hf a w' h).mono fun _ _ h' => ⟨(htouched _ w' h).trans h'.1, h'.2⟩

/-- A part that gives something and one that goes on with it. -/
theorem Gives.bind {x : ExceptT RunError (StateM World) α}
    {f : α → ExceptT RunError (StateM World) β} {P : α → Prop} {R : β → Prop}
    (hx : Gives paths x w P) (hf : ∀ a w', P a → Gives paths (f a) w' R) :
    Gives paths (x >>= f) w R :=
  .after hx (fun _ _ h => h.1) fun a w' h => hf a w' (h.2 a rfl)

/-- The paths may be more and the property weaker. -/
theorem Gives.mono {more : List Path} {x : ExceptT RunError (StateM World) α} {P R : α → Prop}
    (hx : Gives paths x w P) (hsub : paths ⊆ more) (h : ∀ a, P a → R a) : Gives more x w R :=
  Ensures.mono hx fun _ _ ht => ⟨ht.1.mono hsub, fun a ha => h a (ht.2 a ha)⟩

/-- A computation as part of a run touches nothing and gives what it gives. -/
theorem gives_attempt (wrap : ε → RunError) (x : Except ε α) (w : World) :
    Gives paths (attempt wrap x) w fun a => x = .ok a :=
  ⟨.refl paths w, fun _ ha => Outcome.mapError_eq_ok_iff.mp ha⟩

/-- A step as part of a run gives what it gives in the world that it starts from. -/
theorem gives_step {x : StateM World (Except ε α)} (hx : Confined paths x) (wrap : ε → RunError)
    (w : World) : Gives paths (step wrap x) w fun a => result x w = .ok a :=
  ⟨hx w, fun _ ha => Outcome.mapError_eq_ok_iff.mp ha⟩

/-- A message as part of a run. -/
theorem ensures_note (s : Settings) (n : Notice) (message : Text) (w : World) :
    Ensures (note s n message).run w fun _ w' => Touched paths w w' ∧ w'.store = w.store :=
  ensures_lift (ensures_tell s n message w)

/-- A message gives nothing to go on with. -/
theorem gives_note (s : Settings) (n : Notice) (message : Text) (w : World) :
    Gives paths (note s n message) w fun _ => True :=
  (ensures_note s n message w).mono fun _ _ h => ⟨h.1, fun _ _ => trivial⟩

/-! ## What the stages give -/

/-- The configuration of a run. -/
def configOf (w : World) (t : Task) : Except ConfigError Config :=
  result (Resolution.resolve t.configFile) w

/-- The source of a run. -/
def sourceOf (w : World) (config : Config) (version : Text) : Option Text →
    Except RetrievalError Text
  | some path => result (Retrieval.load path) w
  | none => result (Retrieval.fetch version config.urlTemplate (.float config.timeout)) w

/-- The commands with given names that a source registers. -/
def commandsOf (config : Config) (names : List Text) (source : Text) :
    Except RunError (List Command) := do
  let stripped ← (Erasure.erase source).mapError .erasure
  let script ← (Script.read stripped).mapError .source
  (Registration.extractAll script config.symbols names).mapError .extraction

/-- The commands of a run have the names that are configured, in order. -/
theorem names_of_commandsOf {config : Config} {names : List Text} {source : Text}
    {found : List Command} (h : commandsOf config names source = .ok found) :
    found.map Command.name = names := by
  obtain ⟨stripped, -, h⟩ := Outcome.bind_eq_ok_iff.mp h
  obtain ⟨script, -, h⟩ := Outcome.bind_eq_ok_iff.mp h
  exact Registration.names_of_extractAll (Outcome.mapError_eq_ok_iff.mp h)

/-- The files for intermediate results. -/
def artifacts (config : Config) : List Path :=
  [originalFile, strippedFile, treeFile].map (Path.ofText config.debugDir).child

/-- The files that a run may keep intermediate results in, if it is asked to. -/
def kept (config : Config) (debug : Bool) : List Path := if debug then artifacts config else []

/-- The configuration and the version are there before anything happens. A version that is blank
ends the run before the configuration is looked for. -/
theorem ensures_prepare (t : Task) (w : World) :
    Ensures (prepare t).run w fun r w' => w' = w ∧ ∀ config version, r = .ok (config, version) →
      configOf w t = .ok config ∧ version = Blank.trim t.version := by
  unfold prepare
  extract_lets version more
  split
  · exact ⟨rfl, nofun⟩
  · have hresolve : Ensures (step .config (Resolution.resolve t.configFile)).run w fun r w' =>
        w' = w ∧ ∀ config, r = .ok config → configOf w t = .ok config :=
      ⟨Resolution.reading_resolve t.configFile w, fun _ h => Outcome.mapError_eq_ok_iff.mp h⟩
    refine ensures_bind hresolve (fun e w' h => ⟨h.1, nofun⟩) fun config w' h => .pure ⟨h.1, ?_⟩
    intro config' version' heq
    cases heq
    exact ⟨h.2 config rfl, rfl⟩

/-- The source of a run is the one in the world before the message that announces it. -/
theorem gives_sourceText (s : Settings) (config : Config) (version : Text) (file : Option Text)
    (w : World) : Gives paths (sourceText s config version file) w fun text =>
      sourceOf w config version file = .ok text := by
  cases file with
  | some path =>
    refine .after (ensures_note s .progress _ w) (fun _ _ h => h.1) fun _ w' h => ?_
    -- the message in between leaves the store alone, so the file is read as it stood before
    have hsame : result (Retrieval.load path) w' = result (Retrieval.load path) w := by
      rw [Retrieval.result_load, Retrieval.result_load, h.2, h.1.directory_eq]
    refine (gives_step (Retrieval.reading_load path).confined _ w').mono (List.Subset.refl _) ?_
    intro text htext
    rw [hsame] at htext
    exact htext
  | none =>
    refine .after (ensures_note s .progress _ w) (fun _ _ h => h.1) fun _ w' h => ?_
    refine (gives_step (Retrieval.confined_fetch _ _ _) _ w').mono (List.Subset.refl _) ?_
    intro text htext
    rw [Retrieval.result_fetch, h.1.setting] at htext
    exact htext

/-- Keeping an intermediate result touches the one file for it, and the run goes on only if it is
written. -/
theorem gives_keep (s : Settings) {config : Config} {file : Text}
    (hfile : (Path.ofText config.debugDir).child file ∈ paths) (content : Text) (w : World) :
    Gives paths (keep s config file content) w fun _ => True := by
  have hwrite : Confined paths
      (AtomicWrite.write ((Path.ofText config.debugDir).child file) content) := by
    intro w
    refine (AtomicWrite.ensures_write _ content w).mono fun r w' h => ?_
    cases r with
    | error e => exact h.mono (List.nil_subset _)
    | ok u => exact h.1.mono (List.cons_subset.mpr ⟨hfile, List.nil_subset _⟩)
  exact (gives_step hwrite _ w).bind fun _ w' _ => gives_note s _ _ w'

/-- A result is kept only if that is asked for, and the run goes on as it would without. -/
theorem gives_kept (s : Settings) {config : Config} {debug : Bool} {file : Text}
    (hfile : debug = true → (Path.ofText config.debugDir).child file ∈ paths) (content : Text)
    {f : Unit → ExceptT RunError (StateM World) α} {R : α → Prop}
    (hf : ∀ w, Gives paths (f ()) w R) (w : World) :
    Gives paths (if debug = true then keep s config file content >>= f else f ()) w R := by
  split
  next hdebug => exact (gives_keep s (hfile hdebug) content w).bind fun _ w' _ => hf w'
  next => exact hf w

/-- Saying of each command whether it was found is a matter of messages. Induction on the
commands. -/
theorem gives_noteCommands (s : Settings) (found : List Command) (w : World) :
    Gives paths (found.forM (noteCommand s)) w fun _ => True := by
  induction found generalizing w with
  | nil => exact .pure trivial
  | cons c cs ih =>
    have hone : Gives paths (noteCommand s c) w fun _ => True := by
      unfold noteCommand
      split
      · exact gives_note s _ _ w
      · exact gives_note s _ _ w
    exact hone.bind fun _ w' _ => ih w'

/-- **What a run finds** depends on its surroundings, its configuration and its version.

The stages come in order: source, text without types, script, commands. Each `Gives` what it is as a
function of the one before, and after each of the first three something may be kept. That changes
the world, but only the source is read from the world, and it is read before. -/
theorem gives_commands (s : Settings) (config : Config) (debug : Bool) (version : Text)
    (file : Option Text) (names : List Text) (w : World) :
    Gives (kept config debug)
      (commands s config debug version file names) w fun found =>
        ∃ source, sourceOf w config version file = .ok source
          ∧ commandsOf config names source = .ok found := by
  have hkept : ∀ file ∈ [originalFile, strippedFile, treeFile], debug = true →
      (Path.ofText config.debugDir).child file ∈ kept config debug := by
    rintro file hfile rfl
    exact List.mem_map_of_mem hfile
  refine (gives_sourceText s config version file w).bind fun source w hsource => ?_
  refine .mono (P := fun found => commandsOf config names source = .ok found) ?_
    (List.Subset.refl _) fun found hfound => ⟨source, hsource, hfound⟩
  -- source, script and tree are kept on the way; none of that has a part in what is found
  extract_lets
  refine gives_kept s (hkept _ (by simp)) source (fun w => ?_) w
  refine (gives_attempt _ _ w).bind fun stripped w hstripped => ?_
  extract_lets
  refine gives_kept s (hkept _ (by simp)) stripped (fun w => ?_) w
  refine (gives_attempt _ _ w).bind fun script w hscript => ?_
  extract_lets extracted
  have hextracted : ∀ w, Gives (kept config debug) (extracted ()) w
      fun found => commandsOf config names source = .ok found := by
    intro w
    refine (gives_attempt _ _ w).bind fun found w hfound => ?_
    refine (gives_noteCommands s found w).bind fun _ w _ => .pure ?_
    have hfound' := Outcome.mapError_eq_ok_iff (f := RunError.extraction) |>.mpr hfound
    have hscript' := Outcome.mapError_eq_ok_iff (f := RunError.source) |>.mpr hscript
    have hstripped' := Outcome.mapError_eq_ok_iff (f := RunError.erasure) |>.mpr hstripped
    exact Outcome.bind_eq_ok_iff.mpr ⟨stripped, hstripped',
      Outcome.bind_eq_ok_iff.mpr ⟨script, hscript', hfound'⟩⟩
  split
  next hdebug =>
    refine (gives_attempt _ _ w).bind fun content w _ => ?_
    exact (gives_keep s (hkept treeFile (by simp) hdebug) content w).bind fun _ w _ => hextracted w
  next => exact hextracted w

end Run

end OptionTypes
