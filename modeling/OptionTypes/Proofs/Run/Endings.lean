import OptionTypes.CommandLine
import OptionTypes.Proofs.Run.Stages

/-!
# How runs end

A run either succeeds, with declarations or a table as its result, or it fails. A run for
declarations that fails has no result at all: declarations are one text, which the stream of results
takes or refuses as a whole. A plain table is written line by line, so of it the lines may be there
that stand before the first one which the stream refuses. What a failed run leaves behind in files
are intermediate results, if they were asked for, and a log of a failure that nobody foresaw.

* `Run.Finds` is the configuration and the commands of a run, which depend on its surroundings.
* `Run.Leaves` is a text as the result of a run, on the stream of results or in a file.
* `Run.Begun` is the beginning of a table that a failed run has written.
* `ensures_generate` and `ensures_inspect` are the two kinds of runs.
* `CommandLine.ensures_perform_generate` and `ensures_perform_inspect` add the exit code.
-/

namespace OptionTypes

open World

variable {paths : List Path} {w w' : World}

namespace Run

open Report

/-! ## What runs have in common -/

/-- Whether a run has a configuration, and finds commands under the names that this asks for. -/
structure Finds (w : World) (t : Task) (names : Config → List Text) (config : Config)
    (found : List Command) : Prop where
  config_eq : configOf w t = .ok config
  found_eq : ∃ source, sourceOf w config (Blank.trim t.version) t.sourceFile = .ok source
    ∧ commandsOf config (names config) source = .ok found

/-- Under the names that are asked for there is one command each, in order. -/
theorem Finds.names_eq {t : Task} {names : Config → List Text} {config : Config}
    {found : List Command} (h : Finds w t names config found) :
    found.map Command.name = names config := by
  obtain ⟨source, -, hfound⟩ := h.found_eq
  exact names_of_commandsOf hfound

/-- Whether two runs are asked for the same: by the same configuration and the same source, which is
that of a version if it is not in a file. -/
structure Agree (t t' : Task) : Prop where
  config : t.configFile = t'.configFile
  source : t.sourceFile = t'.sourceFile
  version : t.sourceFile = none → Blank.trim t.version = Blank.trim t'.version

/-- Whether two runs have the same configuration and the same source, wherever they are asked to
take them from. -/
structure Alike (w : World) (t t' : Task) : Prop where
  config : configOf w t = configOf w t'
  source : ∀ config, configOf w t = .ok config →
    sourceOf w config (Blank.trim t.version) t.sourceFile
      = sourceOf w config (Blank.trim t'.version) t'.sourceFile

/-- Runs that are asked for the same find the same configuration and source in any world. A version
only counts for a source that is fetched. -/
theorem Agree.alike {t t' : Task} (h : Agree t t') (w : World) : Alike w t t' where
  config := by rw [configOf, configOf, h.config]
  source config _ := by
    rw [← h.source]
    cases hfile : t.sourceFile with
    | some path => rfl
    | none => rw [h.version hfile]

/-- What a run finds is determined by its surroundings: two runs that are alike find the same. -/
theorem Finds.unique {t t' : Task} {names : Config → List Text} {config config' : Config}
    {found found' : List Command} (h : Finds w t names config found)
    (h' : Finds w t' names config' found') (halike : Alike w t t') :
    config = config' ∧ found = found' := by
  obtain rfl : config = config' :=
    Except.ok.inj (h.config_eq.symm.trans (halike.config.trans h'.config_eq))
  obtain ⟨source, hs, hf⟩ := h.found_eq
  obtain ⟨source', hs', hf'⟩ := h'.found_eq
  obtain rfl : source = source' :=
    Except.ok.inj (hs.symm.trans ((halike.source config h.config_eq).trans hs'))
  exact ⟨rfl, Except.ok.inj (hf.symm.trans hf')⟩

/-- The files that a run may keep intermediate results in. -/
def keptBy (w : World) (t : Task) (debug : Bool) : List Path :=
  match configOf w t with
  | .ok config => kept config debug
  | .error _ => []

/-- A path is one for an intermediate result if these are kept at all, and there is a configuration
that says where. -/
theorem mem_keptBy_iff {t : Task} {debug : Bool} {p : Path} :
    p ∈ keptBy w t debug ↔ debug = true ∧ ∃ config, configOf w t = .ok config
      ∧ p ∈ artifacts config := by
  unfold keptBy
  cases configOf w t with
  | error e => simp
  | ok config => cases debug <;> simp [kept]

/-- What a run finds with a configuration that is there. -/
theorem gives_found (s : Settings) {t : Task} (debug : Bool) (names : Config → List Text)
    {config : Config} (hconfig : configOf w t = .ok config) :
    Gives (keptBy w t debug)
      (commands s config debug (Blank.trim t.version) t.sourceFile (names config)) w
      (Finds w t names config) := by
  have hkept : kept config debug ⊆ keptBy w t debug := by
    rw [keptBy, hconfig]
    exact List.Subset.refl _
  exact (gives_commands s config debug _ _ _ w).mono hkept fun _ hfound => ⟨hconfig, hfound⟩

/-! ## Declarations -/

/-- Whether a text is the declarations for what a run finds. -/
def Declares (w : World) (t : Task) (text : Text) : Prop :=
  ∃ config found, Finds w t Config.commands config found
    ∧ Declaration.renderAll (.ofConfig config) found = .ok text

/-- Runs that are alike have the same declarations, since rendering is a function of what is
found. -/
theorem Declares.unique {t t' : Task} {text text' : Text} (h : Declares w t text)
    (h' : Declares w t' text') (halike : Alike w t t') : text = text' := by
  obtain ⟨config, found, hfinds, htext⟩ := h
  obtain ⟨config', found', hfinds', htext'⟩ := h'
  -- the configurations and the commands are the same from here on, so the texts are
  obtain ⟨rfl, rfl⟩ := hfinds.unique hfinds' halike
  exact Except.ok.inj (htext.symm.trans htext')

/-- Whether a text is all that a run leaves as its result: on the stream of results, or in a file
that it is asked to write. -/
def Leaves (w w' : World) (output : Option Text) (text : Text) : Prop :=
  match output with
  | none => w'.output .results = w.output .results ++ text
  | some path => w'.output .results = w.output .results
    ∧ AtomicWrite.Delivered (Path.ofText path) text w'

/-- The stages up to the text of the declarations, none of which touches the results. -/
theorem gives_declarations (s : Settings) (t : Task) (debug : Bool) (w : World) :
    Gives (keptBy w t debug) (declarations s t debug) w (Declares w t) := by
  refine .after (ensures_prepare t w) (fun _ _ h => h.1 ▸ .refl _ _) ?_
  rintro ⟨config, version⟩ w ⟨rfl, hprepared⟩
  obtain ⟨hconfig, rfl⟩ := hprepared config version rfl
  refine .bind (gives_found s debug Config.commands hconfig) fun found w' hfound => ?_
  exact (gives_attempt _ _ w').mono (List.Subset.refl _) fun _ h => ⟨config, found, hfound, h⟩

/-- Declarations end a line. -/
theorem data_of_renderAll {style : Declaration.Style} {found : List Command} {text : Text}
    (h : Declaration.renderAll style found = .ok text) : Settings.data text = text := by
  obtain ⟨interfaces, -, h⟩ := Outcome.bind_eq_ok_iff.mp h
  cases h
  have hends : Text.endsWith (Text.join "\n\n" interfaces ++ Text.ofString "\n") "\n" = true :=
    List.isSuffixOf_iff_suffix.mpr (List.suffix_append _ _)
  rw [Settings.data, if_pos hends]

/-- Pieces of a result are written up to the first one that the stream refuses. Induction on the
pieces: the ones after a piece are written to the world that it leaves, whose stream has the same
encoding. -/
theorem ensures_present (pieces : List Text) (w : World) :
    Ensures (present pieces) w fun r w' =>
      match r with
      | .ok () => Added w w' pieces.flatten
      | .error e => ∃ before t after, pieces = before ++ t :: after ∧ Added w w' before.flatten
        ∧ w.charset.refused? t = some e.position := by
  induction pieces generalizing w with
  | nil => exact .pure (.refl w)
  | cons t pieces ih =>
    refine (ensures_writeResult t w).bind fun r w₁ h₁ => ?_
    rcases h₁ with ⟨rfl, h₁, -⟩ | ⟨e, rfl, rfl, hrefused⟩
    · refine (ih w₁).mono fun r w₂ h₂ => ?_
      cases r with
      | ok u => exact h₁.trans h₂
      | error e =>
        obtain ⟨before, t', after, rfl, hadded, hrefused⟩ := h₂
        rw [h₁.charset_eq] at hrefused
        exact ⟨t :: before, t', after, rfl, h₁.trans hadded, hrefused⟩
    · exact .pure ⟨[], t, pieces, rfl, .refl w₁, hrefused⟩

/-- A result in one piece is there as a whole or not at all. -/
theorem ensures_present_one (text : Text) (w : World) :
    Ensures (present [text]) w fun r w' =>
      match r with
      | .ok () => Added w w' text
      | .error e => Touched [] w w' ∧ w.charset.refused? text = some e.position := by
  refine (ensures_present [text] w).mono fun r w' h => ?_
  cases r with
  | ok u =>
    have hadded : Added w w' (text ++ []) := h
    rwa [List.append_nil] at hadded
  | error e =>
    obtain ⟨before, t, after, hpieces, hadded, hrefused⟩ := h
    -- the only piece is the one that is refused, so nothing was written before it
    obtain ⟨rfl, hone⟩ | ⟨-, hnone⟩ := List.singleton_eq_append_iff.mp hpieces
    · obtain ⟨rfl, -⟩ := List.cons.inj hone
      exact ⟨⟨hadded.altered [], hadded.results.trans (List.append_nil _)⟩, hrefused⟩
    · cases hnone

/-- **A run that writes declarations** leaves them as its only result, or fails without one. The
stages before the last one never touch the results (`gives_declarations`); the last one writes a
single text, to the stream (`ensures_present_one`) or to a file (`AtomicWrite.ensures_write`), and
either of these is done as a whole. -/
theorem ensures_generate (s : Settings) (t : Task) (debug : Bool) (output : Option Text)
    (w : World) : Ensures (generate s t debug output).run w fun r w' =>
      match r with
      | .error _ => Touched (keptBy w t debug) w w'
      | .ok () => ∃ text, Declares w t text ∧ Leaves w w' output text := by
  refine ensures_bind (gives_declarations s t debug w) (fun _ _ h => h.1) fun text w₁ h₁ => ?_
  obtain ⟨htouched, hdeclares⟩ := h₁
  have htext := hdeclares text rfl
  cases output with
  | none =>
    refine (ensures_present_one (Settings.data text) w₁).bind fun r w₂ h₂ => ?_
    cases r with
    | error e => exact .pure (htouched.trans (h₂.1.mono (List.nil_subset _)))
    | ok u =>
      have hadded : Added w₁ w₂ (Settings.data text) := h₂
      refine .pure ⟨text, htext, ?_⟩
      obtain ⟨config, found, -, hrender⟩ := htext
      -- declarations end a line already, so nothing is added to them
      rw [Leaves, hadded.results, data_of_renderAll hrender, htouched.results]
  | some path =>
    -- the message comes after the file, and does not touch it
    have hwrite : Ensures (step .write (AtomicWrite.write (Path.ofText path) text)).run w₁
        fun r w₂ => match r with
          | .error _ => Touched [] w₁ w₂
          | .ok () => w₂.output .results = w₁.output .results
            ∧ AtomicWrite.Delivered (Path.ofText path) text w₂ := by
      refine (AtomicWrite.ensures_write (Path.ofText path) text w₁).bind fun r w₂ h₂ => ?_
      cases r with
      | error e => exact .pure h₂
      | ok u => exact .pure ⟨h₂.1.results, h₂.2⟩
    refine ensures_bind hwrite (fun _ w₂ h₂ => htouched.trans (h₂.mono (List.nil_subset _))) ?_
    intro u w₂ h₂
    have htell : Ensures (tell s .success ("Wrote " ++ path)) w₂ fun _ w₃ =>
        Touched [] w₂ w₃ ∧ w₃.store = w₂.store := ensures_tell s _ _ w₂
    refine ensures_lift (htell.mono fun _ w₃ h₃ => ⟨text, htext, ?_, ?_⟩)
    · rw [h₃.1.results, h₂.1, htouched.results]
    · obtain ⟨bytes, hencode, hread⟩ := h₂.2
      exact ⟨bytes, hencode, by rw [h₃.2, h₃.1.directory_eq, hread]⟩

/-! ## Tables -/

/-- The names of the commands that a table is asked for. -/
def asked (command : Option Text) (config : Config) : List Text :=
  match command with
  | some name => if name.isEmpty then config.commands else [name]
  | none => config.commands

/-- Whether a text is the table of the options that a run finds. -/
def Tabulates (s : Settings) (w : World) (t : Task) (command : Option Text) (text : Text) : Prop :=
  ∃ config found lines, Finds w t (asked command) config found
    ∧ rows (.ofConfig config) found = .ok lines
    ∧ s.table headers lines (some (title (Blank.trim t.version) lines.length)) = .ok text

/-- Whether nothing but the beginning of a table was added to the results. -/
def Begun (s : Settings) (w w' : World) (t : Task) (command : Option Text) : Prop :=
  ∃ told, w'.output .results = w.output .results ++ told
    ∧ (told = [] ∨ ∃ text, Tabulates s w t command text ∧ told <+: text)

/-- A run that has not touched the results has begun no table. -/
theorem begun_of_touched {s : Settings} {t : Task} {command : Option Text}
    (h : Touched paths w w') : Begun s w w' t command :=
  ⟨[], h.results.trans (List.append_nil _).symm, .inl rfl⟩

/-- A run that is not asked to keep intermediate results has no files for them. -/
theorem keptBy_false (w : World) (t : Task) : keptBy w t false = [] := by
  unfold keptBy
  cases configOf w t with
  | error e => rfl
  | ok config => rfl

/-- **A run that lists options** leaves a table as its only result, or the beginning of one where it
fails, and no file is changed. Everything that the table says is there before its first piece is
written, so a stage that fails earlier leaves nothing. -/
theorem ensures_inspect (s : Settings) (t : Task) (command : Option Text) (w : World) :
    Ensures (inspect s t command).run w fun r w' =>
      (∀ l, w'.store.fileAt? l = w.store.fileAt? l) ∧
      match r with
      | .error _ => Altered [] w w' ∧ Begun s w w' t command
      | .ok () => ∃ text, Tabulates s w t command text
        ∧ w'.output .results = w.output .results ++ text := by
  -- nothing is kept for a table, so wherever a stage fails no file has changed
  have hfail : ∀ w', Touched (keptBy w t false) w w' →
      (∀ l, w'.store.fileAt? l = w.store.fileAt? l)
        ∧ Altered [] w w' ∧ Begun s w w' t command := by
    intro w' h
    rw [keptBy_false] at h
    exact ⟨h.fileAt?_eq, h.toAltered, begun_of_touched h⟩
  refine ensures_bind (ensures_prepare t w) (fun _ w' h => hfail w' (h.1 ▸ .refl _ _)) ?_
  rintro ⟨config, version⟩ w ⟨rfl, hprepared⟩
  obtain ⟨hconfig, rfl⟩ := hprepared config version rfl
  refine ensures_bind (gives_found s false (asked command) hconfig) (fun _ w' h => hfail w' h.1)
    fun found w₁ h₁ => ?_
  have hstay : ∀ w', Touched (keptBy w t false) w₁ w' → Touched (keptBy w t false) w w' :=
    fun _ h => h₁.1.trans h
  extract_lets failed
  refine ensures_bind (gives_attempt failed _ w₁) (fun _ w' h => hfail w' (hstay w' h.1))
    fun lines w₂ h₂ => ?_
  refine ensures_bind (gives_attempt failed _ w₂)
    (fun _ w' h => hfail w' (hstay w' (h₂.1.trans h.1))) fun pieces w₃ h₃ => ?_
  have htouched : Touched (keptBy w t false) w w₃ := hstay w₃ (h₂.1.trans h₃.1)
  obtain ⟨hsame, haltered, -⟩ := hfail w₃ htouched
  have htable : Tabulates s w t command pieces.flatten := by
    refine ⟨config, found, lines, h₁.2 found rfl, h₂.2 lines rfl, ?_⟩
    rw [Settings.table, h₃.2 pieces rfl]
    rfl
  -- from here on pieces are written, and what was written stays where one is refused
  refine (ensures_present pieces w₃).bind fun r w₄ h₄ => ?_
  cases r with
  | ok u =>
    have hadded : Added w₃ w₄ pieces.flatten := h₄
    refine .pure ⟨fun l => ?_, pieces.flatten, htable, ?_⟩
    · rw [hadded.store_eq]
      exact hsame l
    · rw [hadded.results, htouched.results]
  | error e =>
    obtain ⟨before, piece, after, rfl, hadded, -⟩ := h₄
    refine .pure ⟨fun l => ?_, haltered.trans (hadded.altered []), before.flatten, ?_, .inr ?_⟩
    · rw [hadded.store_eq]
      exact hsame l
    · rw [hadded.results, htouched.results]
    · exact ⟨_, htable, by rw [List.flatten_append]; exact List.prefix_append _ _⟩

end Run

/-! ## Exit codes -/

namespace CommandLine

open Run Report

/-- The file that a run leaves a log in if it fails in a way that is not foreseen. -/
def crashLog (w : World) : Path :=
  ((result DataDirectory.path w).child "logs").child ("crash-" ++ w.timestamp ++ ".log")

/-- Finding the directory for data changes nothing; it is made where something is written to it. -/
theorem reading_dataDirectory : Reading DataDirectory.path :=
  reading_hasDataConvention.bind fun _ => reading_home.bind fun _ =>
    (reading_lookup _).bind fun _ => .pure _

/-- The place of the log depends on nothing that a run changes. -/
theorem Altered.crashLog_eq (h : Altered paths w w') : crashLog w' = crashLog w := by
  rw [h.setting]
  rfl

/-- Leaving a log touches the one file for it. The world says where that is, and no step on the way
there changes what it says. -/
theorem ensures_leaveLog (e : RunError) (w : World) :
    Ensures (leaveLog e) w fun _ w' => Touched [crashLog w] w w' := by
  have hpath : Ensures DataDirectory.path w fun p w' => p = result DataDirectory.path w ∧ w' = w :=
    ⟨rfl, reading_dataDirectory w⟩
  refine hpath.bind ?_
  rintro p w ⟨rfl, rfl⟩
  have hmake : Confined [crashLog w]
      (AtomicWrite.makeDirectories ((result DataDirectory.path w).child "logs")) :=
    AtomicWrite.confined_makeDirectories _
  refine (hmake w).bind fun _ w₁ h₁ => ?_
  -- the time is asked for after the directories are made, and is the same
  have htime : Ensures Host.timestamp w₁ fun t w' => t = w.timestamp ∧ w' = w₁ := by
    refine ⟨?_, rfl⟩
    show w₁.timestamp = w.timestamp
    rw [h₁.setting]
  refine htime.bind ?_
  rintro t w₁ ⟨rfl, rfl⟩
  exact (confined_writeFile _ _ w₁).bind fun _ w₂ h₂ => .pure (h₁.trans h₂)

/-- A failure that is foreseen has an exit code of its own. -/
theorem exitCode_ne_success {e : RunError} {d : Diagnosis} (h : e.diagnosis? = some d) :
    d.exitCode ≠ success := by
  unfold RunError.diagnosis? at h
  -- errors that leak have no diagnosis, and each of the others has an exit code of its own
  split at h
  next =>
    cases h
    exact (by decide : 2 ≠ success)
  next e =>
    unfold RunError.diagnoseConfig at h
    split at h
    next => cases h
    next => cases h
    next => cases h
    next => cases h
    next => cases h
    next =>
      cases h
      exact (by decide : 1 ≠ success)
  next => cases h
  next =>
    cases h
    exact (by decide : 6 ≠ success)
  next =>
    cases h
    exact (by decide : 7 ≠ success)
  next =>
    cases h
    exact (by decide : 8 ≠ success)
  next => cases h

/-- A failure is told, foreseen or not, and never gives the exit code of a success. A foreseen one
is told by messages alone; any other one leaves a log. -/
theorem ensures_explain (s : Settings) (e : RunError) (w : World) :
    Ensures (explain s e) w fun code w' => code ≠ success ∧ Touched [crashLog w] w w' := by
  have htell : ∀ n message w₁,
      Ensures (tell s n message) w₁ fun _ w₂ => Touched [crashLog w] w₁ w₂ :=
    fun n message w₁ => (ensures_tell s n message w₁).mono fun _ _ h => h.1
  unfold explain
  split
  -- a foreseen failure: messages only
  next d hd =>
    have hcode := exitCode_ne_success hd
    refine (htell _ _ w).bind fun _ w₁ h₁ => ?_
    extract_lets finish
    split
    next t _ => exact (htell .suggestion t w₁).bind fun _ _ h₂ => .pure ⟨hcode, h₁.trans h₂⟩
    next => exact .pure ⟨hcode, h₁⟩
  -- any other one: a log, and a message that says where it is
  next =>
    refine (ensures_leaveLog e w).bind fun log w₁ h₁ => ?_
    exact (htell .error _ w₁).bind fun _ _ h₂ => .pure ⟨by decide, h₁.trans h₂⟩

/-! ## Whole runs -/

/-- A run of the program in a world: its exit code and the world it leaves. -/
def runIn (w : World) (arguments : List Text) : Nat × World :=
  (run arguments : StateM World Nat).run w

variable {arguments : List Text} {flags : Flags} {task : Task}

/-- How a run with given flags reports in a world. -/
def settingsIn (flags : Flags) (w : World) : Settings := result (settings flags) w

/-- What arguments ask for is done with the settings of the world, and a failure is explained. What
a run comes to then follows from what its task comes to. -/
theorem ensures_run {action : Action} (hparse : parse arguments = .ok (.perform flags action task))
    {P : Except RunError Unit → World → Prop} {Q : Nat → World → Prop}
    (hperform : Ensures (perform (settingsIn flags w) action task).run w P)
    (hok : ∀ w', P (.ok ()) w' → Q success w')
    (herror : ∀ e w', P (.error e) w' → Ensures (explain (settingsIn flags w) e) w' Q) :
    Ensures (run arguments) w Q := by
  unfold run
  rw [hparse]
  have hsettings : Ensures (settings flags) w fun s w' => s = settingsIn flags w ∧ w' = w :=
    ⟨rfl, reading_settings flags w⟩
  refine hsettings.bind ?_
  rintro s w ⟨rfl, rfl⟩
  refine hperform.bind fun r w' h => ?_
  cases r with
  | ok u => exact .pure (hok w' h)
  | error e => exact herror e w' h

/-- What a failure leaves is what the failed part left, and possibly a log; the results are those of
the failed part. -/
theorem ensures_explain_after (s : Settings) (e : RunError) (h : Altered paths w w') :
    Ensures (explain s e) w' fun code w'' => code ≠ success
      ∧ Altered (crashLog w :: paths) w w'' ∧ w''.output .results = w'.output .results := by
  refine (ensures_explain s e w').mono fun code w'' h' => ⟨h'.1, ?_, h'.2.results⟩
  have hlog : [crashLog w'] ⊆ crashLog w :: paths := by
    rw [Altered.crashLog_eq h]
    exact List.cons_subset.mpr ⟨List.mem_cons_self, List.nil_subset _⟩
  exact (h.mono (List.subset_cons_self _ _)).trans (h'.2.toAltered.mono hlog)

/-- **Runs for declarations**: with the exit code of a success the declarations are the result; with
any other one there is no result, and of all files only those of intermediate results and a log may
have changed. -/
theorem ensures_perform_generate {debug : Bool} {output : Option Text}
    (hparse : parse arguments = .ok (.perform flags (.generate debug output) task)) (w : World) :
    Ensures (run arguments) w fun code w' =>
      (code = success ∧ ∃ text, Declares w task text ∧ Leaves w w' output text)
        ∨ (code ≠ success ∧ Touched (crashLog w :: keptBy w task debug) w w') := by
  refine ensures_run hparse (ensures_generate _ task debug output w)
    (fun w' h => .inl ⟨rfl, h⟩) fun e w' h => ?_
  have hfailed : Touched (keptBy w task debug) w w' := h
  refine (ensures_explain_after _ e hfailed.toAltered).mono fun _ _ h' => .inr ⟨h'.1, h'.2.1, ?_⟩
  -- explaining a failure adds nothing to the results
  exact h'.2.2.trans hfailed.results

/-- **Runs for tables**: with the exit code of a success the table is the result; with any other
one there is at most its beginning, and of all files only a log may have changed. -/
theorem ensures_perform_inspect {command : Option Text}
    (hparse : parse arguments = .ok (.perform flags (.inspect command) task)) (w : World) :
    Ensures (run arguments) w fun code w' =>
      (code = success ∧ (∀ l, w'.store.fileAt? l = w.store.fileAt? l)
        ∧ ∃ text, Tabulates (settingsIn flags w) w task command text
          ∧ w'.output .results = w.output .results ++ text)
        ∨ (code ≠ success ∧ Altered [crashLog w] w w'
          ∧ Begun (settingsIn flags w) w w' task command) := by
  refine ensures_run hparse (ensures_inspect _ task command w)
    (fun w' h => .inl ⟨rfl, h⟩) fun e w' h => ?_
  obtain ⟨-, haltered, told, htold, hbegun⟩ := h
  refine (ensures_explain_after _ e haltered).mono fun _ _ h' => .inr ⟨h'.1, h'.2.1, told, ?_, hbegun⟩
  exact h'.2.2.trans htold

/-- Arguments that cannot be read are told of, and nothing else happens. -/
theorem ensures_misuse {e : UsageError} (hparse : parse arguments = .error e) (w : World) :
    Ensures (run arguments) w fun code w' => code = misuse ∧ Touched [] w w' := by
  unfold run
  rw [hparse]
  exact (confined_writeMessage _ w).bind fun _ _ h => .pure ⟨rfl, h⟩

/-! ## Texts about the program -/

/-- Whether all code points of a text are ASCII characters. -/
def isAscii (t : Text) : Bool := t.all (·.is fun c => c.toNat < 128)

/-- No encoding refuses an ASCII text. -/
theorem refused?_of_isAscii {t : Text} (h : isAscii t = true) (s : Charset) :
    s.refused? t = none := by
  rw [Charset.refused?, List.findIdx?_eq_none_iff]
  intro c hc
  have hascii := List.all_eq_true.mp h c hc
  cases c with
  | char c => simp [s.ascii c (of_decide_eq_true hascii)]
  | surrogate n => cases hascii

/-- A text about the program itself is always taken, since it is in ASCII. -/
theorem ensures_announce {t : Text} (h : isAscii t = true) (w : World) :
    Ensures (announce t) w fun code w' =>
      code = success ∧ w'.output .results = w.output .results ++ t := by
  refine (ensures_present_one t w).bind fun r w₁ h₁ => ?_
  cases r with
  | ok u =>
    have hadded : Added w w₁ t := h₁
    exact .pure ⟨rfl, hadded.results⟩
  | error e =>
    have hrefused : w.charset.refused? t = some e.position := h₁.2
    rw [refused?_of_isAscii h] at hrefused
    cases hrefused

/-- The version is the only result of a run that asks for it. -/
theorem ensures_version (hparse : parse arguments = .ok .version) (w : World) :
    Ensures (run arguments) w fun code w' =>
      code = success ∧ w'.output .results = w.output .results ++ versionLine := by
  unfold run
  rw [hparse]
  exact ensures_announce (by decide) w

/-- The usage is the only result of a run that asks for help. -/
theorem ensures_help (hparse : parse arguments = .ok .help) (w : World) :
    Ensures (run arguments) w fun code w' =>
      code = success ∧ w'.output .results = w.output .results ++ usage := by
  unfold run
  rw [hparse]
  exact ensures_announce (by decide +kernel) w

end CommandLine

end OptionTypes
