import OptionTypes.Proofs.World
import OptionTypes.Store.AtomicWrite

/-!
# Writing a whole file, at once or not at all

A text goes to a temporary file first. As long as that stands, every other file is what it was, and
its own location held nothing before; so removing it restores all files, and renaming it changes
exactly one.

* `AtomicWrite.Pending` is the world with a temporary file, which every step of a write keeps.
* `AtomicWrite.Delivered` says that a path leads to a file with a text.
* `AtomicWrite.ensures_write`: a write delivers the text and touches nothing else, or it fails and
  touches nothing.
-/

namespace OptionTypes.AtomicWrite

open World

variable {w w' : World} {paths : List Path} {temporary target : Path} {l : Location}

/-! ## Directories on the way -/

/-- Whether a directory was made or is asked for again, no file changes. -/
theorem confined_ensureDirectory (p : Path) (made : Except StoreFault Unit) :
    Confined paths (ensureDirectory p made) := by
  cases made with
  | ok u => exact .pure _
  | error e =>
    refine (reading_isDirectory p).confined.bind fun b => ?_
    split
    · exact .pure _
    · exact .pure _

/-- Making the directories on the way changes no file. Induction on the names above the
directory. -/
theorem confined_makeAll (root : Text) (names : List Text) :
    Confined paths (makeAll root names) := by
  induction names with
  | nil => exact (confined_makeDirectory _).bind fun made => confined_ensureDirectory _ made
  | cons name above ih =>
    refine (confined_makeDirectory _).bind fun made => ?_
    split
    · refine ih.bind fun made => ?_
      split
      · exact .pure _
      · exact (confined_makeDirectory _).bind fun made => confined_ensureDirectory _ made
    · exact confined_ensureDirectory _ _

/-- Making a directory with all that it stands in changes no file. -/
theorem confined_makeDirectories (p : Path) : Confined paths (makeDirectories p) :=
  confined_makeAll _ _

/-! ## The temporary file -/

/-- Whether a world is another one with a temporary file at a location where nothing was. -/
structure Pending (temporary : Path) (bytes : Bytes) (l : Location) (w w' : World) : Prop where
  setting : w' = { w with store := w'.store }
  grows : w.store.Grows w'.store
  leads : w'.store.locate w'.directory temporary = .ok l
  held : w'.store.find? l = some (.file bytes)
  free : w.store.find? l = none
  elsewhere : ∀ l', l' ≠ l → w'.store.find? l' = w.store.find? l'

/-- A temporary file is not at the root: there is a directory. -/
theorem Pending.ne_nil {bytes : Bytes} (h : Pending temporary bytes l w w') : l ≠ [] := by
  rintro rfl
  cases h.free

/-- A new temporary file is pending. Its name holds a mark that is longer than every name in the
store, so nothing stood there before (`Store.find?_fresh`). -/
theorem ensures_createTemporary (directory : Path) (start stop : Text) (w : World) :
    Ensures (Host.createTemporary directory start stop) w fun made w' =>
      match made with
      | .error _ => w' = w
      | .ok temporary => ∃ l, Pending temporary [] l w w' := by
  let path := directory.child (start ++ w.store.freshMark ++ stop)
  cases h : w.store.writeFile w.directory path [] with
  | error e =>
    have hrun : (createTemporary directory start stop).run w = (.error e, w) := by
      show createTemporary directory start stop w = _
      rw [createTemporary, h]
    show Ensures (createTemporary directory start stop) w _
    rw [Ensures, hrun]
  | ok store =>
    have hrun : (createTemporary directory start stop).run w = (.ok path, { w with store }) := by
      show createTemporary directory start stop w = _
      rw [createTemporary, h]
    show Ensures (createTemporary directory start stop) w _
    rw [Ensures, hrun]
    -- the name is new, so an empty file is added and all others stay
    obtain ⟨l, hl, hne, hdir, rfl⟩ := Store.writeFile_eq_ok h
    have hgrows := Store.grows_put (e := .file []) hne hdir
    obtain ⟨at_, -, -, rfl⟩ := (Store.locate_child Store.fresh_ne_above).mp hl
    refine ⟨_, rfl, hgrows, hgrows.locate hl, ?_, Store.find?_fresh, fun l' hl' => ?_⟩
    · rw [Store.find?_put hne, if_pos rfl]
    · rw [Store.find?_put hne, if_neg hl']

/-- Removing the temporary file restores every file: nothing stood there before, and everything else
is untouched. -/
theorem ensures_remove {bytes : Bytes} (h : Pending temporary bytes l w w') :
    Ensures (Host.remove temporary) w' fun _ w'' => Touched [] w w'' := by
  refine ensures_change (fun e he => ?_) fun store hstore => ?_
  · -- the temporary file is there, so it can be removed
    rw [Store.remove_of_file h.leads h.held] at he
    cases he
  · rw [Store.remove_of_file h.leads h.held] at hstore
    obtain rfl := Except.ok.inj hstore
    -- the temporary file stood at a free location, and removing it frees the location again
    have hfind : ∀ l', (w'.store.erase l).find? l' = w.store.find? l' := by
      intro l'
      rw [Store.find?_erase h.ne_nil]
      by_cases heq : l' = l
      · rw [if_pos heq, heq, h.free]
      · rw [if_neg heq, h.elsewhere l' heq]
    refine ⟨⟨?_, fun l' hl' => (hfind l').trans hl', fun l' hl' => ?_⟩, ?_⟩
    · rw [h.setting]
    · exact absurd (Store.fileAt?_congr (hfind l')) hl'
    · rw [h.setting]
      rfl

/-- Writing to the temporary file keeps it pending. -/
theorem ensures_writeFile {before : Bytes} (h : Pending temporary before l w w') (bytes : Bytes) :
    Ensures (Host.writeFile temporary bytes) w' fun r w'' =>
      match r with
      | .error _ => w'' = w'
      | .ok () => Pending temporary bytes l w w'' := by
  refine ensures_change (fun _ _ => rfl) fun store hstore => ?_
  obtain ⟨l', hl', hne, hdir, rfl⟩ := Store.writeFile_eq_ok hstore
  obtain rfl : l' = l := Except.ok.inj (hl'.symm.trans h.leads)
  have hgrows := Store.grows_put (e := .file bytes) hne hdir
  refine ⟨?_, h.grows.trans hgrows, hgrows.locate hl', ?_, h.free, fun k hk => ?_⟩
  · rw [h.setting]
  · rw [Store.find?_put hne, if_pos rfl]
  · rw [Store.find?_put hne, if_neg hk, h.elsewhere k hk]

/-! ## The whole write -/

/-- Whether a path leads to a file with a text. -/
def Delivered (target : Path) (text : Text) (w : World) : Prop :=
  ∃ bytes, Utf8.encodeText text = .ok bytes ∧ w.store.read w.directory target = .ok bytes

/-- Renaming the temporary file changes the target and nothing else. Two locations change, of which
the temporary one returns to what it was, namely nothing, so for the files of the world before the
write there is only the target. -/
theorem ensures_rename {bytes : Bytes} (h : Pending temporary bytes l w w') (target : Path) :
    Ensures (Host.rename temporary target) w' fun r w'' =>
      match r with
      | .error _ => w'' = w'
      | .ok () => Touched [target] w w'' ∧ w''.store.read w''.directory target = .ok bytes := by
  refine ensures_change (fun _ _ => rfl) fun store hstore => ?_
  obtain ⟨source, at_, bytes', hsource, htarget, hfile, hdir, rfl⟩ := Store.rename_eq_ok hstore
  obtain rfl : source = l := Except.ok.inj (hsource.symm.trans h.leads)
  obtain rfl : bytes' = bytes := by
    rw [h.held] at hfile
    cases hfile
    rfl
  have hne : at_ ≠ [] := by
    rintro rfl
    exact hdir rfl
  -- the temporary file is gone, and its location held nothing before: only the target differs
  have hfind : ∀ k, ((w'.store.erase source).put at_ (.file bytes')).find? k
      = if k = at_ then some (.file bytes') else w.store.find? k := by
    intro k
    rw [Store.find?_put hne, Store.find?_erase h.ne_nil]
    by_cases hk : k = source
    · rw [if_pos hk, hk, h.free]
    · rw [if_neg hk, h.elsewhere k hk]
  have hgrows : w'.store.Grows ((w'.store.erase source).put at_ (.file bytes')) := by
    have herase : w'.store.Grows (w'.store.erase source) :=
      Store.grows_erase h.ne_nil (by rw [h.held]; nofun)
    refine herase.trans (Store.grows_put hne ?_)
    rw [Store.find?_erase h.ne_nil]
    split
    · nofun
    · exact hdir
  refine ⟨⟨⟨?_, h.grows.trans hgrows, fun k hk => ?_⟩, ?_⟩, ?_⟩
  · rw [h.setting]
  · by_cases hat : k = at_
    · subst hat
      exact ⟨target, List.mem_singleton_self target, hgrows.locate htarget⟩
    · exact absurd (Store.fileAt?_congr (by rw [hfind, if_neg hat])) hk
  · rw [h.setting]
    rfl
  · show Store.read _ w'.directory target = _
    rw [Store.read_eq_ok_iff]
    exact ⟨at_, hgrows.locate htarget, by rw [hfind, if_pos rfl]⟩

/-- What comes of a write, from a world on. -/
def Ended (target : Path) (text : Text) (w : World) (r : Except WriteFault Unit) (w' : World) :
    Prop :=
  match r with
  | .error _ => Touched [] w w'
  | .ok () => Touched [target] w w' ∧ Delivered target text w'

/-- A write that is given up has removed its temporary file, and so has changed nothing. -/
theorem ensures_abandon {bytes : Bytes} {text : Text} (h : Pending temporary bytes l w w')
    (e : WriteFault) : Ensures (abandon temporary e) w' (Ended target text w) :=
  (ensures_remove h).bind fun _ _ htouched => .pure htouched

/-- A pending temporary file is renamed, or removed where a step fails. Each of the three steps that
may fail, to encode, to write and to rename, ends in the same way. -/
theorem ensures_fill (h : Pending temporary [] l w w') (text : Text) :
    Ensures (fill temporary target text) w' (Ended target text w) := by
  unfold fill
  split
  next e _ => exact ensures_abandon h _
  next bytes hbytes =>
    refine (ensures_writeFile h bytes).bind fun written w₁ h₁ => ?_
    split
    next e =>
      obtain rfl : w₁ = w' := h₁
      exact ensures_abandon h _
    next =>
      refine (ensures_rename h₁ target).bind fun renamed w₂ h₂ => ?_
      split
      next e =>
        obtain rfl : w₂ = w₁ := h₂
        exact ensures_abandon h₁ _
      next => exact .pure ⟨h₂.1, bytes, hbytes, h₂.2⟩

/-- **At once or not at all.** A write delivers the text and changes no file but the one that the
path leads to; or it fails, and changes no file.

Directories come first and are no files. From the temporary file on the world is `Pending`, and
`ensures_fill` says how that ends. -/
theorem ensures_write (target : Path) (text : Text) (w : World) :
    Ensures (write target text) w (Ended target text w) := by
  have hnone : [] ⊆ [target] := List.nil_subset _
  -- making the directories changes no file
  have hmake : Confined [] (makeDirectories target.parent) := confined_makeDirectories _
  refine (hmake w).bind fun made w₁ h₁ => ?_
  split
  next e => exact .pure h₁
  next =>
    refine (ensures_createTemporary _ _ _ w₁).bind fun created w₂ h₂ => ?_
    split
    next e =>
      obtain rfl : w₂ = w₁ := h₂
      exact .pure h₁
    next temporary =>
      obtain ⟨l, hpending⟩ := h₂
      refine (ensures_fill hpending text).mono fun r w₃ h₃ => ?_
      cases r with
      | error e => exact h₁.trans h₃
      | ok u => exact ⟨(h₁.mono hnone).trans h₃.1, h₃.2⟩

end OptionTypes.AtomicWrite
