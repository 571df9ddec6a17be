import OptionTypes.Proofs.Store.AtomicWrite
import OptionTypes.Proofs.Utf8

/-!
# Writes one after the other

A single write either delivers its text or changes no file. Which of the two comes about is decided
by what stands in its way: a file on the way to the target, a directory at the target, a target
without a name, or a text without an encoding. Directories that are missing on the way are made,
also for a write that fails in the end, so an earlier write can prevent a later one.

Over a sequence of writes the last text that was delivered to a location is the one that stays.

* `Store.way` are the locations on the way of a path, whatever stands there.
* `AtomicWrite.Prevented` is what stands in the way of a write, and `ensures_write_iff` says that
  nothing else does.
* `AtomicWrite.writeAll_files`: what all files are after a sequence of writes.
-/

namespace OptionTypes

/-! ## The way of a path -/

namespace Store

variable {s s' : Store} {l at_ : Location} {name : Text} {names : List Text}

/-- The location that a name leads to from another one. -/
def next (at_ : Location) (name : Text) : Location :=
  if name = Path.above then at_.dropLast else at_ ++ [name]

/-- The location that names lead to from another one, if all goes well. -/
def arrive (at_ : Location) (names : List Text) : Location := names.foldl next at_

/-- The locations that names lead through before they arrive. -/
def passed (at_ : Location) : List Text → List Location
  | [] => []
  | name :: rest => at_ :: passed (next at_ name) rest

/-- The locations that names lead through, and the one where they arrive. -/
def way (at_ : Location) (names : List Text) : List Location :=
  passed at_ names ++ [arrive at_ names]

/-- One name more leads one step further. -/
theorem arrive_concat : arrive at_ (names ++ [name]) = next (arrive at_ names) name := by
  rw [arrive, arrive, List.foldl_append, List.foldl_cons, List.foldl_nil]

/-- The locations before the last name are the whole way of the names before it. Induction on
those. -/
theorem passed_concat : passed at_ (names ++ [name]) = way at_ names := by
  induction names generalizing at_ with
  | nil => rfl
  | cons first rest ih =>
    show at_ :: passed (next at_ first) (rest ++ [name]) = _
    rw [ih]
    rfl

theorem way_nil : way at_ [] = [at_] := rfl

/-- One name more adds its location to the way. -/
theorem way_concat :
    way at_ (names ++ [name]) = way at_ names ++ [next (arrive at_ names) name] := by
  rw [way, passed_concat, arrive_concat]

/-- Names lead somewhere when all locations on the way there are directories, and then they lead
where they would lead if all went well. Stated with `passed` and `arrive`, the way of a path no
longer depends on what stands there. -/
theorem follow_eq_ok_iff : s.follow at_ names = .ok l
    ↔ (∀ k ∈ passed at_ names, s.find? k = some .directory) ∧ arrive at_ names = l := by
  induction names generalizing at_ with
  | nil =>
    rw [follow, Except.ok.injEq]
    exact ⟨fun h => ⟨List.forall_mem_nil _, h⟩, fun h => h.2⟩
  | cons first rest ih =>
    rw [follow_cons, passed, List.forall_mem_cons, and_assoc]
    exact and_congr_right fun _ => ih

/-- Names lead nowhere when something on the way is missing, or is a file. -/
theorem follow_eq_error {e : StoreFault} (h : s.follow at_ names = .error e) :
    e = .missing ∨ ∃ k ∈ passed at_ names, (s.fileAt? k).isSome = true := by
  induction names generalizing at_ with
  | nil => cases h
  | cons first rest ih =>
    rw [follow] at h
    split at h
    next =>
      cases h
      exact .inl rfl
    -- a file stands where a directory should, and it is among the passed ones
    next bytes hfile =>
      have hheld : (s.fileAt? at_).isSome = true := by
        rw [fileAt?, hfile]
        rfl
      exact .inr ⟨at_, List.mem_cons_self, hheld⟩
    next =>
      refine (ih h).imp_right ?_
      rintro ⟨k, hk, hheld⟩
      exact ⟨k, List.mem_cons_of_mem _ hk, hheld⟩

/-- Whether a file stands at a location that names lead through or arrive at. -/
def Obstructed (s : Store) (at_ : Location) (names : List Text) : Prop :=
  ∃ k ∈ way at_ names, (s.fileAt? k).isSome = true

/-- Without names there is only the location itself. -/
theorem obstructed_nil : s.Obstructed at_ [] ↔ (s.fileAt? at_).isSome = true := by
  simp only [Obstructed, way_nil, List.mem_singleton, exists_eq_left]

/-- The file in the way is one of the locations before the last, or the last one. -/
theorem obstructed_concat : s.Obstructed at_ (names ++ [name])
    ↔ s.Obstructed at_ names ∨ (s.fileAt? (next (arrive at_ names) name)).isSome = true := by
  simp only [Obstructed, way_concat, List.mem_append, List.mem_singleton, or_and_right, exists_or,
    exists_eq_left]

/-- A way on which all is well is free of files. -/
theorem not_obstructed (h : ∀ k ∈ way at_ names, s.find? k = some .directory) :
    ¬s.Obstructed at_ names := by
  rintro ⟨k, hk, hfile⟩
  rw [fileAt?, h k hk] at hfile
  cases hfile

/-- The location from which the names of a path lead. -/
def origin (directory : Location) (p : Path) : Location := if p.root.isEmpty then directory else []

/-- A path leads to a location when all locations on the way there are directories. -/
theorem locate_eq_ok_iff {directory : Location} {p : Path} : s.locate directory p = .ok l
    ↔ (∀ k ∈ passed (origin directory p) p.names, s.find? k = some .directory)
      ∧ arrive (origin directory p) p.names = l :=
  follow_eq_ok_iff

end Store

namespace AtomicWrite

open World Store

variable {w w' : World} {target temporary : Path} {l : Location} {text : Text}

/-! ## Making the directories on the way -/

/-- Whether the directories on the way of names are made, and nothing else. -/
def Opened (at_ : Location) (names : List Text) (w w' : World) : Prop :=
  ∀ k, w'.store.find? k = if k ∈ way at_ names then some .directory else w.store.find? k

/-- What comes of making the directories on the way of names. -/
def Made (at_ : Location) (names : List Text) (w : World) (r : Except StoreFault Unit)
    (w' : World) : Prop :=
  match r with
  | .ok () => ¬w.store.Obstructed at_ names ∧ Opened at_ names w w'
  | .error _ => w.store.Obstructed at_ names

/-- What comes of making one directory at a location. -/
def MadeAt (l : Location) (w : World) (r : Except StoreFault Unit) (w' : World) : Prop :=
  match r with
  | .ok () => w.store.fileAt? l = none
    ∧ ∀ k, w'.store.find? k = if k = l then some .directory else w.store.find? k
  | .error _ => (w.store.fileAt? l).isSome = true

/-- Where a path leads nowhere, nothing is made there. -/
theorem ensures_makeDirectory_nowhere {p : Path} {e : StoreFault}
    (h : w.store.locate w.directory p = .error e) :
    Ensures (Host.makeDirectory p) w fun made w₁ => made = .error e ∧ w₁ = w := by
  have hfails : w.store.makeDirectory w.directory p = .error e := by
    rw [Store.makeDirectory, h]
    rfl
  refine ensures_change (fun e' he' => ?_) fun store hstore => ?_
  · exact ⟨congrArg Except.error (Except.error.inj (he'.symm.trans hfails)), rfl⟩
  · rw [hfails] at hstore
    cases hstore

/-- Where a path leads to a location, a directory is made there unless something is there. -/
theorem ensures_makeDirectory {p : Path} (h : w.store.locate w.directory p = .ok l) :
    Ensures (Host.makeDirectory p) w fun made w₁ =>
      match made with
      | .ok () => MadeAt l w (.ok ()) w₁
      | .error e => e ≠ .missing ∧ w₁ = w ∧ w.store.find? l ≠ none := by
  -- where nothing is yet a directory is made, where anything is already it is reported as present
  cases hfind : w.store.find? l with
  | none =>
    have hne : l ≠ [] := by
      rintro rfl
      cases hfind
    have hmakes : w.store.makeDirectory w.directory p = .ok (w.store.put l .directory) := by
      rw [Store.makeDirectory, h, Outcome.ok_bind, hfind]
      rfl
    refine ensures_change (fun e he => ?_) fun store hstore => ?_
    · rw [hmakes] at he
      cases he
    · rw [hmakes] at hstore
      cases hstore
      exact ⟨by rw [Store.fileAt?, hfind], fun k => Store.find?_put hne _ _ k⟩
  | some entry =>
    have hfails : w.store.makeDirectory w.directory p = .error .present := by
      rw [Store.makeDirectory, h, Outcome.ok_bind, hfind]
      rfl
    refine ensures_change (fun e he => ?_) fun store hstore => ?_
    · rw [hfails] at he
      cases he
      exact ⟨by decide, rfl, Option.some_ne_none _⟩
    · rw [hfails] at hstore
      cases hstore

/-- What was not made is accepted if it is there: only a file stands in its way. -/
theorem ensures_ensureDirectory {p : Path} (h : w.store.locate w.directory p = .ok l)
    (hheld : w.store.find? l ≠ none) (e : StoreFault) :
    Ensures (ensureDirectory p (.error e)) w (MadeAt l w) := by
  have hlookup : w.store.lookup? w.directory p = w.store.find? l := by
    unfold Store.lookup?
    rw [h]
  show Ensures (Host.isDirectory p >>= fun b => _) w _
  refine Ensures.bind (P := fun b w₁ => b = w.store.isDirectory w.directory p ∧ w₁ = w)
    ⟨rfl, rfl⟩ ?_
  rintro b w₁ ⟨rfl, rfl⟩
  -- what is there already may be a directory, or a file in its place
  rw [Store.isDirectory, hlookup]
  cases hfind : w₁.store.find? l with
  | none => exact absurd hfind hheld
  | some entry =>
    cases entry with
    | file bytes =>
      refine Ensures.pure ?_
      show (w₁.store.fileAt? l).isSome = true
      rw [Store.fileAt?, hfind]
      rfl
    | directory =>
      refine Ensures.pure ⟨by rw [Store.fileAt?, hfind], fun k => ?_⟩
      by_cases hk : k = l
      · rw [if_pos hk, hk, hfind]
      · rw [if_neg hk]

/-- Where a path leads nowhere there is nothing to accept, and the failure is the one from
before. -/
theorem ensures_ensureDirectory_nowhere {p : Path} {e : StoreFault}
    (h : w.store.locate w.directory p = .error e) (e' : StoreFault) :
    Ensures (ensureDirectory p (.error e')) w fun r _ => r = .error e' := by
  have hnone : w.store.isDirectory w.directory p = false := by
    unfold Store.isDirectory Store.lookup?
    rw [h]
    rfl
  refine Ensures.bind (P := fun b w₁ => b = false ∧ w₁ = w) ⟨hnone, rfl⟩ ?_
  rintro b w₁ ⟨rfl, rfl⟩
  exact Ensures.pure rfl

/-- One directory, made or accepted. -/
theorem ensures_directory {p : Path} (h : w.store.locate w.directory p = .ok l) :
    Ensures (do ensureDirectory p (← Host.makeDirectory p)) w (MadeAt l w) := by
  refine (ensures_makeDirectory h).bind fun made w₁ h₁ => ?_
  cases made with
  | ok u => exact Ensures.pure h₁
  | error e =>
    obtain ⟨-, rfl, hheld⟩ := h₁
    exact ensures_ensureDirectory h hheld e

/-- The directory from which a way leads: it is made, and that is all of the way. -/
theorem MadeAt.nil {at_ : Location} {r : Except StoreFault Unit} (h : MadeAt at_ w r w') :
    Made at_ [] w r w' := by
  cases r with
  | error e => exact obstructed_nil.mpr h
  | ok u =>
    obtain ⟨hnone, hfind⟩ := h
    refine ⟨?_, fun k => ?_⟩
    · rw [obstructed_nil, hnone]
      nofun
    · rw [hfind, way_nil]
      exact if_congr List.mem_singleton.symm rfl rfl

/-- One more directory at the end of a way that is open. -/
theorem MadeAt.concat {at_ : Location} {names : List Text} {name : Text} {w₁ : World}
    {r : Except StoreFault Unit} (hfree : ¬w.store.Obstructed at_ names)
    (hopened : Opened at_ names w w₁) (hsame : ∀ k, w₁.store.fileAt? k = w.store.fileAt? k)
    (h : MadeAt (next (arrive at_ names) name) w₁ r w') : Made at_ (names ++ [name]) w r w' := by
  cases r with
  | error e =>
    have hfile : (w₁.store.fileAt? (next (arrive at_ names) name)).isSome = true := h
    rw [hsame] at hfile
    exact obstructed_concat.mpr (.inr hfile)
  | ok u =>
    obtain ⟨hnone, hfind⟩ := h
    rw [hsame] at hnone
    refine ⟨?_, fun k => ?_⟩
    · rw [obstructed_concat, hnone]
      exact fun hor => hor.elim hfree nofun
    · rw [hfind, hopened, way_concat]
      by_cases hlast : k = next (arrive at_ names) name
      · simp [hlast]
      · simp [hlast]

/-- A way on which all is well is open already. -/
theorem opened_of_forall {at_ : Location} {names : List Text}
    (h : ∀ k ∈ way at_ names, w.store.find? k = some .directory) : Opened at_ names w w := by
  intro k
  split
  next hk => exact h k hk
  next => rfl

/-- What comes of one more directory depends on what comes of it at first: if something on the way
is missing, the directories above are made before it is tried again. -/
theorem ensures_makeAll_cons {root name : Text} {above : List Text}
    {P : Except StoreFault Unit → World → Prop}
    (h : Ensures (Host.makeDirectory ⟨root, (name :: above).reverse⟩) w fun made w₁ =>
      (made = .error .missing → Ensures (makeAll root above >>= fun made =>
        match made with
        | .error e => pure (.error e)
        | .ok () => do
          ensureDirectory ⟨root, (name :: above).reverse⟩
            (← Host.makeDirectory ⟨root, (name :: above).reverse⟩)) w₁ P)
        ∧ (made ≠ .error .missing →
          Ensures (ensureDirectory ⟨root, (name :: above).reverse⟩ made) w₁ P)) :
    Ensures (makeAll root (name :: above)) w P := by
  refine h.bind fun made w₁ hmade => ?_
  obtain ⟨hmissing, hother⟩ := hmade
  -- only a parent that is missing asks for more, and every other answer is looked at as it is
  cases made with
  | ok u => exact hother nofun
  | error e =>
    cases e with
    | missing => exact hmissing rfl
    | notDirectory => exact hother nofun
    | isDirectory => exact hother nofun
    | present => exact hother nofun
    | refused => exact hother nofun

/-- A directory below others that are all there is made, or accepted. Nothing on the way is missing
then, so it is made at first try. -/
theorem ensures_makeAll_below {root name : Text} {above : List Text} {l : Location}
    (hlocate : w.store.locate w.directory ⟨root, (name :: above).reverse⟩ = .ok l) :
    Ensures (makeAll root (name :: above)) w
      (Made (origin w.directory ⟨root, []⟩) (name :: above).reverse w) := by
  set at_ := origin w.directory ⟨root, []⟩
  rw [List.reverse_cons] at hlocate ⊢
  obtain ⟨habove, harrive⟩ := locate_eq_ok_iff.mp hlocate
  have hway : ∀ k ∈ way at_ above.reverse, w.store.find? k = some .directory := by
    intro k hk
    refine habove k ?_
    rw [passed_concat]
    exact hk
  obtain rfl : next (arrive at_ above.reverse) name = l := by
    rw [← harrive, arrive_concat]
    rfl
  -- the directories above are there, so only the last one may have to be made
  have hlast : ∀ r w', MadeAt (next (arrive at_ above.reverse) name) w r w' →
      Made at_ (above.reverse ++ [name]) w r w' :=
    fun r w' h => h.concat (not_obstructed hway) (opened_of_forall hway) fun _ => rfl
  rw [← List.reverse_cons] at hlocate
  refine ensures_makeAll_cons ((ensures_makeDirectory hlocate).mono fun made w₁ h₁ => ?_)
  cases made with
  | ok u => exact ⟨nofun, fun _ => Ensures.pure (hlast _ _ h₁)⟩
  | error e =>
    obtain ⟨hne, rfl, hheld⟩ := h₁
    refine ⟨?_, fun _ => (ensures_ensureDirectory hlocate hheld e).mono hlast⟩
    rintro ⟨⟩
    exact absurd rfl hne

/-- **The directories on the way are made** unless a file stands in their way. Induction on the
names above the directory, the last one first, which is how they are made: what is missing above
comes first. A file in the way is met by whoever comes to it, and the failure goes up unchanged. -/
theorem ensures_makeAll (root : Text) (names : List Text) (w : World) :
    Ensures (makeAll root names) w
      (Made (origin w.directory ⟨root, []⟩) names.reverse w) := by
  induction names with
  | nil =>
    have hlocate : w.store.locate w.directory ⟨root, []⟩
        = .ok (origin w.directory ⟨root, []⟩) := locate_eq_ok_iff.mpr ⟨nofun, rfl⟩
    exact (ensures_directory hlocate).mono fun r w' h => h.nil
  | cons name above ih =>
    set at_ := origin w.directory ⟨root, []⟩ with hat
    cases hlocate : w.store.locate w.directory ⟨root, (name :: above).reverse⟩ with
    | ok l => exact ensures_makeAll_below hlocate
    | error e =>
      refine ensures_makeAll_cons ((ensures_makeDirectory_nowhere hlocate).mono ?_)
      rintro made w₁ ⟨rfl, rfl⟩
      constructor
      · -- the directories above come first, and then the path leads to a location
        intro _
        have hconfined : Confined [] (makeAll root above) := confined_makeAll root above
        refine (ih.and (hconfined w₁)).bind fun made w₂ h₂ => ?_
        obtain ⟨hmade, htouched⟩ := h₂
        rw [List.reverse_cons]
        cases made with
        | error e => exact Ensures.pure (obstructed_concat.mpr (.inl hmade))
        | ok u =>
          obtain ⟨hfree, hopened⟩ := hmade
          have hlocate₂ : w₂.store.locate w₂.directory ⟨root, above.reverse ++ [name]⟩
              = .ok (next (arrive at_ above.reverse) name) := by
            rw [htouched.directory_eq, locate_eq_ok_iff, passed_concat, arrive_concat]
            exact ⟨fun k hk => (hopened k).trans (if_pos hk), rfl⟩
          exact (ensures_directory hlocate₂).mono fun r w' h =>
            h.concat hfree hopened htouched.fileAt?_eq
      · -- nothing is missing, so it is a file that the path does not lead past
        intro hother
        have hne : e ≠ .missing := fun he => hother (congrArg Except.error he)
        obtain ⟨k, hk, hheld⟩ := (follow_eq_error hlocate).resolve_left hne
        refine (ensures_ensureDirectory_nowhere hlocate e).mono ?_
        rintro r w' rfl
        exact ⟨k, List.mem_append_left _ hk, hheld⟩

/-! ## What stands in the way of a write -/

/-- On a way that is open there are directories. -/
theorem Opened.find? {at_ k : Location} {names : List Text} (h : Opened at_ names w w')
    (hk : k ∈ way at_ names) : w'.store.find? k = some .directory :=
  (h k).trans (if_pos hk)

/-- All but the last location of a path are on the way of its parent. -/
theorem passed_subset_way_parent (at_ : Location) (p : Path) :
    passed at_ p.names ⊆ way at_ p.parent.names := by
  cases List.eq_nil_or_concat p.names with
  | inl hnil =>
    rw [hnil]
    exact List.nil_subset _
  | inr hconcat =>
    obtain ⟨names, name, hnames⟩ := hconcat
    have hparent : p.parent.names = names := by
      show p.names.dropLast = names
      rw [hnames, List.concat_eq_append, List.dropLast_concat]
    rw [hparent, hnames, List.concat_eq_append, passed_concat]
    exact List.Subset.refl _

/-- In a directory that is there a temporary file can be made. -/
theorem ensures_createTemporary_ok {directory : Path} {at_ : Location}
    (hleads : w.store.locate w.directory directory = .ok at_)
    (hheld : w.store.find? at_ = some .directory) (start stop : Text) :
    Ensures (Host.createTemporary directory start stop) w fun made _ => ∃ t, made = .ok t := by
  let path := directory.child (start ++ w.store.freshMark ++ stop)
  have hpath : w.store.locate w.directory path
      = .ok (at_ ++ [start ++ w.store.freshMark ++ stop]) :=
    (locate_child fresh_ne_above).mpr ⟨at_, hleads, hheld, rfl⟩
  have hwrites : ∃ store, w.store.writeFile w.directory path [] = .ok store := by
    rw [Store.writeFile, hpath, Outcome.ok_bind, find?_fresh]
    exact ⟨_, rfl⟩
  obtain ⟨store, hstore⟩ := hwrites
  show ∃ t, (createTemporary directory start stop w).1 = .ok t
  rw [createTemporary, hstore]
  exact ⟨path, rfl⟩

/-- A temporary file hides no location. -/
theorem Pending.locate {bytes : Bytes} {at_ : Location} (h : Pending temporary bytes l w w')
    (htarget : w.store.locate w.directory target = .ok at_) :
    w'.store.locate w'.directory target = .ok at_ := by
  rw [h.setting]
  exact h.grows.locate htarget

/-- A pending temporary file can be written. -/
theorem ensures_writeFile_ok {before : Bytes} {w₀ : World} (h : Pending temporary before l w₀ w)
    (bytes : Bytes) : Ensures (Host.writeFile temporary bytes) w fun r _ => r = .ok () := by
  refine ensures_change (fun e he => ?_) fun _ _ => rfl
  rw [Store.writeFile, h.leads, Outcome.ok_bind, h.held, if_neg nofun] at he
  cases he

/-- A pending temporary file can be given any name that is one, unless a directory has it. The
temporary file itself never stands in the way, for its location is not the target: nothing was there
before. -/
theorem ensures_rename_iff {bytes : Bytes} {w₀ : World} {at_ : Location}
    (h : Pending temporary bytes l w₀ w)
    (htarget : w₀.store.locate w₀.directory target = .ok at_) :
    Ensures (Host.rename temporary target) w fun r _ =>
      r = .ok () ↔ isNameable target = true ∧ w₀.store.find? at_ ≠ some .directory := by
  -- the temporary file stands where nothing was, so it hides no directory
  have hdirectory : w.store.find? at_ = some .directory ↔ w₀.store.find? at_ = some .directory := by
    by_cases hat : at_ = l
    · rw [hat, h.held, h.free]
      exact ⟨nofun, nofun⟩
    · rw [h.elsewhere at_ hat]
  have hrename : w.store.rename w.directory temporary target
      = if !isNameable target then .error .refused
        else if w.store.find? at_ = some .directory then .error .isDirectory
        else .ok ((w.store.erase l).put at_ (.file bytes)) := by
    rw [Store.rename, h.leads, Outcome.ok_bind, h.locate htarget, Outcome.ok_bind, h.held]
    rfl
  refine ensures_change (fun e he => ?_) fun store hstore => ?_
  · rw [hrename] at he
    refine ⟨nofun, fun hfree => ?_⟩
    rw [hfree.1, Bool.not_true, if_neg Bool.false_ne_true,
      if_neg (hdirectory.not.mpr hfree.2)] at he
    cases he
  · rw [hrename] at hstore
    refine ⟨fun _ => ?_, fun _ => rfl⟩
    split at hstore
    next => cases hstore
    next hname =>
      split at hstore
      next => cases hstore
      next hfree =>
        rw [Bool.not_eq_true, Bool.not_eq_false'] at hname
        exact ⟨hname, hdirectory.not.mp hfree⟩

/-- What stands in the way of a write. -/
inductive Prevented (w : World) (target : Path) (text : Text) : Prop
  /-- A file on the way to the directory of the target. -/
  | obstructed (h : w.store.Obstructed (origin w.directory target) target.parent.names)
  /-- A text without an encoding. -/
  | unencodable (e : Utf8.EncodeError) (h : Utf8.encodeText text = .error e)
  /-- A path that gives the target no name. -/
  | nameless (h : isNameable target = false)
  /-- A directory where the target leads. -/
  | occupied (h : w.store.find? (arrive (origin w.directory target) target.names) = some .directory)
  /-- A directory that is made where the target leads, on the way there. -/
  | onTheWay (h : arrive (origin w.directory target) target.names
      ∈ way (origin w.directory target) target.parent.names)

/-- A pending temporary file becomes the target when its text can be encoded and it can be given
the name. -/
theorem ensures_fill_iff {w₀ : World} {at_ : Location} (h : Pending temporary [] l w₀ w)
    (htarget : w₀.store.locate w₀.directory target = .ok at_) (text : Text) :
    Ensures (fill temporary target text) w fun r _ =>
      r = .ok () ↔ (∃ bytes, Utf8.encodeText text = .ok bytes) ∧ isNameable target = true
        ∧ w₀.store.find? at_ ≠ some .directory := by
  unfold fill
  split
  -- a text that cannot be encoded leaves nothing behind but its failure
  next e hencode =>
    refine (ensures_remove h).bind fun _ _ _ => Ensures.pure ⟨nofun, ?_⟩
    rw [hencode]
    rintro ⟨⟨_, hbytes⟩, -⟩
    cases hbytes
  next bytes hencode =>
    refine ((ensures_writeFile h bytes).and (ensures_writeFile_ok h bytes)).bind ?_
    rintro _ w₁ ⟨hpending, rfl⟩
    have hpending : Pending temporary bytes l w₀ w₁ := hpending
    refine ((ensures_rename hpending target).and (ensures_rename_iff hpending htarget)).bind ?_
    rintro renamed w₂ ⟨hended, hiff⟩
    -- the bytes are written, and renaming decides
    have hencodes : ∃ bytes, Utf8.encodeText text = .ok bytes := ⟨bytes, hencode⟩
    split
    next e =>
      obtain rfl : w₂ = w₁ := hended
      refine (ensures_remove hpending).bind fun _ _ _ => Ensures.pure ⟨nofun, fun hfree => ?_⟩
      cases hiff.mpr hfree.2
    next => exact Ensures.pure ⟨fun _ => ⟨hencodes, hiff.mp rfl⟩, fun _ => rfl⟩

/-- With no file on the way to its directory, it is the text and the target that count: the target
after the directories on the way are made. A target that is on its own way, as with two dots, is a
directory by then. -/
theorem not_prevented_iff
    (hclear : ¬w.store.Obstructed (origin w.directory target) target.parent.names) :
    ¬Prevented w target text ↔ (∃ bytes, Utf8.encodeText text = .ok bytes)
      ∧ isNameable target = true
      ∧ (if arrive (origin w.directory target) target.names
            ∈ way (origin w.directory target) target.parent.names then some .directory
          else w.store.find? (arrive (origin w.directory target) target.names))
        ≠ some .directory := by
  constructor
  · intro hfree
    refine ⟨?_, ?_, ?_⟩
    · cases hencode : Utf8.encodeText text with
      | ok bytes => exact ⟨bytes, rfl⟩
      | error e => exact absurd (.unencodable e hencode) hfree
    · cases hname : isNameable target with
      | true => rfl
      | false => exact absurd (.nameless hname) hfree
    · split
      next hway => exact absurd (.onTheWay hway) hfree
      next => exact fun h => hfree (.occupied h)
  · -- each of the five things that may be in the way is ruled out by one of the conditions
    rintro ⟨⟨bytes, hbytes⟩, hname, hfree⟩ hprevented
    cases hprevented with
    | obstructed h => exact hclear h
    | unencodable e h => cases h.symm.trans hbytes
    | nameless h => cases h.symm.trans hname
    | occupied h =>
      split at hfree
      next => exact hfree rfl
      next => exact hfree h
    | onTheWay h => exact hfree (if_pos h)

/-- **Nothing else stands in the way.** A write succeeds unless a file is on the way to its target,
the target has no name or is a directory, or the text has no encoding.

The stages are taken in order: the directories are made unless the way is obstructed
(`ensures_makeAll`), the temporary file can then be made and written, and what is left is the
encoding and the renaming (`ensures_fill_iff`). -/
theorem ensures_write_iff (target : Path) (text : Text) (w : World) :
    Ensures (write target text) w fun r _ => r = .ok () ↔ ¬Prevented w target text := by
  set at_ := origin w.directory target with hat
  have hconfined : Confined [] (makeDirectories target.parent) := confined_makeDirectories _
  have hmakes : Ensures (makeDirectories target.parent) w (Made at_ target.parent.names w) := by
    have h := ensures_makeAll target.parent.root target.parent.names.reverse w
    rw [List.reverse_reverse] at h
    exact h
  refine (hmakes.and (hconfined w)).bind fun made w₁ h₁ => ?_
  obtain ⟨hmade, htouched⟩ := h₁
  split
  next e => exact Ensures.pure ⟨nofun, fun hfree => absurd (.obstructed hmade) hfree⟩
  next =>
    -- the directories are there now, so a temporary file can be made
    obtain ⟨hclear, hopened⟩ := hmade
    have hparent : w₁.store.locate w₁.directory target.parent
        = .ok (arrive at_ target.parent.names) := by
      rw [htouched.directory_eq, locate_eq_ok_iff]
      exact ⟨fun k hk => hopened.find? (List.mem_append_left _ hk), rfl⟩
    have hheld : w₁.store.find? (arrive at_ target.parent.names) = some .directory :=
      hopened.find? (List.mem_append_right _ (List.mem_singleton_self _))
    refine ((ensures_createTemporary _ _ _ w₁).and
      (ensures_createTemporary_ok hparent hheld _ _)).bind ?_
    rintro _ w₂ ⟨hcreated, temporary, rfl⟩
    obtain ⟨l, hpending⟩ := hcreated
    have htarget : w₁.store.locate w₁.directory target = .ok (arrive at_ target.names) := by
      rw [htouched.directory_eq, locate_eq_ok_iff]
      exact ⟨fun k hk => hopened.find? (passed_subset_way_parent _ _ hk), rfl⟩
    refine (ensures_fill_iff hpending htarget text).mono fun r _ hiff => hiff.trans ?_
    rw [hopened]
    exact (not_prevented_iff hclear).symm

/-! ## Many writes -/

/-- Write texts to files, one after the other, whatever comes of each of them. -/
def writeAll {m : Type → Type} [Monad m] [Host m] (writes : List (Path × Text)) :
    m (List (Except WriteFault Unit)) :=
  writes.mapM fun (target, text) => write target text

/-- The last text of a sequence of writes that was delivered to a location. -/
def lastTo (w : World) (l : Location) :
    List ((Path × Text) × Except WriteFault Unit) → Option Text
  | [] => none
  | ((target, text), outcome) :: rest =>
    (lastTo w l rest).or
      (if outcome = .ok () ∧ w.store.locate w.directory target = .ok l then some text else none)

/-- What stands at a location after writes: the encoding of the last text delivered there, or what
was there before. -/
def Settled (w w' : World) (done : List ((Path × Text) × Except WriteFault Unit)) : Prop :=
  ∀ l, match lastTo w' l done with
    | some text =>
      ∃ chars, text = Text.ofChars chars ∧ w'.store.fileAt? l = some (Utf8.encode chars)
    | none => w'.store.fileAt? l = w.store.fileAt? l

/-- The first write comes before all others. -/
theorem writeAll_cons {m : Type → Type} [Monad m] [LawfulMonad m] [Host m] (target : Path)
    (text : Text) (writes : List (Path × Text)) :
    (writeAll ((target, text) :: writes) : m _)
      = do return (← write target text) :: (← writeAll writes) :=
  List.mapM_cons

/-- Without writes everything is what it was. -/
theorem Settled.nil : Settled w w [] := fun _ => rfl

/-- **One write more, before all others.** What it delivers stays until a later write delivers to
the same location. A path that leads to a location when the write is done leads there in the end,
since no directory is lost, so the target can be looked up in the last world. -/
theorem Settled.cons {w₁ : World} {paths : List Path} {r : Except WriteFault Unit}
    {done : List ((Path × Text) × Except WriteFault Unit)} (hfirst : Ended target text w r w₁)
    (hrest : Touched paths w₁ w') (h : Settled w₁ w' done) :
    Settled w w' (((target, text), r) :: done) := by
  have hlater : ∀ k, w₁.store.locate w₁.directory target = .ok k →
      w'.store.locate w'.directory target = .ok k := by
    intro k hk
    rw [hrest.directory_eq]
    exact hrest.grows.locate hk
  intro l
  have hl := h l
  rw [lastTo]
  cases hlast : lastTo w' l done with
  | some last =>
    rw [hlast] at hl
    exact hl
  | none =>
    rw [hlast] at hl
    have hl : w'.store.fileAt? l = w₁.store.fileAt? l := hl
    rw [Option.none_or]
    split
    next last heq =>
      -- it delivers there, and nothing after it does
      split at heq
      next hthere =>
        obtain ⟨rfl, hleads⟩ := hthere
        obtain rfl := Option.some.inj heq
        obtain ⟨-, bytes, hbytes, hread⟩ := hfirst
        obtain ⟨k, hk, hfile⟩ := read_eq_ok_iff.mp hread
        obtain rfl : k = l := Except.ok.inj ((hlater k hk).symm.trans hleads)
        obtain ⟨chars, hchars, rfl⟩ := Utf8.eq_encode_of_encodeText hbytes
        refine ⟨chars, hchars, ?_⟩
        rw [hl, fileAt?, hfile]
      next => cases heq
    next heq =>
      rw [hl]
      cases r with
      | error e => exact Altered.fileAt?_eq (Touched.toAltered hfirst) l
      | ok u =>
        by_contra hchanged
        obtain ⟨p, hp, hk⟩ := hfirst.1.files l hchanged
        obtain rfl := List.mem_singleton.mp hp
        rw [if_pos ⟨rfl, hlater l hk⟩] at heq
        cases heq

/-- What comes of a sequence of writes: as many outcomes, nothing touched but the targets, and each
location settled. Induction on the writes: each one is followed by all that come after it. -/
theorem ensures_writeAll (writes : List (Path × Text)) (w : World) :
    Ensures (writeAll writes) w fun outcomes w' => outcomes.length = writes.length
      ∧ Touched (writes.map Prod.fst) w w' ∧ Settled w w' (writes.zip outcomes) := by
  induction writes generalizing w with
  | nil => exact Ensures.pure ⟨rfl, .refl _ w, .nil⟩
  | cons first writes ih =>
    obtain ⟨target, text⟩ := first
    rw [writeAll_cons]
    refine (ensures_write target text w).bind fun r w₁ hfirst => ?_
    refine (ih w₁).bind fun outcomes w' hrest => ?_
    obtain ⟨hlength, htouched, hsettled⟩ := hrest
    refine Ensures.pure ⟨congrArg (· + 1) hlength, ?_, .cons hfirst htouched hsettled⟩
    have hwrite : Touched [target] w w₁ := by
      cases r with
      | error e => exact Touched.mono hfirst (List.nil_subset _)
      | ok u => exact hfirst.1
    refine (hwrite.mono ?_).trans (htouched.mono ?_)
    · exact List.cons_subset_cons _ (List.nil_subset _)
    · exact List.subset_cons_self _ _

/-- Every write that succeeds leads to a location, for good. -/
theorem ensures_writeAll_leads (writes : List (Path × Text)) (w : World) :
    Ensures (writeAll writes) w fun outcomes w' => ∀ x ∈ writes.zip outcomes, x.2 = .ok () →
      ∃ l, w'.store.locate w'.directory x.1.1 = .ok l := by
  induction writes generalizing w with
  | nil => exact Ensures.pure nofun
  | cons first writes ih =>
    obtain ⟨target, text⟩ := first
    rw [writeAll_cons]
    refine (ensures_write target text w).bind fun r w₁ hfirst => ?_
    refine ((ensures_writeAll writes w₁).and (ih w₁)).bind ?_
    rintro outcomes w' ⟨⟨-, htouched, -⟩, hleads⟩
    refine Ensures.pure ?_
    rw [List.zip_cons_cons, List.forall_mem_cons]
    refine ⟨?_, hleads⟩
    -- the first write was settled in the world between, and directories only grow from there
    rintro rfl
    obtain ⟨-, bytes, -, hread⟩ := hfirst
    obtain ⟨l, hl, -⟩ := read_eq_ok_iff.mp hread
    rw [htouched.directory_eq]
    exact ⟨l, htouched.grows.locate hl⟩

/-- A sequence in two parts: the second part starts from the world that the first one leaves. -/
theorem writeAll_append (before writes : List (Path × Text)) (w : World) :
    result (writeAll (before ++ writes)) w = result (writeAll before) w
      ++ result (writeAll writes) ((writeAll before : StateM World _).run w).2 := by
  unfold writeAll
  rw [List.mapM_append]
  rfl

/-- **The last text stays.** After any sequence of writes from any world on, each of which may fail,
a file holds the encoding of the last text that was delivered to it, and all other files are what
they were. Each write fails exactly when something stands in its way at that time, and then it
changes no file.

One write is `ensures_write` with `ensures_write_iff`: it makes the directories, fills a temporary
file beside the target and renames it. A sequence of them is settled by induction, write by
write. -/
theorem writeAll_files (writes : List (Path × Text)) (w : World) :
    Ensures (writeAll writes) w fun outcomes w' => outcomes.length = writes.length
      ∧ Settled w w' (writes.zip outcomes)
      ∧ (∀ x ∈ writes.zip outcomes, x.2 = .ok () →
          ∃ l, w'.store.locate w'.directory x.1.1 = .ok l)
      ∧ ∀ before target text after, writes = before ++ (target, text) :: after →
          Ensures (writeAll before) w fun _ w₀ => Ensures (write target text) w₀ fun r w₁ =>
            outcomes[before.length]? = some r
            ∧ (r = .ok () ↔ ¬Prevented w₀ target text)
            ∧ (r ≠ .ok () → ∀ l, w₁.store.fileAt? l = w₀.store.fileAt? l) := by
  refine ⟨(ensures_writeAll writes w).1, (ensures_writeAll writes w).2.2,
    ensures_writeAll_leads writes w, ?_⟩
  -- one write among the others: what comes before it has been settled when it begins
  rintro before target text after rfl
  have hlength : (result (writeAll before) w).length = before.length :=
    (ensures_writeAll before w).1
  unfold Ensures
  set w₀ := ((writeAll before : StateM World _).run w).2
  refine ⟨?_, ensures_write_iff target text w₀, fun hfailed => ?_⟩
  · show (result (writeAll (before ++ (target, text) :: after)) w)[before.length]? = _
    rw [writeAll_append, ← hlength, writeAll_cons, List.getElem?_append_right (Nat.le_refl _),
      Nat.sub_self]
    rfl
  · have hended := ensures_write target text w₀
    unfold Ensures at hended
    generalize ((write target text : StateM World _).run w₀) = ended at hfailed hended
    obtain ⟨r, w₁⟩ := ended
    cases r with
    | ok u => exact absurd rfl hfailed
    | error e => exact Altered.fileAt?_eq (Touched.toAltered hended)

/-- The second of three writes is prevented by the first one, whose text the third one replaces. -/
theorem writeAll_files_over_file :
    let w : World := ⟨.empty, [], ⟨[], []⟩, [], true, [], false, .utf8, .failure [], [], []⟩
    let writes : List (Path × Text) :=
      [(.ofText "a", "x"), (.ofText "a/b", "y"), (.ofText "a", "z")]
    Ensures (writeAll writes) w fun outcomes w' =>
      outcomes = [.ok (), .error (.store .present), .ok ()]
      ∧ w'.store.fileAt? ["a"] = some (Utf8.encode ['z'])
      ∧ Ensures (writeAll [(.ofText "a", "x")]) w fun _ w₀ => Ensures (write (.ofText "a/b") "y") w₀
          fun r w₁ => outcomes[1]? = some r
            ∧ (r = .ok () ↔ ¬Prevented w₀ (.ofText "a/b") "y")
            ∧ (r ≠ .ok () → ∀ l, w₁.store.fileAt? l = w₀.store.fileAt? l) := by
  intro w writes
  obtain ⟨-, -, -, hstep⟩ := writeAll_files writes w
  refine ⟨?_, ?_, hstep [(.ofText "a", "x")] _ _ [(.ofText "a", "z")] rfl⟩
  · decide +kernel
  · decide +kernel

end AtomicWrite

end OptionTypes
