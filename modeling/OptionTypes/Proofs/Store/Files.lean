import OptionTypes.Proofs.Outcome
import OptionTypes.Store.Files

/-!
# What an operation on files leaves alone

Every operation changes what stands at one location. Directories are never removed, so a path that
leads somewhere leads there ever after.

* `Store.find?_put` and `Store.find?_erase` are the two ways of changing a store.
* `Store.Grows` is what all operations have in common; `Store.Grows.locate` carries locations over.
* `Store.find?_fresh`: a name longer than every other one is not in use.
-/

namespace OptionTypes.Store

variable {s s' s'' : Store} {l at_ d : Location} {e : Entry}

/-! ## Changing one location -/

/-- Away from the root an entry is looked up in the list of entries. -/
theorem find?_of_ne_nil (h : l ≠ []) :
    s.find? l = (s.entries.find? fun (k, _) => k = l).map Prod.snd := by
  rw [find?, if_neg h]

/-- Putting an entry at a location changes what is found there and nothing else. The root is apart,
since it is a directory without being listed. -/
theorem find?_put (h : at_ ≠ []) (s : Store) (e : Entry) (l : Location) :
    (s.put at_ e).find? l = if l = at_ then some e else s.find? l := by
  by_cases hl : l = []
  · subst hl
    rw [if_neg (fun heq => h heq.symm)]
    rfl
  · rw [find?_of_ne_nil hl, find?_of_ne_nil hl, put, List.find?_append]
    by_cases heq : l = at_
    · subst heq
      have hnone : (s.entries.filter fun (k, _) => k ≠ l).find? (fun (k, _) => k = l) = none := by
        simp [List.find?_eq_none]
      rw [hnone, if_pos rfl]
      simp
    · -- what stands elsewhere passes the filter
      have hkeep : (s.entries.filter fun (k, _) => k ≠ at_).find? (fun (k, _) => k = l)
          = s.entries.find? fun (k, _) => k = l := by
        rw [List.find?_filter]
        congr 1
        funext x
        by_cases hx : x.1 = l
        · simp [hx, heq]
        · simp [hx]
      rw [hkeep, if_neg heq]
      have hlast : [(at_, e)].find? (fun (k, _) => decide (k = l)) = none := by
        simp [Ne.symm heq]
      rw [hlast, Option.or_none]

/-- Erasing a location changes what is found there and nothing else. -/
theorem find?_erase (h : at_ ≠ []) (s : Store) (l : Location) :
    (s.erase at_).find? l = if l = at_ then none else s.find? l := by
  by_cases hl : l = []
  · subst hl
    rw [if_neg (fun heq => h heq.symm)]
    rfl
  · rw [find?_of_ne_nil hl, find?_of_ne_nil hl, erase, List.find?_filter]
    by_cases heq : l = at_
    · subst heq
      rw [if_pos rfl]
      simp [List.find?_eq_none]
    · rw [if_neg heq]
      congr 2
      funext x
      by_cases hx : x.1 = l
      · simp [hx, heq]
      · simp [hx]

/-- Where the same entry is found, so is the same file. -/
theorem fileAt?_congr (h : s'.find? l = s.find? l) : s'.fileAt? l = s.fileAt? l := by
  rw [fileAt?, fileAt?, h]

/-! ## What all operations have in common -/

/-- Whether every directory of a store is one of another store. -/
def Grows (s s' : Store) : Prop := ∀ l, s.find? l = some .directory → s'.find? l = some .directory

/-- A store keeps its own directories. -/
theorem Grows.refl (s : Store) : Grows s s := fun _ h => h

/-- What is kept twice is kept. -/
theorem Grows.trans (h : Grows s s') (h' : Grows s' s'') : Grows s s'' :=
  fun l hl => h' l (h l hl)

/-- Putting an entry where there is no directory keeps all directories. -/
theorem grows_put (hne : at_ ≠ []) (hdir : s.find? at_ ≠ some .directory) :
    Grows s (s.put at_ e) := by
  intro l hl
  have hother : l ≠ at_ := by
    rintro rfl
    exact hdir hl
  rw [find?_put hne, if_neg hother, hl]

/-- Erasing an entry that is no directory keeps all directories. -/
theorem grows_erase (hne : at_ ≠ []) (hdir : s.find? at_ ≠ some .directory) :
    Grows s (s.erase at_) := by
  intro l hl
  have hother : l ≠ at_ := by
    rintro rfl
    exact hdir hl
  rw [find?_erase hne, if_neg hother, hl]

/-! ## Where a path leads -/

/-- A first name leads on from a directory only, to the entry of that name or, by two dots, back
up. -/
theorem follow_cons {name : Text} {rest : List Text} {l' : Location} :
    s.follow at_ (name :: rest) = .ok l' ↔ s.find? at_ = some .directory
      ∧ s.follow (if name = Path.above then at_.dropLast else at_ ++ [name]) rest = .ok l' := by
  rw [follow]
  split
  next h => simp [h]
  next bytes h => simp [h]
  next h => simp [h]

/-- Names lead on from where the names before them lead. Induction on the latter. -/
theorem follow_append {names names' : List Text} {l' : Location} :
    s.follow at_ (names ++ names') = .ok l'
      ↔ ∃ l, s.follow at_ names = .ok l ∧ s.follow l names' = .ok l' := by
  induction names generalizing at_ with
  | nil => simp [follow]
  | cons name rest ih =>
    rw [List.cons_append, follow_cons, ih]
    simp only [follow_cons]
    constructor
    · rintro ⟨hdir, l, hl, hl'⟩
      exact ⟨l, ⟨hdir, hl⟩, hl'⟩
    · rintro ⟨l, ⟨hdir, hl⟩, hl'⟩
      exact ⟨hdir, l, hl, hl'⟩

/-- Names lead to the same location as long as directories stay. Induction on the names, each of
which needs one directory. -/
theorem Grows.follow (h : Grows s s') {names : List Text} :
    s.follow at_ names = .ok l → s'.follow at_ names = .ok l := by
  induction names generalizing at_ with
  | nil => exact id
  | cons name rest ih =>
    rw [follow_cons, follow_cons]
    rintro ⟨hdir, hrest⟩
    exact ⟨h _ hdir, ih hrest⟩

/-- **A path leads to the same place as long as directories stay.** -/
theorem Grows.locate (h : Grows s s') {p : Path} (hl : s.locate d p = .ok l) :
    s'.locate d p = .ok l :=
  h.follow hl

/-- A name below a path leads to the location below that of the path. -/
theorem locate_child {p : Path} {name : Text} (hname : name ≠ Path.above) :
    s.locate d (p.child name) = .ok l
      ↔ ∃ at_, s.locate d p = .ok at_ ∧ s.find? at_ = some .directory ∧ l = at_ ++ [name] := by
  show s.follow _ (p.names ++ [name]) = .ok l ↔ _
  rw [follow_append]
  have hlast : ∀ at_, s.follow at_ [name] = .ok l
      ↔ s.find? at_ = some .directory ∧ l = at_ ++ [name] := by
    intro at_
    rw [follow_cons, if_neg hname, follow, Except.ok.injEq, eq_comm (a := l)]
  simp only [hlast]
  rfl

/-! ## The operations -/

/-- Where a directory is made there was nothing before, and nothing else changes. -/
theorem makeDirectory_eq_ok {p : Path} (h : s.makeDirectory d p = .ok s') :
    ∃ l, l ≠ [] ∧ s.find? l = none ∧ s' = s.put l .directory := by
  obtain ⟨l, -, h⟩ := Outcome.bind_eq_ok_iff.mp h
  have hnone : s.find? l = none := by
    cases hfind : s.find? l with
    | none => rfl
    | some e =>
      rw [hfind] at h
      cases h
  rw [hnone] at h
  cases h
  refine ⟨l, ?_, hnone, rfl⟩
  rintro rfl
  cases hnone

/-- Where a file is written there was no directory before, and nothing else changes. -/
theorem writeFile_eq_ok {p : Path} {bytes : Bytes} (h : s.writeFile d p bytes = .ok s') :
    ∃ l, s.locate d p = .ok l ∧ l ≠ [] ∧ s.find? l ≠ some .directory
      ∧ s' = s.put l (.file bytes) := by
  obtain ⟨l, hl, h⟩ := Outcome.bind_eq_ok_iff.mp h
  by_cases hdir : s.find? l = some .directory
  · rw [if_pos hdir] at h
    cases h
  · rw [if_neg hdir] at h
    cases h
    refine ⟨l, hl, ?_, hdir, rfl⟩
    rintro rfl
    exact hdir rfl

/-- A path can be read when it leads to a file. -/
theorem read_eq_ok_iff {p : Path} {bytes : Bytes} :
    s.read d p = .ok bytes ↔ ∃ l, s.locate d p = .ok l ∧ s.find? l = some (.file bytes) := by
  unfold read
  rw [Outcome.bind_eq_ok_iff]
  refine exists_congr fun l => and_congr_right fun _ => ?_
  split
  next held hfind =>
    rw [hfind]
    constructor
    · rintro ⟨⟩
      rfl
    · rintro ⟨⟩
      rfl
  next hfind =>
    rw [hfind]
    exact ⟨nofun, nofun⟩
  next hfind =>
    rw [hfind]
    exact ⟨nofun, nofun⟩

/-- What can be read is a file. -/
theorem isFile_of_read {p : Path} {bytes : Bytes} (h : s.read d p = .ok bytes) :
    s.isFile d p = true := by
  obtain ⟨l, hlocate, hfind⟩ := read_eq_ok_iff.mp h
  have hlookup : s.lookup? d p = some (.file bytes) := by
    unfold lookup?
    rw [hlocate]
    exact hfind
  unfold isFile
  rw [hlookup]

/-- A file that a path leads to can be removed. -/
theorem remove_of_file {p : Path} {bytes : Bytes} (hl : s.locate d p = .ok l)
    (hfile : s.find? l = some (.file bytes)) : s.remove d p = .ok (s.erase l) := by
  simp only [remove, hl, Outcome.bind_eq_ok_iff, Except.ok.injEq, exists_eq_left', hfile]
  rfl

/-- A renaming takes a file from one location and puts it at another one, which is none of a
directory. -/
theorem rename_eq_ok {p q : Path} (h : s.rename d p q = .ok s') :
    ∃ source target bytes, s.locate d p = .ok source ∧ s.locate d q = .ok target
      ∧ s.find? source = some (.file bytes) ∧ s.find? target ≠ some .directory
      ∧ s' = (s.erase source).put target (.file bytes) := by
  obtain ⟨source, hsource, h⟩ := Outcome.bind_eq_ok_iff.mp h
  obtain ⟨target, htarget, h⟩ := Outcome.bind_eq_ok_iff.mp h
  split at h
  · cases h
  · split at h
    next bytes hfile =>
      split at h
      · cases h
      next hdir =>
        cases h
        exact ⟨source, target, bytes, hsource, htarget, hfile, hdir, rfl⟩
    next => cases h
    next => cases h

/-! ## Names that are not in use -/

/-- The greatest of some numbers is at least each of them, and at least what it starts from. Both at
once, as the start changes along the list. -/
theorem le_foldl_max (ns : List Nat) (n : Nat) :
    n ≤ ns.foldl max n ∧ ∀ m ∈ ns, m ≤ ns.foldl max n := by
  induction ns generalizing n with
  | nil => simp
  | cons k ns ih =>
    obtain ⟨hstart, hall⟩ := ih (max n k)
    rw [List.foldl_cons]
    refine ⟨by omega, List.forall_mem_cons.mpr ⟨by omega, hall⟩⟩

/-- No name in a store is longer than its longest one. -/
theorem length_le_longestName {name : Text} (he : (l, e) ∈ s.entries) (hname : name ∈ l) :
    name.length ≤ s.longestName := by
  refine (le_foldl_max _ 0).2 _ ?_
  exact List.mem_flatMap.mpr ⟨(l, e), he, List.mem_map_of_mem hname⟩

/-- A name with the fresh mark of a store in it is that of nothing there: the mark alone is longer
than every name that is in use. -/
theorem find?_fresh {before after : Text} :
    s.find? (at_ ++ [before ++ s.freshMark ++ after]) = none := by
  rw [find?_of_ne_nil (by simp), Option.map_eq_none_iff, List.find?_eq_none]
  rintro ⟨k, e⟩ he hk
  have hk : k = at_ ++ [before ++ s.freshMark ++ after] := of_decide_eq_true hk
  have hname : before ++ s.freshMark ++ after ∈ k := by simp [hk]
  have hle := length_le_longestName he hname
  simp only [freshMark, List.length_append, List.length_replicate] at hle
  omega

/-- A name with a fresh mark is not the two dots that lead back up. -/
theorem fresh_ne_above {before after : Text} : before ++ s.freshMark ++ after ≠ Path.above := by
  intro h
  have hmark : CodePoint.char '_' ∈ Path.above := by
    rw [← h]
    simp [freshMark]
  exact absurd hmark (by decide)

end OptionTypes.Store
