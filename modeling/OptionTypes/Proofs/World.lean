import OptionTypes.Host
import OptionTypes.Proofs.Store.Files

/-!
# What a computation does to its surroundings

A computation over `World` is looked at from outside: what it gives and which world it leaves.

* `World.Ensures` is a condition on both; `Ensures.bind` puts two computations together.
* `World.Altered` bounds what has changed in files: something only where certain paths lead.
  `World.Touched` adds that nothing has gone to the results.
* `World.Confined` is that bound from every world on, and `World.Reading` says that nothing changes.
* `World.Added` is what a text on the stream of results does to a world, and
  `World.ensures_writeResult` when there is one.

Both bounds compose because a store only grows: a path that leads to a file still leads there after
whatever comes next (`Store.Grows.locate`), so the files that the first part has changed can be
named by the paths of the whole.
-/

namespace OptionTypes.World

variable {α β : Type} {w w' w'' : World} {paths : List Path}

/-- Whether a computation ends, from a world on, in what a condition asks for. -/
def Ensures (x : StateM World α) (w : World) (Q : α → World → Prop) : Prop :=
  Q (x.run w).1 (x.run w).2

/-- A value alone ensures what holds of it in the world at hand. -/
theorem Ensures.pure {Q : α → World → Prop} {a : α} (h : Q a w) : Ensures (pure a) w Q := h

/-- The rule for sequences: what the first part ensures is what the second part may start from. It
holds by definition, since a computation over `World` is a function. -/
theorem Ensures.bind {x : StateM World α} {f : α → StateM World β} {P : α → World → Prop}
    {Q : β → World → Prop} (hx : Ensures x w P) (hf : ∀ a w', P a w' → Ensures (f a) w' Q) :
    Ensures (x >>= f) w Q :=
  hf _ _ hx

/-- What is ensured may be weakened. -/
theorem Ensures.mono {x : StateM World α} {P Q : α → World → Prop} (hx : Ensures x w P)
    (h : ∀ a w', P a w' → Q a w') : Ensures x w Q :=
  h _ _ hx

/-- Two things that are ensured are ensured together. -/
theorem Ensures.and {x : StateM World α} {P Q : α → World → Prop} (hP : Ensures x w P)
    (hQ : Ensures x w Q) : Ensures x w fun a w' => P a w' ∧ Q a w' := ⟨hP, hQ⟩

/-! ## What has changed -/

/-- Whether a world is another one but for what was written and requested, for directories, and for
files where some paths lead. -/
structure Altered (paths : List Path) (w w' : World) : Prop where
  setting : w' = { w with store := w'.store, requests := w'.requests, written := w'.written }
  grows : w.store.Grows w'.store
  files : ∀ l, w'.store.fileAt? l ≠ w.store.fileAt? l →
    ∃ p ∈ paths, w'.store.locate w'.directory p = .ok l

/-- Whether a world is such a one to whose results nothing was added. -/
structure Touched (paths : List Path) (w w' : World) : Prop extends Altered paths w w' where
  results : w'.output .results = w.output .results

/-- Relative paths start from the same directory ever after. -/
theorem Altered.directory_eq (h : Altered paths w w') : w'.directory = w.directory := by
  rw [h.setting]

/-- Nothing has changed: a bound of no paths at all, and so of any. -/
theorem Altered.refl (paths : List Path) (w : World) : Altered paths w w where
  setting := rfl
  grows := .refl _
  files := fun _ h => absurd rfl h

/-- A bound may be widened by more paths. -/
theorem Altered.mono {more : List Path} (h : Altered paths w w') (hsub : paths ⊆ more) :
    Altered more w w' where
  setting := h.setting
  grows := h.grows
  files := by
    intro l hl
    obtain ⟨p, hp, hlocate⟩ := h.files l hl
    exact ⟨p, hsub hp, hlocate⟩

/-- **Bounds compose.** A file that differs in the end was changed by the second part, whose bound
names it, or by the first part and not again; then the path of the first part still leads to it, for
a store only grows. -/
theorem Altered.trans (h : Altered paths w w') (h' : Altered paths w' w'') :
    Altered paths w w'' where
  setting := by
    rw [h'.setting, h.setting]
  grows := h.grows.trans h'.grows
  files := by
    intro l hl
    by_cases hlast : w''.store.fileAt? l = w'.store.fileAt? l
    · -- the first part changed it, and the path still leads there
      rw [hlast] at hl
      obtain ⟨p, hp, hlocate⟩ := h.files l hl
      refine ⟨p, hp, ?_⟩
      rw [h'.directory_eq]
      exact h'.grows.locate hlocate
    · exact h'.files l hlast

/-- Where no path leads every file is what it was. -/
theorem Altered.fileAt?_eq (h : Altered [] w w') (l : Location) :
    w'.store.fileAt? l = w.store.fileAt? l := by
  by_contra hne
  obtain ⟨p, hp, -⟩ := h.files l hne
  cases hp

/-- Nothing was written and nothing has changed. -/
theorem Touched.refl (paths : List Path) (w : World) : Touched paths w w :=
  ⟨.refl paths w, rfl⟩

/-- A bound may be widened by more paths. -/
theorem Touched.mono {more : List Path} (h : Touched paths w w') (hsub : paths ⊆ more) :
    Touched more w w' :=
  ⟨h.toAltered.mono hsub, h.results⟩

/-- Bounds on files compose, and nothing that is added to nothing is still nothing. -/
theorem Touched.trans (h : Touched paths w w') (h' : Touched paths w' w'') :
    Touched paths w w'' :=
  ⟨h.toAltered.trans h'.toAltered, h'.results.trans h.results⟩

/-- A computation that changes files only where some paths lead. -/
def Confined (paths : List Path) (x : StateM World α) : Prop :=
  ∀ w, Ensures x w fun _ w' => Touched paths w w'

/-- A value alone is confined to whatever paths. -/
theorem Confined.pure (a : α) : Confined paths (pure a) := fun w => Touched.refl paths w

/-- What is confined to some paths stays so in a sequence. With this rule each part of a run is
bounded on its own, and the bound of the run is the bound of its parts. -/
theorem Confined.bind {x : StateM World α} {f : α → StateM World β} (hx : Confined paths x)
    (hf : ∀ a, Confined paths (f a)) : Confined paths (x >>= f) := by
  intro w
  refine (hx w).bind fun a w' h => ?_
  exact (hf a w').mono fun _ _ h' => h.trans h'

/-! ## Looking at a world -/

/-- What a computation gives, from a world on. -/
def result (x : StateM World α) (w : World) : α := (x.run w).1

/-- A value alone gives itself. -/
theorem result_pure (a : α) (w : World) : result (pure a) w = a := rfl

/-- A computation that leaves every world as it is. -/
def Reading (x : StateM World α) : Prop := ∀ w, (x.run w).2 = w

/-- A value alone changes nothing. -/
theorem Reading.pure (a : α) : Reading (pure a) := fun _ => rfl

/-- Two parts that change nothing change nothing. -/
theorem Reading.bind {x : StateM World α} {f : α → StateM World β} (hx : Reading x)
    (hf : ∀ a, Reading (f a)) : Reading (x >>= f) := by
  intro w
  show ((f (x.run w).1).run (x.run w).2).2 = w
  rw [hx w, hf]

/-- After a part that changes nothing the next one starts from the same world. So what a sequence of
such parts gives can be computed one by one, without a word on the worlds in between. -/
theorem Reading.result_bind {x : StateM World α} (hx : Reading x) (f : α → StateM World β)
    (w : World) : result (x >>= f) w = result (f (result x w)) w := by
  show result (f (result x w)) (x.run w).2 = _
  rw [hx w]

/-- What changes nothing is within every bound. -/
theorem Reading.confined {x : StateM World α} (h : Reading x) : Confined paths x := by
  intro w
  show Touched paths w (x.run w).2
  rw [h w]
  exact .refl paths w

theorem reading_lookup (name : Text) : Reading (Host.lookup name) := fun _ => rfl

theorem reading_directory : Reading Host.directory := fun _ => rfl

theorem reading_home : Reading Host.home := fun _ => rfl

theorem reading_hasDataConvention : Reading Host.hasDataConvention := fun _ => rfl

theorem reading_isTerminal : Reading Host.isTerminal := fun _ => rfl

theorem reading_isFile (p : Path) : Reading (Host.isFile p) := fun _ => rfl

theorem reading_isDirectory (p : Path) : Reading (Host.isDirectory p) := fun _ => rfl

theorem reading_read (p : Path) : Reading (Host.read p) := fun _ => rfl

/-! ## Changing a world -/

/-- A request is noted in the world and changes no file. -/
theorem confined_fetch (r : Request) : Confined paths (Host.fetch r) := by
  intro w
  exact ⟨⟨rfl, .refl _, fun l h => absurd rfl h⟩, rfl⟩

/-- A stream holds what was written to it, and nothing of what was written to the other one. -/
theorem output_record (w : World) (s s' : Stream) (t : Text) :
    (w.record s t).output s' = w.output s' ++ if s = s' then t else [] := by
  simp [output, record]

/-- Whatever is written, files stay as they are. -/
theorem altered_record (paths : List Path) (w : World) (s : Stream) (t : Text) :
    Altered paths w (w.record s t) :=
  ⟨rfl, .refl _, fun _ h => absurd rfl h⟩

/-- A message changes no file, and it adds nothing to the results since it goes to the other
stream. -/
theorem confined_writeMessage (t : Text) : Confined paths (Host.writeMessage t) := by
  intro w
  refine ⟨altered_record paths w .messages t, ?_⟩
  show (w.record .messages t).output .results = _
  rw [output_record, if_neg nofun, List.append_nil]

/-! ## Results -/

/-- Whether a text was added to the results of a world, and nothing else happened but for
messages. -/
structure Added (w w' : World) (told : Text) : Prop where
  setting : w' = { w with written := w'.written }
  results : w'.output .results = w.output .results ++ told

/-- To add nothing is to leave the world as it is. -/
theorem Added.refl (w : World) : Added w w [] := ⟨rfl, (List.append_nil _).symm⟩

/-- What is added one after the other stands in that order. -/
theorem Added.trans {told more : Text} (h : Added w w' told) (h' : Added w' w'' more) :
    Added w w'' (told ++ more) where
  setting := by
    rw [h'.setting, h.setting]
  results := by
    rw [h'.results, h.results, List.append_assoc]

/-- Writing a result leaves the store alone. -/
theorem Added.store_eq {told : Text} (h : Added w w' told) : w'.store = w.store := by
  rw [h.setting]

/-- Writing a result leaves the encoding of the stream alone, so the next text meets the same
one. -/
theorem Added.charset_eq {told : Text} (h : Added w w' told) : w'.charset = w.charset := by
  rw [h.setting]

/-- What goes to a stream leaves files alone, so it is within every bound on these. -/
theorem Added.altered {told : Text} (h : Added w w' told) (paths : List Path) :
    Altered paths w w' where
  setting := by
    rw [h.setting]
  grows := h.store_eq ▸ .refl _
  files := by
    intro l hl
    rw [h.store_eq] at hl
    exact absurd rfl hl

/-- A text that is recorded among the results is added to them. -/
theorem added_record (w : World) (t : Text) : Added w (w.record .results t) t := by
  refine ⟨rfl, ?_⟩
  rw [output_record, if_pos rfl]

/-- One text is written as a whole, or refused as a whole for a code point in it. There is no third
case: a text that is refused leaves the world as it was, so no part of it can be seen on the
stream. -/
theorem ensures_writeResult (t : Text) (w : World) :
    Ensures (Host.writeResult t) w fun r w' =>
      (r = .ok () ∧ Added w w' t ∧ w.charset.refused? t = none)
        ∨ ∃ e, r = .error e ∧ w' = w ∧ w.charset.refused? t = some e.position := by
  cases hrefused : w.charset.refused? t with
  | some position =>
    have hrun : (Host.writeResult t : StateM World (Except StreamFault Unit)).run w
        = (.error ⟨position⟩, w) := by
      show writeResult t w = _
      simp only [writeResult, hrefused]
    rw [Ensures, hrun]
    exact .inr ⟨⟨position⟩, rfl, rfl, rfl⟩
  | none =>
    have hrun : (Host.writeResult t : StateM World (Except StreamFault Unit)).run w
        = (.ok (), w.record .results t) := by
      show writeResult t w = _
      simp only [writeResult, hrefused]
    rw [Ensures, hrun]
    exact .inl ⟨rfl, added_record w t, rfl⟩

/-! ## Changing a store -/

/-- What comes of a change of the store: it succeeds and the store is the new one, or it fails and
the world is what it was. The two cases are what a proof about an operation has to show. -/
theorem ensures_change {f : Store → Location → Except StoreFault Store}
    {Q : Except StoreFault Unit → World → Prop}
    (herror : ∀ e, f w.store w.directory = .error e → Q (.error e) w)
    (hok : ∀ store, f w.store w.directory = .ok store → Q (.ok ()) { w with store }) :
    Ensures (change f) w Q := by
  show Q (change f w).1 (change f w).2
  unfold change
  split
  next store h => exact hok store h
  next e h => exact herror e h

/-- Making a directory changes no file. It is made where nothing was, so no location loses or gains
the content of a file. -/
theorem confined_makeDirectory (p : Path) : Confined paths (Host.makeDirectory p) := by
  intro w
  refine ensures_change (fun _ _ => .refl paths w) fun store h => ?_
  obtain ⟨l, hne, hnone, rfl⟩ := Store.makeDirectory_eq_ok h
  refine ⟨⟨rfl, Store.grows_put hne (by rw [hnone]; nofun), fun l' hl' => ?_⟩, rfl⟩
  -- a directory where there was nothing is no change of files
  refine absurd ?_ hl'
  show (w.store.put l .directory).fileAt? l' = w.store.fileAt? l'
  by_cases heq : l' = l
  · subst heq
    rw [Store.fileAt?, Store.fileAt?, Store.find?_put hne, if_pos rfl, hnone]
  · exact Store.fileAt?_congr (by rw [Store.find?_put hne, if_neg heq])

/-- Writing a file changes the one file that the path leads to. The location was none of a
directory, so the store grows, and the path leads to that location afterwards too. -/
theorem confined_writeFile (p : Path) (bytes : Bytes) :
    Confined [p] (Host.writeFile p bytes) := by
  intro w
  refine ensures_change (fun _ _ => .refl [p] w) fun store h => ?_
  obtain ⟨l, hl, hne, hdir, rfl⟩ := Store.writeFile_eq_ok h
  have hgrows := Store.grows_put (e := .file bytes) hne hdir
  refine ⟨⟨rfl, hgrows, fun l' hl' => ?_⟩, rfl⟩
  by_cases heq : l' = l
  · subst heq
    exact ⟨p, List.mem_singleton_self p, hgrows.locate hl⟩
  · exact absurd (Store.fileAt?_congr (by rw [Store.find?_put hne, if_neg heq])) hl'

end OptionTypes.World
