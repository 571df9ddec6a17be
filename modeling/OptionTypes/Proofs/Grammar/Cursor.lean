import OptionTypes.Proofs.Comments.Removal
import OptionTypes.Proofs.Utf8
import OptionTypes.Syntax.Reader

/-!
# Comments that a cursor has passed

A cursor keeps the comments that were passed, the nearest one first. They are leaves, none of them
is empty, and they lie one before the other and before the cursor: a scan finds the next comment
only behind the last one.

* `Cursor.Tidy` is what holds of every cursor that a reader goes through.
* `Cursor.Tidy.skip`, `Cursor.Tidy.advance` and `Cursor.Tidy.of_place?`: it stays so.
-/

namespace OptionTypes.Syntax

/-- Comments before an offset, the nearest one first. -/
structure TidyComments (found : List Tree) (n : Nat) : Prop where
  remarks : ∀ t ∈ found, t.isRemark = true
  spans : ∀ t ∈ found, t.start < t.stop ∧ t.stop ≤ n
  order : found.Pairwise fun later earlier => earlier.stop ≤ later.start

namespace TidyComments

variable {found : List Tree} {n m : Nat}

theorem nil : TidyComments [] n := ⟨nofun, nofun, .nil⟩

/-- What is known stays tidy for a later offset. -/
theorem mono (h : TidyComments found n) (hle : n ≤ m) : TidyComments found m := by
  refine ⟨h.remarks, ?_, h.order⟩
  intro t ht
  have hspan := h.spans t ht
  exact ⟨hspan.1, Nat.le_trans hspan.2 hle⟩

/-- One comment more, from the offset to a later one, comes after all that are known. -/
theorem cons (h : TidyComments found n) (hlt : n < m) :
    TidyComments (Cursor.commentLeaf n m :: found) m where
  remarks := List.forall_mem_cons.mpr ⟨rfl, h.remarks⟩
  spans := List.forall_mem_cons.mpr ⟨⟨hlt, Nat.le_refl m⟩, (h.mono (Nat.le_of_lt hlt)).spans⟩
  order := List.pairwise_cons.mpr ⟨fun t ht => (h.spans t ht).2, h.order⟩

end TidyComments

namespace Cursor

/-- The comments of a cursor lie before it. -/
def Tidy (c : Cursor) : Prop := TidyComments c.comments c.position

/-- At the start no comment is known. -/
theorem tidy_atStart (cs : List Char) : (atStart cs).Tidy := .nil

/-- Moving by characters passes no comments. Induction on their number. -/
theorem Tidy.advance {c : Cursor} (h : c.Tidy) (n : Nat) : (c.advance n).Tidy := by
  induction n generalizing c with
  | zero => exact h
  | succ n ih =>
    obtain ⟨rest, position, comments⟩ := c
    cases rest with
    | nil => exact h
    | cons a rest =>
      have hnext : Tidy ⟨rest, position + width a, comments⟩ :=
        TidyComments.mono h (Nat.le_add_right ..)
      exact ih hnext

/-- What the scan knows in the middle of something: the comments found so far lie before the one
that it is in. -/
def Mode.Knows (n : Nat) (found : List Tree) : Mode → Prop
  | .outside => TidyComments found n
  | .line start => TidyComments found start ∧ start < n
  | .block start entry _ => TidyComments found start ∧ start < n ∧ entry.Tidy

/-- **A scan ends at tidy cursors.** Induction on the scan, which knows in each mode where the next
comment can begin at the earliest. -/
theorem tidy_scan (mode : Mode) (n : Nat) (found : List Tree) (pauses : List Cursor)
    (cs : List Char) (hknows : mode.Knows n found) (hpauses : ∀ p ∈ pauses, p.Tidy) :
    (scan mode n found pauses cs).1.Tidy ∧ ∀ p ∈ (scan mode n found pauses cs).2, p.Tidy := by
  have hstep : ∀ {n : Nat} (c : Char), n < n + width c :=
    fun c => Nat.lt_add_of_pos_right (Utf8.size_pos c)
  fun_induction scan mode n found pauses cs with
  -- outside of comments: blanks, what opens a comment, tokens
  | case1 n found pauses => exact ⟨hknows, hpauses⟩
  | case2 n found pauses c rest _ ih => exact ih (hknows.mono (Nat.le_of_lt (hstep c))) hpauses
  | case3 n found pauses rest _ ih => exact ih ⟨hknows, Nat.lt_succ_self n⟩ hpauses
  | case4 n found pauses rest _ ih =>
    -- a block that is not closed leaves the cursor where it began
    exact ih ⟨hknows, Nat.lt_succ_self n, hknows⟩ hpauses
  | case5 n found pauses rest => exact ⟨hknows, hpauses⟩
  | case6 n found pauses c rest => exact ⟨hknows, hpauses⟩
  -- in a comment that its line ends
  | case7 start n found pauses =>
    have hfound := hknows.1.cons hknows.2
    exact ⟨hfound, List.forall_mem_cons.mpr ⟨hfound, hpauses⟩⟩
  | case8 start n found pauses c rest _ _ ih =>
    have hfound := hknows.1.cons hknows.2
    exact ih (hfound.mono (Nat.le_of_lt (hstep c))) (List.forall_mem_cons.mpr ⟨hfound, hpauses⟩)
  | case9 start n found pauses c rest _ ih =>
    exact ih ⟨hknows.1, Nat.lt_trans hknows.2 (hstep c)⟩ hpauses
  -- in a comment between marks; without the second one the scan goes back to the first
  | case10 start entry star n found pauses => exact ⟨hknows.2.2, hpauses⟩
  | case11 start entry star n found pauses c rest _ _ ih =>
    have hfound := hknows.1.cons (Nat.lt_succ_of_lt hknows.2.1)
    exact ih hfound (List.forall_mem_cons.mpr ⟨hfound, hpauses⟩)
  | case12 start entry star n found pauses c rest _ ih =>
    exact ih ⟨hknows.1, Nat.lt_trans hknows.2.1 (hstep c), hknows.2.2⟩ hpauses

/-- Skipping takes up the comments it passes in their order. -/
theorem Tidy.skip {c : Cursor} (h : c.Tidy) : c.skip.Tidy :=
  (tidy_scan .outside c.position c.comments [] c.rest h nofun).1

/-- Where the grammar may pause, the comments before are known and no others. -/
theorem Tidy.of_mem_pauses {c p : Cursor} (h : c.Tidy) (hp : p ∈ c.pauses) : p.Tidy := by
  rcases List.mem_cons.mp hp with rfl | hp
  · exact h
  · have hpauses := (tidy_scan .outside c.position c.comments [] c.rest h nofun).2
    exact hpauses p (List.mem_reverse.mp hp)

/-- The place of a missing semicolon is one of those where the grammar may pause. -/
theorem Tidy.of_place? {s : Semicolon.Setting} {c p : Cursor} (h : c.Tidy)
    (hp : Semicolon.place? s c = some p) : p.Tidy :=
  h.of_mem_pauses (List.mem_of_find?_eq_some hp)

end Cursor

end OptionTypes.Syntax
