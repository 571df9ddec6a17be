import OptionTypes.Declaration.Comment
import OptionTypes.Proofs.Json.EndMark
import OptionTypes.Proofs.Wrapping

/-!
# Where a documentation comment ends

A documentation comment ends at its own last line as long as nothing in it ends it before. The
description cannot: its end marks are broken up before it is wrapped. The default can: JSON writes
the texts in it as they are. So the comment is safe exactly for the defaults that hold no end mark.

* `Comment.closesAtEnd_lines_iff`: when the whole comment closes at its end.
* `Comment.not_closesAtEnd_lines`: a default for which it does not.
-/

namespace OptionTypes.Text

/-- The last of several texts is joined to the others by one separator. -/
theorem join_concat (sep t : Text) :
    ∀ {ts : List Text}, ts ≠ [] → join sep (ts ++ [t]) = join sep ts ++ sep ++ t
  | [], h => absurd rfl h
  | [_], _ => by simp [join]
  | s :: u :: rest, _ => by
    have ih : join sep (u :: rest ++ [t]) = join sep (u :: rest) ++ sep ++ t :=
      join_concat sep t (by simp)
    have hcons : join sep (s :: u :: rest) = s ++ sep ++ join sep (u :: rest) := by
      simp [join]
    have hconcat : join sep (s :: u :: rest ++ [t]) = s ++ sep ++ join sep (u :: rest ++ [t]) := by
      simp [join]
    rw [hconcat, ih, hcons]
    simp only [List.append_assoc]

end OptionTypes.Text

namespace OptionTypes.Declaration.Comment

open Text

/-- No line for a description holds an end mark. -/
theorem keepsOpen_of_mem_descriptionLines {width : Int} {description : Option Text}
    {ls : List Text} (h : descriptionLines width description = .ok ls) :
    ∀ line ∈ ls, KeepsOpen line := by
  cases description with
  | none =>
    cases h
    simp
  | some t =>
    obtain ⟨segments, hsegments, hpure⟩ := Outcome.bind_eq_ok_iff.mp h
    cases hpure
    rw [Outcome.mapError_eq_ok_iff, Wrap.wrap] at hsegments
    split at hsegments
    · cases hsegments
    · cases hsegments
      intro line hline
      obtain ⟨segment, hsegment, rfl⟩ := List.mem_map.mp hline
      have hopen := Wrap.keepsOpen_of_mem_linesOf hsegment
      show KeepsOpen ([.char ' ', .char '*'] ++ .char ' ' :: segment)
      exact (keepsOpen_append_cons (by decide) (by decide)).mpr ⟨by decide, hopen⟩

/-- The lines for a default hold an end mark exactly when a text in the default does. -/
theorem keepsOpen_defaultLines_iff {d : Descriptor} {described : Bool} {ls : List Text}
    (h : defaultLines d described = .ok ls) :
    (∀ line ∈ ls, KeepsOpen line) ↔ ∀ t ∈ d.default.texts, KeepsOpen t := by
  rw [defaultLines] at h
  split at h
  next hdefault =>
    obtain ⟨json, hjson, hpure⟩ := Outcome.bind_eq_ok_iff.mp h
    cases hpure
    have hwritten := Json.keepsOpen_write_iff (Outcome.mapError_eq_ok_iff.mp hjson)
    have hgap : ∀ line ∈ (if described then [ofString " *"] else []), KeepsOpen line := by
      cases described with
      | false => decide
      | true => decide
    have hline : KeepsOpen (ofString " * @default " ++ json) ↔ KeepsOpen json := by
      have hsplit : ofString " * @default " ++ json
          = ofString " * @default" ++ .char ' ' :: json := rfl
      rw [hsplit, keepsOpen_append_cons (by decide) (by decide)]
      constructor
      · intro hboth
        exact hboth.2
      · intro hjson
        exact ⟨by decide, hjson⟩
    rw [List.forall_mem_append, List.forall_mem_singleton, hline, hwritten]
    constructor
    · intro hboth
      exact hboth.2
    · intro htexts
      exact ⟨hgap, htexts⟩
  next hnone =>
    cases h
    -- without a default there is no text in it
    have hnull : d.default = .null := by
      cases hd : d.default with
      | null => rfl
      | _ => exact absurd (by simp [Descriptor.hasDefault, hd, Value.isNull]) hnone
    simp [hnull, Value.texts]

/-- A comment that is not empty consists of the opening line, the lines of the description, those
of the default, and the closing line. -/
theorem exists_lines_eq {d : Descriptor} {width : Int} {ls : List Text} (hne : ls ≠ []) :
    lines d width = .ok ls →
      ∃ first second, descriptionLines width (description? d) = .ok first
        ∧ defaultLines d (description? d).isSome = .ok second
        ∧ ls = ofString "/**" :: (first ++ second) ++ [ofString " */"] := by
  intro h
  rw [lines] at h
  split at h
  · cases h
    exact absurd rfl hne
  · obtain ⟨first, hfirst, h⟩ := Outcome.bind_eq_ok_iff.mp h
    obtain ⟨second, hsecond, hpure⟩ := Outcome.bind_eq_ok_iff.mp h
    cases hpure
    exact ⟨first, second, hfirst, hsecond, rfl⟩

/-- **When a comment closes at its end.** Whatever the description and the width, the end mark
stands in a comment only as its last two code points exactly when no text in the default holds an
end mark.

The lines up to the default keep open by themselves (`keepsOpen_of_mem_linesOf`), the default does
when the texts in it do (`keepsOpen_writeAt`), and the mark closes at the end of what keeps open
(`closesAtEnd_append_iff`). -/
theorem closesAtEnd_lines_iff {d : Descriptor} {width : Int} {ls : List Text}
    (h : lines d width = .ok ls) (hne : ls ≠ []) :
    ClosesAtEnd (join "\n" ls) ↔ ∀ t ∈ d.default.texts, ¬endMark <:+: t := by
  obtain ⟨first, second, hfirst, hsecond, rfl⟩ := exists_lines_eq hne h
  have hdescription := keepsOpen_of_mem_descriptionLines hfirst
  have hdefault := keepsOpen_defaultLines_iff hsecond
  -- the closing line is a line end, a blank and the mark
  have hjoin : join "\n" (ofString "/**" :: (first ++ second) ++ [ofString " */"])
      = (join [.char '\n'] (ofString "/**" :: (first ++ second)) ++ [.char '\n', .char ' '])
        ++ endMark := by
    have hlf : ofString "\n" = [.char '\n'] := rfl
    have hclose : ofString " */" = .char ' ' :: endMark := rfl
    rw [join_concat _ _ (by simp), hlf, hclose]
    simp
  rw [hjoin, closesAtEnd_append_iff, keepsOpen_concat (by decide),
    keepsOpen_append_cons (by decide) (by decide), keepsOpen_join (by decide) (by decide),
    List.forall_mem_cons, List.forall_mem_append, hdefault]
  simp only [keepsOpen_iff]
  constructor
  · intro hall
    exact hall.1.2.2
  · intro htexts
    refine ⟨⟨by decide, ?_, htexts⟩, by decide⟩
    intro line hline
    exact keepsOpen_iff.mp (hdescription line hline)

/-- A description with an end mark and a default whose texts come close to one. -/
theorem closesAtEnd_lines_of_broken_mark :
    lines ⟨"k", none, none, .list [.text "*", .record [("/", .text "* /")]],
        some "ends with */", none, .plain false, []⟩ 8
      = .ok ["/**", " * ends", " * with *\\/", " *",
          " * @default [\"*\",\x7b\"/\":\"* /\"\x7d]", " */"]
    ∧ ClosesAtEnd (join "\n" ["/**", " * ends", " * with *\\/", " *",
          " * @default [\"*\",\x7b\"/\":\"* /\"\x7d]", " */"]) := by
  have h : lines ⟨"k", none, none, .list [.text "*", .record [("/", .text "* /")]],
        some "ends with */", none, .plain false, []⟩ 8
      = .ok ["/**", " * ends", " * with *\\/", " *",
          " * @default [\"*\",\x7b\"/\":\"* /\"\x7d]", " */"] := rfl
  exact ⟨h, (closesAtEnd_lines_iff h (by simp)).mpr (by decide)⟩

/-- **A default can end the comment.** The text `*/` as a default is written as it is, so the
comment of the option ends within its line and not at its end. -/
theorem not_closesAtEnd_lines :
    ¬∀ (d : Descriptor) (width : Int) (ls : List Text),
      1 ≤ width → lines d width = .ok ls → ls ≠ [] → ClosesAtEnd (join "\n" ls) := by
  intro hall
  have h : lines ⟨"k", none, none, .text "*/", none, none, .plain false, []⟩ 79
      = .ok ["/**", " * @default \"*/\"", " */"] := rfl
  have hearly := (hall _ _ _ (by decide) h (by simp) 17).mp ⟨ofString "\"\n */", rfl⟩
  exact absurd hearly (by decide)

end OptionTypes.Declaration.Comment
