import OptionTypes.Declaration.Comment
import OptionTypes.Proofs.Json.Compact
import OptionTypes.Proofs.Json.RoundTrip

/-!
# Defaults are encoded without loss

The comment of a property shows the default of its option as compact JSON. For a plain default the
text takes one line without blanks between its parts, and the value can be had back from it, so two
different defaults never look the same. A text can even be had back by the script that it came from.

* `Comment.TellsAll` says this of a value and a text.
* `Comment.defaultText_tells_all`: the text of a plain default tells all of it, and there is one
  unless an integer in the default is too long to be written.
-/

namespace OptionTypes.Declaration.Comment

open Json

/-- Whether a text tells all of a default: in one line, without blanks outside of strings, readable
as the default and as no other one. The string of a text is also read by a script. -/
structure TellsAll (v : Value) (t : Text) : Prop where
  oneLine : .char '\r' ∉ t ∧ .char '\n' ∉ t
  unspaced : ∀ c ∈ unquoted .outside t, Blank.isBlank c = false
  read : Json.read t = .ok v
  unique : ∀ w, IsPlain w → defaultText w = .ok t → w = v
  decode : ∀ s, v = .text s → (∀ c ∈ s, c.isSurrogate = false) →
    ∃ body, t = .char '"' :: body ++ [.char '"'] ∧ Escape.decode body = .ok s

theorem exists_read_defaultText {v : Value} (hv : IsPlain v) (h : AreShort (integers v)) :
    ∃ t, defaultText v = .ok t ∧ Json.read t = .ok v := by
  have hnone : ∀ c ∈ ([] : Text), Place.isBlank c = true := nofun
  obtain ⟨t, ht, hread⟩ := exists_write_read readable_compact hv h hnone
  rw [List.append_nil] at hread
  exact ⟨t, ht, hread⟩

theorem read_defaultText {v : Value} (hv : IsPlain v) {t : Text} (h : defaultText v = .ok t) :
    Json.read t = .ok v := by
  obtain ⟨t', ht', hread⟩ := exists_read_defaultText hv (areShort_of_writeAt 0 v h)
  obtain rfl : t = t' := Except.ok.inj (h.symm.trans ht')
  exact hread

/-- **Defaults are encoded without loss.**

A value has a text exactly if its integers are short enough to be written. The text has no line ends
and no blanks outside of its texts, is read back as the value, and belongs to no other value; a text
is encoded in a way that a script decodes to it. -/
theorem defaultText_tells_all {v : Value} (hv : IsPlain v) :
    ((∃ t, defaultText v = .ok t) ↔ AreShort (integers v))
      ∧ ∀ t, defaultText v = .ok t → TellsAll v t := by
  constructor
  · constructor
    · rintro ⟨t, ht⟩
      exact areShort_of_writeAt 0 v ht
    · intro hshort
      obtain ⟨t, ht, -⟩ := exists_read_defaultText hv hshort
      exact ⟨t, ht⟩
  · intro t ht
    -- what is written has neither line ends nor blanks outside of texts
    have htight := tight_write ht
    have hread := read_defaultText hv ht
    refine ⟨⟨fun hcr => ?_, fun hlf => ?_⟩, htight.unquoted, hread, ?_, ?_⟩
    · exact absurd (htight.control _ hcr) (by decide)
    · exact absurd (htight.control _ hlf) (by decide)
    · intro w hw hwt
      exact Except.ok.inj ((read_defaultText hw hwt).symm.trans hread)
    · rintro s rfl hs
      obtain ⟨cs, rfl⟩ := Text.exists_eq_ofChars hs
      cases ht
      exact decode_quote cs

/-- A default with every kind of value in it: blanks stay inside of strings, and the line break
becomes an escape. -/
theorem defaultText_tells_all_nested :
    let v : Value := .object
      [(.text "a b", .list [.null, .bool true, .number (.int (-12)), .list [], .object []]),
        (.text "q", .text "\" \\\né")]
    let t : Text := "\x7b\"a b\":[null,true,-12,[],\x7b\x7d],\"q\":\"\\\" \\\\\\né\"\x7d"
    IsPlain v ∧ defaultText v = .ok t ∧ TellsAll v t := by
  intro v t
  have hv : IsPlain v := ⟨by simp [ArePlainMembers, IsPlain, ArePlain, Members.insertAll], rfl⟩
  have ht : defaultText v = .ok t := rfl
  exact ⟨hv, ht, (defaultText_tells_all hv).2 t ht⟩

/-- Not every plain default has a text: an integer of 4301 digits is too long. -/
theorem not_forall_exists_defaultText : ¬∀ v, IsPlain v → ∃ t, defaultText v = .ok t := by
  intro h
  obtain ⟨t, ht⟩ := h (.number (.int (10 ^ Reading.digitLimit))) trivial
  exact Reading.not_isShort_pow (areShort_of_writeAt 0 _ ht _ List.mem_cons_self)

end OptionTypes.Declaration.Comment
