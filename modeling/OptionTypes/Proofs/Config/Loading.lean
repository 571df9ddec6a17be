import OptionTypes.Proofs.Config.Precedence
import OptionTypes.Proofs.Json.LongNumbers
import OptionTypes.Proofs.Utf8
import OptionTypes.Proofs.Yaml.Nodes
import OptionTypes.Run

/-!
# How the loading of a configuration ends

A configuration file is read, decoded and parsed. A failure of the file or of the form of the
document is told with exit code 1. But what a document spells may denote nothing, and that breaks
the run off: bytes of no text, an integer that is too long, and in YAML an escape of no character or
a scalar without a value.

* `DocumentError.IsTold`: the failures that a run tells.
* `Document.Leak`: the others, each with what in the file is to blame.
* `Resolution.load_outcome`: from all surroundings and for all paths there are members, a failure
  that is told, or a leak.
-/

namespace OptionTypes

namespace DocumentError

/-- The failure of a YAML document at a path. -/
def ofYaml (path : Path) : Yaml.Error → DocumentError
  | .malformed => .notYaml path
  | .escape e => .escape e
  | .number e => .number e
  | .date message => .date message
  | .misfit e => .misfit e

/-- Whether a run that fails so ends with exit code 1 and the wording of the failure. -/
def IsTold (e : DocumentError) : Prop :=
  ∃ d, (RunError.config (.document e)).diagnosis? = some d ∧ d.exitCode = 1 ∧ d.message = e.message

end DocumentError

namespace Document

open Blank DocumentError

/-- Whether a document at a path may be YAML. -/
def MayBeYaml (path : Path) : Prop := Case.lower path.extension ≠ jsonExtension

/-- The failures of the bytes at a path that no run foresees. -/
inductive Leak (path : Path) (bytes : Bytes) : DocumentError → Prop where
  | encoding {e : Utf8.DecodeError} (h : ∀ cs, Utf8.encode cs ≠ bytes) :
      Leak path bytes (.encoding e)
  | digits {cs : List Char} {length : Nat} (hbytes : Utf8.encode cs = bytes)
      (h : Reading.HoldsLongRun (Text.ofChars (unifyLines cs)) length) :
      Leak path bytes (.number (.tooManyDigits length))
  | escape {cs : List Char} {e : Escape.Error} (hpath : MayBeYaml path)
      (hbytes : Utf8.encode cs = bytes) (h : Yaml.ScanFault (unifyLines cs) (.escape e)) :
      Leak path bytes (.escape e)
  | scalar {cs : List Char} {root : Yaml.Node} {kind : Yaml.Kind} {t : Text} {e : Yaml.Error}
      (hpath : MayBeYaml path) (hbytes : Utf8.encode cs = bytes)
      (hroot : Yaml.Node.ofTokens (Yaml.tokens (unifyLines cs)) = .ok (some root))
      (hholds : root.Holds kind t) (hvalue : Yaml.scalarValue kind t = .error e)
      (he : e ≠ .malformed) : Leak path bytes (ofYaml path e)

variable {path : Path} {bytes : Bytes} {cs : List Char} {e : DocumentError}

/-- Reading YAML at a path is reading it, with the failures named after the path. -/
theorem readYaml_eq (path : Path) (cs : List Char) :
    readYaml path cs = (Yaml.read cs).mapError (ofYaml path) := by
  unfold readYaml
  cases Yaml.read cs with
  | ok v => rfl
  | error e =>
    cases e with
    | malformed => rfl
    | escape e => rfl
    | number e => rfl
    | date message => rfl
    | misfit e => rfl

/-- A document that is not read as YAML: the scanner or a scalar is to blame. Only a malformed
document is told; an escape, a long integer and a scalar without a value leak. -/
theorem told_or_leak_of_readYaml (hpath : MayBeYaml path) (hbytes : Utf8.encode cs = bytes)
    (h : readYaml path (unifyLines cs) = .error e) : e.IsTold ∨ Leak path bytes e := by
  rw [readYaml_eq] at h
  obtain ⟨fault, hread, rfl⟩ := Outcome.mapError_eq_error_iff.mp h
  cases Yaml.unread_of_read hread with
  | scan hscan =>
    cases hscan with
    | malformed => exact .inl ⟨_, rfl, rfl, rfl⟩
    | escape hin hlength hhex hbeyond hcode =>
      exact .inr (.escape hpath hbytes (.escape hin hlength hhex hbeyond hcode))
    | digits hlong => exact .inr (.digits hbytes hlong)
  | scalar hroot hholds hvalue =>
    by_cases hfault : fault = .malformed
    · rw [hfault]
      exact .inl ⟨_, rfl, rfl, rfl⟩
    · exact .inr (.scalar hpath hbytes hroot hholds hvalue hfault)

/-- A document that is read neither as JSON nor as YAML. A long integer leaks from JSON already; any
other fault of JSON leads to YAML, or is told where the path excludes that. -/
theorem told_or_leak_of_value (hbytes : Utf8.encode cs = bytes)
    (h : value path (unifyLines cs) = .error e) : e.IsTold ∨ Leak path bytes e := by
  unfold value at h
  extract_lets document at h
  split at h
  next => cases h
  next fault hread =>
    cases h
    cases Json.readFault_of_read hread with
    | number hlong => exact .inr (.digits hbytes hlong)
  next rule position _ =>
    split at h
    next =>
      cases h
      exact .inl ⟨_, rfl, rfl, rfl⟩
    next hpath => exact told_or_leak_of_readYaml hpath hbytes h

/-- Bytes of no text leak, whatever the path. -/
theorem encoding_of_members (h : ∀ cs, Utf8.encode cs ≠ bytes) :
    ∃ e, members path bytes = .error (.encoding e) := by
  unfold members
  cases hdecode : Utf8.decode bytes with
  | ok cs => exact absurd (Utf8.encode_of_decode hdecode) (h cs)
  | error e => exact ⟨e, rfl⟩

/-- The failure of a file is told, or something in the file is to blame for it. Decoding comes
first, then the document, and then whether it is an object, which is always told. -/
theorem told_or_leak_of_members (h : members path bytes = .error e) :
    e.IsTold ∨ Leak path bytes e := by
  unfold members at h
  rcases Outcome.bind_eq_error_iff.mp h with h | ⟨cs, hcs, h⟩
  · -- a text would be decoded
    obtain ⟨fault, hdecode, rfl⟩ := Outcome.mapError_eq_error_iff.mp h
    refine .inr (.encoding ?_)
    rintro cs rfl
    rw [Utf8.decode_encode] at hdecode
    cases hdecode
  · -- the bytes are those of a text, and what fails is the reading of it or its form
    have hdecode : Utf8.decode bytes = .ok cs := Outcome.mapError_eq_ok_iff.mp hcs
    have hbytes : Utf8.encode cs = bytes := Utf8.encode_of_decode hdecode
    rcases Outcome.bind_eq_error_iff.mp h with h | ⟨v, -, h⟩
    · exact told_or_leak_of_value hbytes h
    · unfold membersOf at h
      split at h
      · cases h
      · cases h
      · cases h
        exact .inl ⟨_, rfl, rfl, rfl⟩

/-- Nothing is told of a leak: the run ends with a log. -/
theorem diagnosis?_of_leak (h : Leak path bytes e) :
    (RunError.config (.document e)).diagnosis? = none := by
  cases h with
  | encoding => rfl
  | digits => rfl
  | escape => rfl
  | @scalar _ _ _ _ fault _ _ _ _ _ he =>
    cases fault with
    | malformed => exact absurd rfl he
    | escape => rfl
    | number => rfl
    | date => rfl
    | misfit => rfl

end Document

namespace Resolution

open World

variable {w : World} {path : Path} {bytes : Bytes} {e : DocumentError}

/-- A path that can be read from leads to a file. -/
theorem fileMembers_of_read (h : w.store.read w.directory path = .ok bytes) :
    fileMembers w (some path) = Document.members path bytes := by
  show (if w.store.isFile w.directory path then _ else _) = _
  rw [if_pos (Store.isFile_of_read h), h]

/-- What is not there, and what is no file, is told. -/
theorem told_of_not_read (h : ∀ bytes, w.store.read w.directory path ≠ .ok bytes) :
    ∃ e, fileMembers w (some path) = .error e ∧ e.IsTold := by
  simp only [fileMembers]
  split
  · split
    next bytes hread => exact absurd hread (h bytes)
    next fault _ => exact ⟨.unreadable path fault, rfl, _, rfl, rfl, rfl⟩
  · exact ⟨.notFound path, rfl, _, rfl, rfl, rfl⟩

/-- **How the loading of a configuration ends.** There are members, or a failure that a run tells
with exit code 1, or the bytes of the file leak. A path without a file is told, and a file that is
no text always leaks.

Loading is `fileMembers` of the world (`result_load`), so the outcome is that of the file if there
is one, and `Document.told_or_leak_of_members` says how that fails. -/
theorem load_outcome (path : Path) (w : World) :
    ((∃ ms, result (load path) w = .ok ms)
      ∨ (∃ e, result (load path) w = .error e ∧ e.IsTold)
      ∨ ∃ bytes e, w.store.read w.directory path = .ok bytes ∧ result (load path) w = .error e
        ∧ Document.Leak path bytes e ∧ (RunError.config (.document e)).diagnosis? = none)
      ∧ ((∀ bytes, w.store.read w.directory path ≠ .ok bytes) →
        ∃ e, result (load path) w = .error e ∧ e.IsTold)
      ∧ ∀ bytes, w.store.read w.directory path = .ok bytes → (∀ cs, Utf8.encode cs ≠ bytes) →
        ∃ e, result (load path) w = .error (.encoding e) := by
  rw [result_load]
  refine ⟨?_, told_of_not_read, ?_⟩
  · by_cases hread : ∃ bytes, w.store.read w.directory path = .ok bytes
    · obtain ⟨bytes, hread⟩ := hread
      cases hmembers : fileMembers w (some path) with
      | ok ms => exact .inl ⟨ms, rfl⟩
      | error e =>
        rw [fileMembers_of_read hread] at hmembers
        rcases Document.told_or_leak_of_members hmembers with htold | hleak
        · exact .inr (.inl ⟨e, rfl, htold⟩)
        · exact .inr (.inr ⟨bytes, e, hread, rfl, hleak, Document.diagnosis?_of_leak hleak⟩)
    · exact .inr (.inl (told_of_not_read (not_exists.mp hread)))
  · intro bytes hread hbytes
    rw [fileMembers_of_read hread]
    exact Document.encoding_of_members hbytes

/-- The file of a configuration that is no text. -/
def undecodable : World :=
  ⟨⟨[(["c.json"], .file [0xFF])]⟩, [], ⟨[], []⟩, [], true, [], false, .utf8, .failure [], [], []⟩

/-- The one byte is the beginning of no character. -/
theorem load_outcome_undecodable :
    undecodable.store.read undecodable.directory (.ofText "c.json") = .ok [0xFF]
      ∧ (∀ cs, Utf8.encode cs ≠ [0xFF])
      ∧ ∃ e, result (load (.ofText "c.json")) undecodable = .error (.encoding e) := by
  have hbytes : ∀ cs, Utf8.encode cs ≠ [0xFF] := by
    intro cs h
    have hdecode : Utf8.decode [0xFF] = .ok cs := h ▸ Utf8.decode_encode cs
    cases hdecode
  exact ⟨rfl, hbytes, (load_outcome (.ofText "c.json") undecodable).2.2 [0xFF] rfl hbytes⟩

/-- Not every loading ends with members or with a failure that is told. -/
theorem not_forall_load_gives_members_or_told :
    ¬∀ path w, (∃ ms, result (load path) w = .ok ms)
      ∨ ∃ e : DocumentError, result (load path) w = .error e ∧ e.IsTold := by
  have hload : result (load (.ofText "c.json")) undecodable
      = .error (.encoding ⟨0xFF, 0, 1, .invalidStart⟩) := by
    rw [result_load]
    rfl
  intro h
  rcases h (.ofText "c.json") undecodable with ⟨ms, hms⟩ | ⟨e, he, d, hd, -⟩
  · rw [hload] at hms
    cases hms
  · rw [hload] at he
    cases he
    cases hd

end Resolution

end OptionTypes
