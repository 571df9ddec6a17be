import OptionTypes.Check

/-!
# Configuration

What a run is configured with. `Config.standard` holds without any file; `Config.merge` lays the
members of an object over a configuration. Symbols and type overrides are merged member by member,
every other field is replaced, and the result is checked as a whole.
-/

namespace OptionTypes

/-- The configuration of a run. -/
structure Config where
  /-- The address of the source file; `\x7bversion\x7d` stands for the version. -/
  urlTemplate : Text
  commands : List Text
  /-- Values of identifiers that a schema may mention. -/
  symbols : List (Text × Value)
  /-- Types by `command/option`, in place of the inferred ones. -/
  typeOverrides : List (Text × Text)
  preferredNames : List Text
  wrapWidth : Nat
  debugDir : Text
  timeout : Float

namespace Config

/-- The smallest width at which descriptions may be wrapped. -/
def minimumWidth : Nat := 20

/-- The configuration that holds where nothing else is said. -/
def standard : Config where
  urlTemplate :=
    "https://raw.githubusercontent.com/mozilla/web-ext/refs/tags/\x7bversion\x7d/src/program.js"
  commands := ["run", "build", "sign"]
  symbols := [("AMO_BASE_URL", .str "https://addons.mozilla.org/api/v5/")]
  typeOverrides := [("sign/channel", "'listed' | 'unlisted'")]
  preferredNames := ["firefox-binary"]
  wrapWidth := 79
  debugDir := "debug"
  timeout := 30

mutual

/-- A value as it is written out: a function becomes an object that holds its source. -/
def writtenValue : Value → Value
  | .function source => .object [(.text "source", .text source)]
  | .list items => .list (writtenItems items)
  | .object members => .object (writtenMembers members)
  | v => v

/-- The items of a list as they are written out. -/
def writtenItems : List Value → List Value
  | [] => []
  | v :: vs => writtenValue v :: writtenItems vs

/-- The members of an object as they are written out. -/
def writtenMembers : List (Key × Value) → List (Key × Value)
  | [] => []
  | (k, v) :: rest => (k, writtenValue v) :: writtenMembers rest

end

/-- Members with text keys as they are written out in an object. -/
def objectOf (ms : List (Text × Value)) : Value :=
  .object (ms.map fun (k, v) => (.text k, writtenValue v))

/-- The names of the fields and their values, in order. -/
def toMembers (c : Config) : Members :=
  [(.text "url_template", .text c.urlTemplate),
    (.text "commands", .list (c.commands.map .text)),
    (.text "symbols", objectOf c.symbols),
    (.text "type_overrides", objectOf (c.typeOverrides.map fun (k, t) => (k, .text t))),
    (.text "preferred_aliases", .list (c.preferredNames.map .text)),
    (.text "wrap_width", .int c.wrapWidth),
    (.text "debug_dir", .text c.debugDir),
    (.text "timeout", .number (.float c.timeout))]

/-- The fields whose members are merged one by one. -/
def mergedFields : List String := ["symbols", "type_overrides"]

open Check

/-- The check of a member; a missing one keeps its standard value. -/
def member {α : Type} (ms : Members) (name : String) (missing : α) (check : Value → Checked α) :
    Checked α :=
  match ms.find? name with
  | none => .ok missing
  | some v => within (.field name) (check v)

/-- The configuration that members describe. Unknown members are ignored. -/
def ofMembers (ms : Members) : Checked Config :=
  let fields :=
    both (member ms "url_template" standard.urlTemplate text)
      (both (member ms "commands" standard.commands texts)
        (both (member ms "symbols" standard.symbols (object fun v => .ok v))
          (both (member ms "type_overrides" standard.typeOverrides (object text))
            (both (member ms "preferred_aliases" standard.preferredNames texts)
              (both (member ms "wrap_width" standard.wrapWidth (integerFrom minimumWidth))
                (both (member ms "debug_dir" standard.debugDir text)
                  (member ms "timeout" standard.timeout positive)))))))
  fields.map fun (urlTemplate, commands, symbols, typeOverrides, preferredNames, wrapWidth,
      debugDir, timeout) =>
    { urlTemplate, commands, symbols, typeOverrides, preferredNames, wrapWidth, debugDir, timeout }

/-- One member laid over others: merged member by member where both are objects and the field is
one of the merged ones, replaced otherwise. -/
def layMember (ms : Members) (k : Key) (v : Value) : Members :=
  match v, ms.get? k with
  | .object new, some (.object old) =>
    if mergedFields.any fun name => k = .text name then
      Members.insert k (.object (Members.insertAll old new)) ms
    else Members.insert k v ms
  | v, _ => Members.insert k v ms

/-- The configuration with members laid over it. -/
def merge (base : Config) (overrides : Members) : Checked Config :=
  ofMembers (overrides.foldl (fun ms (k, v) => layMember ms k v) base.toMembers)

end Config

end OptionTypes
