import OptionTypes.Check

/-!
# Option descriptors

What a command declares about one of its options. A descriptor is checked out of the members of an
object; members that it does not know are kept aside in their order.

The description may be spelled `describe`, `description` or `desc`, and the demand `demandOption`
or `demand_option`. The first spelling that is present counts, whatever its value; a later one is
kept aside.
-/

namespace OptionTypes

/-- Other names of an option. -/
inductive OtherNames where
  | one (name : Text)
  | many (names : List Text)
  deriving DecidableEq

/-- Whether an option must be given: a plain answer, or the message for when it is missing. -/
inductive Demand where
  | plain (b : Bool)
  | message (t : Text)
  deriving DecidableEq

/-- One option as its command declares it. -/
structure Descriptor where
  name : Text
  type : Option Text
  choices : Option (List Value)
  default : Value
  description : Option Text
  otherNames : Option OtherNames
  demand : Demand
  extra : Members

/-- A command and its options in the order of their declaration. A command that is registered
nowhere is not matched and has no options. -/
structure Command where
  name : Text
  options : List (Text × Descriptor)
  matched : Bool

namespace Descriptor

/-- The other names of an option, as a list. -/
def nameList (d : Descriptor) : List Text :=
  match d.otherNames with
  | none => []
  | some (.one name) => [name]
  | some (.many names) => names

/-- Whether the option must be given. An empty message demands nothing. -/
def isMandatory (d : Descriptor) : Bool :=
  match d.demand with
  | .plain b => b
  | .message t => !t.isEmpty

/-- Whether a default other than null is declared. -/
def hasDefault (d : Descriptor) : Bool := !d.default.isNull

/-- The spellings of the description, the preferred one first. -/
def descriptionSpellings : List String := ["describe", "description", "desc"]

/-- The spellings of the demand, the preferred one first. -/
def demandSpellings : List String := ["demandOption", "demand_option"]

/-- The first spelling that is a member, and its value. -/
def spelled? (ms : Members) (spellings : List String) : Option (String × Value) :=
  spellings.findSome? fun (s : String) => (ms.find? (Text.ofString s)).map fun v => (s, v)

open Check

/-- The check of a member under the first spelling present; a missing one is not checked. -/
def member {α : Type} (ms : Members) (spellings : List String) (missing : α)
    (check : Value → Checked α) : Checked α :=
  match spelled? ms spellings with
  | none => .ok missing
  | some (s, v) => within (.field s) (check v)

/-- Other names: null, a text, or a list of texts. -/
def checkOtherNames : Value → Checked (Option OtherNames)
  | .null => .ok none
  | .text t => .ok (some (.one t))
  | v =>
    match texts v with
    | .ok ts => .ok (some (.many ts))
    | .error issues => .error (⟨[.variant .text], .text⟩ :: located (.variant .texts) issues)

/-- A demand: a text, or a truth value. -/
def checkDemand : Value → Checked Demand
  | .text t => .ok (.message t)
  | v =>
    match truth v with
    | .ok b => .ok (.plain b)
    | .error issues => .error (located (.variant .truth) issues ++ [⟨[.variant .text], .text⟩])

/-- The check of the members that no field reads. A key that is no text is an issue. -/
def checkExtra (used : List String) : Members → Checked Members
  | [] => .ok []
  | (k, v) :: rest =>
    match k with
    | .text t =>
      if used.any fun s => t = Text.ofString s then checkExtra used rest
      else (checkExtra used rest).map ((k, v) :: ·)
    | k => andAlso (fun _ ms => ms) (within (.key k) (reject .textKey : Checked Unit))
        (checkExtra used rest)

/-- Whether a key is a text with a lone surrogate. -/
def isUnencodable : Key → Bool
  | .text t => (Text.chars? t).isNone
  | _ => false

/-- The descriptor with a name and the members of an object. -/
def ofMembers (name : Key) (ms : Members) : Checked Descriptor :=
  if ms.any fun (k, _) => isUnencodable k then reject .encodableText
  else
    let used := ["name", "type", "choices", "default", "alias"]
      ++ ((spelled? ms descriptionSpellings).map Prod.fst).toList
      ++ ((spelled? ms demandSpellings).map Prod.fst).toList
    let nameChecked : Checked Text :=
      within (.field "name") (match name with
        | .text t => .ok t
        | _ => reject .text)
    let fields := both nameChecked
      (both (member ms ["type"] none text?)
        (both (member ms ["choices"] none fun
          | .null => .ok none
          | v => (list v).map some)
          (both (member ms descriptionSpellings none text?)
            (both (member ms ["alias"] none checkOtherNames)
              (both (member ms demandSpellings (.plain false) checkDemand)
                (checkExtra used ms))))))
    fields.map fun (name, type, choices, description, otherNames, demand, extra) =>
      { name, type, choices, default := (ms.find? "default").getD .null, description,
        otherNames, demand, extra }

end Descriptor

end OptionTypes
