import OptionTypes.Store.Fault
import OptionTypes.Store.Path
import OptionTypes.Text.Utf8

/-!
# Files as data

A store maps locations to files and directories. A location is the list of names from the root,
which is always a directory. What an operation does to a store is a function here, so that the
effects of a whole run can be reasoned about.

* `Store.find?` is the view of a store; `Store.fileAt?` is its restriction to files.
* `Store.locate` follows a path from a directory to a location.
-/

namespace OptionTypes

/-- The names from the root to a file or a directory. -/
abbrev Location := List Text

/-- What stands at a location. -/
inductive Entry where
  | file (bytes : Bytes)
  | directory
  deriving DecidableEq

/-- Files and directories. -/
structure Store where
  entries : List (Location × Entry)

namespace Store

/-- The store without files. -/
def empty : Store := ⟨[]⟩

/-- What stands at a location. -/
def find? (s : Store) (at_ : Location) : Option Entry :=
  if at_ = [] then some .directory
  else (s.entries.find? fun (l, _) => l = at_).map Prod.snd

/-- The bytes of the file at a location. -/
def fileAt? (s : Store) (at_ : Location) : Option Bytes :=
  match s.find? at_ with
  | some (.file bytes) => some bytes
  | _ => none

/-- The store with something put at a location. -/
def put (at_ : Location) (e : Entry) (s : Store) : Store :=
  ⟨s.entries.filter (fun (l, _) => l ≠ at_) ++ [(at_, e)]⟩

/-- The store with nothing at a location. -/
def erase (at_ : Location) (s : Store) : Store := ⟨s.entries.filter fun (l, _) => l ≠ at_⟩

/-- The location that names lead to from another one. Every name but the last has to be that of a
directory. -/
def follow (s : Store) (at_ : Location) : List Text → Except StoreFault Location
  | [] => .ok at_
  | name :: rest =>
    match s.find? at_ with
    | none => .error .missing
    | some (.file _) => .error .notDirectory
    | some .directory =>
      follow s (if name = Path.above then at_.dropLast else at_ ++ [name]) rest

/-- The location that a path leads to from a directory. -/
def locate (s : Store) (directory : Location) (p : Path) : Except StoreFault Location :=
  s.follow (if p.root.isEmpty then directory else []) p.names

/-- What a path leads to from a directory. -/
def lookup? (s : Store) (directory : Location) (p : Path) : Option Entry :=
  match s.locate directory p with
  | .ok at_ => s.find? at_
  | .error _ => none

/-- Whether a path leads to a file. -/
def isFile (s : Store) (directory : Location) (p : Path) : Bool :=
  match s.lookup? directory p with
  | some (.file _) => true
  | _ => false

/-- Whether a path leads to a directory. -/
def isDirectory (s : Store) (directory : Location) (p : Path) : Bool :=
  s.lookup? directory p = some .directory

/-- The bytes of the file that a path leads to. -/
def read (s : Store) (directory : Location) (p : Path) : Except StoreFault Bytes := do
  match s.find? (← s.locate directory p) with
  | some (.file bytes) => return bytes
  | some .directory => .error .isDirectory
  | none => .error .missing

/-- The store with a new directory. -/
def makeDirectory (s : Store) (directory : Location) (p : Path) : Except StoreFault Store := do
  let at_ ← s.locate directory p
  if (s.find? at_).isSome then .error .present else return s.put at_ .directory

/-- The store with the bytes of a file replaced. -/
def writeFile (s : Store) (directory : Location) (p : Path) (bytes : Bytes) :
    Except StoreFault Store := do
  let at_ ← s.locate directory p
  if s.find? at_ = some .directory then .error .isDirectory else return s.put at_ (.file bytes)

/-- The store without a file. -/
def remove (s : Store) (directory : Location) (p : Path) : Except StoreFault Store := do
  let at_ ← s.locate directory p
  match s.find? at_ with
  | some (.file _) => return s.erase at_
  | some .directory => .error .isDirectory
  | none => .error .missing

/-- Whether the last name of a path can be given to a file. -/
def isNameable (p : Path) : Bool := !p.name.isEmpty && p.name ≠ Path.above

/-- The store with a file moved, over another file if there is one. -/
def rename (s : Store) (directory : Location) (p q : Path) : Except StoreFault Store := do
  let source ← s.locate directory p
  let target ← s.locate directory q
  if !isNameable q then .error .refused
  else
    match s.find? source with
    | some (.file bytes) =>
      if s.find? target = some .directory then .error .isDirectory
      else return (s.erase source).put target (.file bytes)
    | some .directory => .error .isDirectory
    | none => .error .missing

/-- The length of the longest name in a store. -/
def longestName (s : Store) : Nat :=
  (s.entries.flatMap fun (l, _) => l.map List.length).foldl max 0

/-- A piece of text that is longer than every name in a store. -/
def freshMark (s : Store) : Text := List.replicate (s.longestName + 1) (.char '_')

end Store

end OptionTypes
