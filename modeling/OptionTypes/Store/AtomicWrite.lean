import OptionTypes.Host

/-!
# Writing whole files

A text is written to a file at once or not at all: it goes to a temporary file in the same
directory, which then takes the name of the file. Where anything fails the temporary file is
removed and the file is what it was. Directories on the way are made.
-/

namespace OptionTypes

/-- Why a text is not written. -/
inductive WriteFault where
  | store (e : StoreFault)
  | encoding (e : Utf8.EncodeError)
  deriving DecidableEq

namespace AtomicWrite

variable {m : Type → Type} [Monad m] [Host m]

/-- Make a directory where there is none. -/
def ensureDirectory (p : Path) (made : Except StoreFault Unit) : m (Except StoreFault Unit) := do
  match made with
  | .ok () => return .ok ()
  | .error e => if ← Host.isDirectory p then return .ok () else return .error e

/-- Make a directory and those above it, given by their names, the last one first. -/
def makeAll (root : Text) : List Text → m (Except StoreFault Unit)
  | [] => do
    let p : Path := ⟨root, []⟩
    ensureDirectory p (← Host.makeDirectory p)
  | name :: above => do
    let p : Path := ⟨root, (name :: above).reverse⟩
    match ← Host.makeDirectory p with
    | .error .missing =>
      match ← makeAll root above with
      | .error e => return .error e
      | .ok () => ensureDirectory p (← Host.makeDirectory p)
    | made => ensureDirectory p made

/-- Make a directory and those above it. -/
def makeDirectories (p : Path) : m (Except StoreFault Unit) := makeAll p.root p.names.reverse

/-- Remove a temporary file and report why it was not needed. -/
def abandon (temporary : Path) (e : WriteFault) : m (Except WriteFault Unit) := do
  let _ ← Host.remove temporary
  return .error e

/-- Fill a temporary file and give it its name. -/
def fill (temporary target : Path) (text : Text) : m (Except WriteFault Unit) := do
  match Utf8.encodeText text with
  | .error e => abandon temporary (.encoding e)
  | .ok bytes =>
    match ← Host.writeFile temporary bytes with
    | .error e => abandon temporary (.store e)
    | .ok () =>
      match ← Host.rename temporary target with
      | .error e => abandon temporary (.store e)
      | .ok () => return .ok ()

/-- Write a text to a file, at once or not at all. -/
def write (target : Path) (text : Text) : m (Except WriteFault Unit) := do
  match ← makeDirectories target.parent with
  | .error e => return .error (.store e)
  | .ok () =>
    match ← Host.createTemporary target.parent ("." ++ target.name ++ ".") ".tmp" with
    | .error e => return .error (.store e)
    | .ok temporary => fill temporary target text

end AtomicWrite

end OptionTypes
