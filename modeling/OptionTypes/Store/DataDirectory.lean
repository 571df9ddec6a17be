import OptionTypes.Store.AtomicWrite

/-!
# The directory for data

Where a program keeps what outlives a run: below the directory that a variable names, or below a
customary place in the directory of the user. Where there is no such custom, the program has a
hidden directory of its own.
-/

namespace OptionTypes.DataDirectory

/-- The name under which the program is known. -/
def program : Text := "web-ext-types"

/-- The variable that names the directory for the data of all programs. -/
def dataVariable : Text := "XDG_DATA_HOME"

/-- The path of the directory, given the directory of the user and the value of the variable. -/
def pathOf (conventional : Bool) (home : Path) (named : Option Text) : Path :=
  if !conventional then home.child ("." ++ program)
  else
    match named with
    | some t =>
      if t.isEmpty then (customary home).child program else (Path.ofText t).child program
    | none => (customary home).child program
where
  /-- The customary place for the data of all programs. -/
  customary (home : Path) : Path := (home.child ".local").child "share"

variable {m : Type → Type} [Monad m] [Host m]

/-- The path of the directory. -/
def path : m Path := do
  return pathOf (← Host.hasDataConvention) (← Host.home) (← Host.lookup dataVariable)

/-- The path of the directory, which is made if it is missing. -/
def ensure : m (Except StoreFault Path) := do
  let p ← path
  return (← AtomicWrite.makeDirectories p).map fun () => p

end OptionTypes.DataDirectory
