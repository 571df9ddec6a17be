import OptionTypes.CommandLine

/-!
# The program

The command line over the files, variables and streams of the machine. Nothing is decided here: each
operation hands one request of a run to the machine and reports what comes of it.

There is no access to a network, so a source has to be given as a file.
-/

namespace OptionTypes.Machine

/-- A text for the machine. -/
def shown (t : Text) : String := t.lossy

/-- A path for the machine. -/
def pathText (p : Path) : String := shown p.toText

/-- The cause of a failure that the machine reports. -/
def faultOf : IO.Error → StoreFault
  | .noFileOrDirectory .. => .missing
  | .alreadyExists .. => .present
  | .inappropriateType .. => .notDirectory
  | _ => .refused

/-- An operation on files and what comes of it. -/
def guarded {α : Type} (x : IO α) : IO (Except StoreFault α) := do
  try return .ok (← x)
  catch e => return .error (faultOf e)

/-- Whether a path leads to a directory, if it leads anywhere. -/
def directory? (p : Path) : IO (Option Bool) := do
  try return some (← (← IO.FS.realPath (pathText p)).isDir)
  catch _ => return none

/-- A variable of the machine. -/
def lookup (name : Text) : IO (Option Text) := do
  return (← IO.getEnv (shown name)).map Text.ofString

/-- The bytes of a file. -/
def read (p : Path) : IO (Except StoreFault Bytes) :=
  guarded do return (← IO.FS.readBinFile (pathText p)).toList

/-- Write the bytes of a file. -/
def writeFile (p : Path) (bytes : Bytes) : IO (Except StoreFault Unit) :=
  guarded (IO.FS.writeBinFile (pathText p) ⟨bytes.toArray⟩)

/-- A new empty file with a name that is not in use. -/
def createTemporary (d : Path) (start stop : Text) : IO (Except StoreFault Path) :=
  guarded do
    let path := d.child (start ++ Text.ofNat (← IO.monoNanosNow) ++ stop)
    let _ ← IO.FS.Handle.mk (pathText path) .writeNew
    return path

/-- Write a text to the stream of results, which is in UTF-8. -/
def writeResult (t : Text) : IO (Except StreamFault Unit) := do
  match Charset.utf8.refused? t with
  | some position => return .error ⟨position⟩
  | none =>
    let stream ← IO.getStdout
    stream.putStr (shown t)
    stream.flush
    return .ok ()

/-- Write a text to the stream of messages. -/
def writeMessage (t : Text) : IO Unit := do
  let stream ← IO.getStderr
  stream.putStr (shown t)
  stream.flush

instance : Host IO where
  lookup := lookup
  directory := do return Path.ofText (Text.ofString (← IO.currentDir).toString)
  home := do return Path.ofText ((← lookup "HOME").getD "/")
  hasDataConvention := return true
  timestamp := do return Text.ofNat (← IO.monoMsNow)
  isTerminal := do (← IO.getStdout).isTty
  isFile p := do return (← directory? p) = some false
  isDirectory p := do return (← directory? p) = some true
  read := read
  makeDirectory p := guarded (IO.FS.createDir (pathText p))
  createTemporary := createTemporary
  writeFile := writeFile
  rename p q := guarded (IO.FS.rename (pathText p) (pathText q))
  remove p := guarded (IO.FS.removeFile (pathText p))
  fetch _ := return .failure "no network"
  writeResult := writeResult
  writeMessage := writeMessage

end OptionTypes.Machine

/-- Do what the arguments ask for and exit with its code. -/
def main (arguments : List String) : IO UInt32 := do
  let code : Nat ← OptionTypes.CommandLine.run (arguments.map OptionTypes.Text.ofString)
  return code.toUInt32
