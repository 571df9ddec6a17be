import OptionTypes.Number.Arithmetic
import OptionTypes.Store.Files
import OptionTypes.Text.Utf8

/-!
# Surroundings of a run

What a run asks of its surroundings: variables, files, one kind of request over the network, and
two streams to write to. A run is written over any monad with these operations; `World` is the
surroundings as data, in which everything a run does can be seen afterwards.

The stream of results has an encoding of its own, which the surroundings choose, and refuses a text
that this encoding has no bytes for. The stream of messages never refuses one: it writes an escape
in place of what it cannot encode. A `World` records texts as they are given to a stream, before
they are encoded. That a stream stops taking bytes at all, as one into a full disk or a closed pipe
does, is not in the model.
-/

namespace OptionTypes

/-- A request for the text at an address. -/
structure Request where
  address : Text
  /-- How many seconds to wait. -/
  timeout : Number

/-- What comes of a request. -/
inductive Response where
  /-- An answer; its reason is the standard one unless it brings one. -/
  | answer (status : Nat) (reason : Option Text) (body : Text)
  /-- No answer, for a cause that is told. -/
  | failure (message : Text)
  /-- No request, since the address is none. -/
  | badAddress (message : Text)

/-- A stream to write to: one for results, one for messages. -/
inductive Stream where
  | results
  | messages
  deriving DecidableEq

/-- What an encoding has bytes for: every ASCII character at least. -/
structure Charset where
  takes : CodePoint → Bool
  ascii : ∀ c : Char, c.toNat < 128 → takes (.char c) = true

namespace Charset

/-- An encoding with bytes for every code point, lone surrogates among them. -/
def all : Charset := ⟨fun _ => true, fun _ _ => rfl⟩

/-- The encoding of characters that has no bytes for a lone surrogate. -/
def utf8 : Charset := ⟨fun c => !c.isSurrogate, fun _ _ => rfl⟩

/-- The position of the first code point that there are no bytes for. -/
def refused? (s : Charset) (t : Text) : Option Nat := t.findIdx? fun c => !s.takes c

end Charset

/-- Why a stream refuses a text: a code point at a position that it has no bytes for. -/
structure StreamFault where
  position : Nat
  deriving DecidableEq

/-- What a run asks of its surroundings. -/
class Host (m : Type → Type) where
  /-- The value of a variable. -/
  lookup : Text → m (Option Text)
  /-- The directory that relative paths start from. -/
  directory : m Path
  /-- The directory of the user. -/
  home : m Path
  /-- Whether the data of programs has a directory of its own by convention. -/
  hasDataConvention : m Bool
  /-- The current time in a form that may stand in a name. -/
  timestamp : m Text
  /-- Whether the stream of results is a terminal. -/
  isTerminal : m Bool
  isFile : Path → m Bool
  isDirectory : Path → m Bool
  read : Path → m (Except StoreFault Bytes)
  makeDirectory : Path → m (Except StoreFault Unit)
  /-- A new empty file in a directory, with a name between the given start and end. -/
  createTemporary : Path → Text → Text → m (Except StoreFault Path)
  writeFile : Path → Bytes → m (Except StoreFault Unit)
  rename : Path → Path → m (Except StoreFault Unit)
  remove : Path → m (Except StoreFault Unit)
  fetch : Request → m Response
  /-- Write to the stream of results: all of the text, or nothing if the stream refuses it. -/
  writeResult : Text → m (Except StreamFault Unit)
  /-- Write to the stream of messages. -/
  writeMessage : Text → m Unit

/-- Surroundings as data. Every request gets the same answer. -/
structure World where
  store : Store
  directory : Location
  home : Path
  environment : List (Text × Text)
  hasDataConvention : Bool
  timestamp : Text
  isTerminal : Bool
  /-- The encoding of the stream of results. -/
  charset : Charset := .all
  response : Response
  /-- The requests that were sent, in order. -/
  requests : List Request
  /-- What was written, in order. -/
  written : List (Stream × Text)

namespace World

/-- The path of a location. -/
def pathOf (at_ : Location) : Path := ⟨[Path.separator], at_⟩

/-- The text that was written to a stream. -/
def output (w : World) (s : Stream) : Text :=
  w.written.flatMap fun (stream, t) => if stream = s then t else []

/-- A change of the store; a failed one changes nothing. -/
def change (f : Store → Location → Except StoreFault Store) :
    StateM World (Except StoreFault Unit) := fun w =>
  match f w.store w.directory with
  | .ok store => (.ok (), { w with store })
  | .error e => (.error e, w)

/-- A new empty file in a directory. -/
def createTemporary (directory : Path) (start stop : Text) :
    StateM World (Except StoreFault Path) := fun w =>
  let path := directory.child (start ++ w.store.freshMark ++ stop)
  match w.store.writeFile w.directory path [] with
  | .ok store => (.ok path, { w with store })
  | .error e => (.error e, w)

/-- Write to a stream. -/
def record (s : Stream) (t : Text) (w : World) : World :=
  { w with written := w.written ++ [(s, t)] }

/-- Write to the stream of results, unless its encoding has no bytes for some code point. -/
def writeResult (t : Text) : StateM World (Except StreamFault Unit) := fun w =>
  match w.charset.refused? t with
  | some position => (.error ⟨position⟩, w)
  | none => (.ok (), w.record .results t)

instance : Host (StateM World) where
  lookup name := do return ((← get).environment.find? fun (n, _) => n = name).map Prod.snd
  directory := do return pathOf (← get).directory
  home := do return (← get).home
  hasDataConvention := do return (← get).hasDataConvention
  timestamp := do return (← get).timestamp
  isTerminal := do return (← get).isTerminal
  isFile p := do return (← get).store.isFile (← get).directory p
  isDirectory p := do return (← get).store.isDirectory (← get).directory p
  read p := do return (← get).store.read (← get).directory p
  makeDirectory p := change fun s d => s.makeDirectory d p
  createTemporary := createTemporary
  writeFile p bytes := change fun s d => s.writeFile d p bytes
  rename p q := change fun s d => s.rename d p q
  remove p := change fun s d => s.remove d p
  fetch r := fun w => (w.response, { w with requests := w.requests ++ [r] })
  writeResult := writeResult
  writeMessage t := modify fun w => w.record .messages t

end World

end OptionTypes
