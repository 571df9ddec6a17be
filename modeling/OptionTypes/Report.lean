import OptionTypes.Host
import OptionTypes.Json.Writer
import OptionTypes.Terminal.Table
import OptionTypes.Text.Case

/-!
# Reports

What a run tells: results, such as declarations and tables, and messages about its progress.
Results and messages go to streams of their own, so that results can be taken elsewhere.

* `Report.Settings` says how a run reports; `Report.settings` reads them off the flags of the run
  and its surroundings.
* `Settings.message?`, `Settings.data` and `Settings.table` are the texts; they are pure. A table is
  written in pieces, which `Settings.pieces` lists: a plain one line by line, any other at once.
* `Report.tell` and `Report.present` write them. A result that the stream refuses is a failure of
  the run, and the pieces before it have been written.
-/

namespace OptionTypes.Report

/-- How tables are laid out. -/
inductive Form where
  /-- A list of objects. -/
  | json
  /-- One row per line, with tabs between cells. -/
  | plain
  /-- A frame of lines. -/
  | drawn
  deriving DecidableEq

/-- What a run is asked for. Without a form the surroundings decide. -/
structure Flags where
  form : Option Form
  noColour : Bool
  quiet : Bool
  verbose : Bool

/-- How a run reports. -/
structure Settings where
  form : Form
  /-- Whether colours are wanted. Messages are then broken into lines that fit the terminal. -/
  coloured : Bool
  quiet : Bool
  verbose : Bool
  /-- Whether results go to a terminal. -/
  interactive : Bool
  /-- Whether the terminal knows no styles. -/
  bare : Bool
  /-- The number of cells in a line of the terminal. -/
  width : Nat

/-- The kinds of messages. -/
inductive Notice where
  | info
  | success
  | warning
  | error
  | suggestion
  | detail
  | progress
  deriving DecidableEq

/-! ## Texts -/

namespace Settings

/-- Whether messages of a kind are told. Warnings and errors always are. -/
def tells (s : Settings) : Notice → Bool
  | .info => !s.quiet
  | .success => !s.quiet
  | .warning => true
  | .error => true
  | .suggestion => !s.quiet
  | .detail => s.verbose
  | .progress => !s.quiet && s.interactive

/-- What stands before a message of a kind. -/
def label : Notice → Text
  | .warning => "Warning: "
  | .error => "Error: "
  | .suggestion => "→ "
  | .detail => "[debug] "
  | .info => []
  | .success => []
  | .progress => []

/-- Whether messages of a kind are written with tags. -/
def isTagged : Notice → Bool
  | .warning => true
  | .error => true
  | _ => false

/-- A message with what stands before it, as a terminal shows it. -/
def shown (n : Notice) (message : Text) : Text :=
  label n ++ (if isTagged n then Markup.shown (Markup.escape message) else message)

/-- The text of a message, if it is told. -/
def message? (s : Settings) (n : Notice) (message : Text) : Option Text :=
  if !s.tells n then none
  else if !s.coloured then some (label n ++ message ++ "\n")
  else some (Text.join "\n" (Lines.wrap s.width .fold (shown n message)) ++ "\n")

/-- The text of a result: the text itself, with a line end after it if it has none. -/
def data (t : Text) : Text := if t.endsWith "\n" then t else t ++ "\n"

/-- The rows of a table as objects, by header. Of two cells under one header the last one counts,
and cells without a header are left out. -/
def records (headers : List Text) (rows : List (List Text)) : Value :=
  .list (rows.map fun row =>
    .object (Members.insertAll []
      ((headers.zip row).map fun (header, cell) => (.text header, .text cell))))

/-- The rows of a table with tabs between their cells, a line for each. -/
def tabbed (headers : List Text) (rows : List (List Text)) : List Text :=
  (headers :: rows).map fun row => data (Text.join "\t" row)

/-- What tables are drawn for. -/
def look (s : Settings) : Table.Look :=
  ⟨if s.bare then 80 else s.width, !s.bare, s.coloured⟩

/-- The texts of a table that are written one after the other. -/
def pieces (s : Settings) (headers : List Text) (rows : List (List Text)) (title : Option Text) :
    Except Json.WriteError (List Text) :=
  match s.form with
  | .json => (Json.write .indented (records headers rows)).map fun t => [data t]
  | .plain => .ok (tabbed headers rows)
  | .drawn => .ok [Table.draw s.look headers rows title]

/-- The text of a table. -/
def table (s : Settings) (headers : List Text) (rows : List (List Text)) (title : Option Text) :
    Except Json.WriteError Text :=
  (s.pieces headers rows title).map List.flatten

end Settings

/-! ## Settings of a run -/

/-- The width of a terminal that does not tell its own. -/
def standardWidth : Nat := 80

/-- The width that a variable gives: a number in digits. -/
def widthOf (columns : Option Text) : Nat :=
  match columns with
  | some t =>
    if t.isEmpty || !t.all (·.is Char.isDigit) then standardWidth
    else Digit.ofDecimal ((Text.chars? t).getD [])
  | none => standardWidth

/-- The kinds of terminals that know no styles. -/
def bareKinds : List Text := [("dumb" : Text), ("unknown" : Text)]

/-- How a run reports, by its flags, the three variables of the terminal, and whether its results
go to one. Colours are off where the first variable is set or the terminal has a dumb kind; tables
are drawn for a terminal with colours. -/
def Flags.settings (f : Flags) (noColour kind columns : Option Text) (interactive : Bool) :
    Settings :=
  let bare := bareKinds.contains (Case.lower (kind.getD []))
  let coloured := !f.noColour && noColour.isNone && kind ≠ some "dumb"
  { form := f.form.getD (if interactive && coloured then .drawn else .plain)
    coloured
    quiet := f.quiet
    verbose := f.verbose
    interactive
    bare
    width := widthOf columns }

variable {m : Type → Type} [Monad m] [Host m]

/-- How a run with given flags reports. -/
def settings (f : Flags) : m Settings := do
  return f.settings (← Host.lookup "NO_COLOR") (← Host.lookup "TERM") (← Host.lookup "COLUMNS")
    (← Host.isTerminal)

/-! ## Writing -/

/-- Write a message, if it is told. -/
def tell (s : Settings) (n : Notice) (message : Text) : m Unit := do
  match s.message? n message with
  | some t => Host.writeMessage t
  | none => return ()

/-- Write the pieces of a result one after the other, up to the first that is refused. -/
def present : List Text → m (Except StreamFault Unit)
  | [] => return .ok ()
  | t :: ts => do
    match ← Host.writeResult t with
    | .ok () => present ts
    | .error e => return .error e

end OptionTypes.Report
