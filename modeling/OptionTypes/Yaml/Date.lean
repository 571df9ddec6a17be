import OptionTypes.Text.Digit

/-!
# Dates of YAML documents

A date, or a date with a time of day and perhaps a zone. `Date.parse?` reads the form;
`Date.fault?` finds out whether the calendar has it, and `Date.text` writes it down.
-/

namespace OptionTypes.Yaml

/-- The zone of a time of day: universal time, or minutes ahead of it. -/
inductive Zone where
  | universal
  | ahead (minutes : Int)

/-- A time of day. -/
structure Time where
  hour : Nat
  minute : Nat
  second : Nat
  microsecond : Nat
  zone : Option Zone

/-- A date, perhaps with a time of day. `padded` tells whether month and day have two digits. -/
structure Date where
  year : Nat
  month : Nat
  day : Nat
  padded : Bool
  time : Option Time

namespace Date

/-- Reading from characters. -/
abbrev Match := StateT (List Char) Option

/-- Between `least` and `most` digits. -/
def digits (least most : Nat) : Match (List Char) := fun cs =>
  let run := (cs.take most).takeWhile Char.isDigit
  if run.length < least then none else some (run, cs.drop run.length)

/-- Between `least` and `most` digits as a number. -/
def number (least most : Nat) : Match Nat := do return Digit.ofDecimal (← digits least most)

/-- The given character. -/
def mark (c : Char) : Match Unit := fun cs => if cs.head? = some c then some ((), cs.drop 1) else none

/-- Whether a character is a space or a tab. -/
def isGap (c : Char) : Bool := c == ' ' || c == '\t'

/-- Blanks, however many. -/
def gap : Match (List Char) := fun cs => some (cs.takeWhile isGap, cs.dropWhile isGap)

/-- What stands between a date and a time. -/
def separator : Match Unit := do
  match (← get).head? with
  | some 'T' => mark 'T'
  | some 't' => mark 't'
  | _ => if (← gap).isEmpty then failure

/-- The digits after the seconds, as microseconds. -/
def fraction : Match Nat := do
  if (← get).head? = some '.' then
    mark '.'
    let run := (← get).takeWhile Char.isDigit
    set ((← get).drop run.length)
    return Digit.ofDecimal ((run.take 6) ++ List.replicate (6 - run.length) '0')
  else return 0

/-- The zone after a time, if there is one. -/
def zone : Match (Option Zone) := do
  let _ ← gap
  match (← get).head? with
  | some 'Z' =>
    mark 'Z'
    return some .universal
  | some c =>
    if c == '+' || c == '-' then
      mark c
      let hours ← number 1 2
      let minutes ←
        if (← get).head? = some ':' then do
          mark ':'
          number 2 2
        else pure 0
      let ahead : Int := hours * 60 + minutes
      return some (.ahead (if c == '-' then -ahead else ahead))
    else failure
  | none => return none

/-- A time of day. -/
def timeOfDay : Match Time := do
  let hour ← number 1 2
  mark ':'
  let minute ← number 2 2
  mark ':'
  let second ← number 2 2
  let microsecond ← fraction
  let rest ← get
  let zone ← if rest.isEmpty then pure none else zone
  return ⟨hour, minute, second, microsecond, zone⟩

/-- A date up to the end. -/
def whole : Match Date := do
  let year ← number 4 4
  mark '-'
  let month ← digits 1 2
  mark '-'
  let day ← digits 1 2
  let rest ← get
  let time ←
    if rest.isEmpty then pure none
    else do
      separator
      pure (some (← timeOfDay))
  if (← get).isEmpty then
    return ⟨year, Digit.ofDecimal month, Digit.ofDecimal day,
      month.length = 2 && day.length = 2, time⟩
  else failure

/-- The date that characters write. -/
def parse? (cs : List Char) : Option Date := (whole.run cs).map Prod.fst

/-- Whether characters without a tag are a date: without a time it has two digits for month and
day. -/
def isWritten (cs : List Char) : Bool :=
  match parse? cs with
  | some d => d.time.isSome || d.padded
  | none => false

/-- Whether a year has a 29 February. -/
def isLeap (year : Nat) : Bool := year % 4 == 0 && (year % 100 != 0 || year % 400 == 0)

/-- The number of days of a month. -/
def daysOf (year month : Nat) : Nat :=
  if month == 2 then (if isLeap year then 29 else 28)
  else if [4, 6, 9, 11].contains month then 30
  else 31

/-- An interval of minutes as days and seconds. -/
def intervalText (minutes : Int) : String :=
  let days := minutes.fdiv 1440
  let seconds := minutes.fmod 1440 * 60
  let parts := (if days = 0 then [] else ["days=" ++ toString days])
    ++ (if seconds = 0 then [] else ["seconds=" ++ toString seconds])
  "datetime.timedelta(" ++ ", ".intercalate parts ++ ")"

/-- What is wrong with a zone. A zone is less than a day ahead or behind. -/
def zoneFault? : Option Zone → Option String
  | some (.ahead minutes) =>
    if minutes.natAbs < 1440 then none
    else some ("offset must be a timedelta strictly between -timedelta(hours=24) and "
      ++ "timedelta(hours=24), not " ++ intervalText minutes ++ ".")
  | _ => none

/-- What is wrong with a date, if the calendar has none such. -/
def fault? (d : Date) : Option String :=
  match zoneFault? (d.time.bind Time.zone) with
  | some fault => some fault
  | none =>
    if d.year == 0 then some "year 0 is out of range"
    else if d.month == 0 || 12 < d.month then some "month must be in 1..12"
    else if d.day == 0 || daysOf d.year d.month < d.day then some "day is out of range for month"
    else
      match d.time with
      | none => none
      | some t =>
        if 23 < t.hour then some "hour must be in 0..23"
        else if 59 < t.minute then some "minute must be in 0..59"
        else if 59 < t.second then some "second must be in 0..59"
        else none

/-- A number with leading zeros up to a width. -/
def pad (width n : Nat) : String :=
  let s := toString n
  String.ofList (List.replicate (width - s.length) '0') ++ s

/-- The text of a zone. -/
def zoneText : Zone → String
  | .universal => "+00:00"
  | .ahead minutes =>
    let n := minutes.natAbs
    (if minutes < 0 then "-" else "+") ++ pad 2 (n / 60) ++ ":" ++ pad 2 (n % 60)

/-- The text of a date. -/
def text (d : Date) : String :=
  let day := pad 4 d.year ++ "-" ++ pad 2 d.month ++ "-" ++ pad 2 d.day
  match d.time with
  | none => day
  | some t =>
    day ++ " " ++ pad 2 t.hour ++ ":" ++ pad 2 t.minute ++ ":" ++ pad 2 t.second
      ++ (if t.microsecond = 0 then "" else "." ++ pad 6 t.microsecond)
      ++ (t.zone.map zoneText).getD ""

/-- The name of the type of a date. -/
def typeName (d : Date) : String := if d.time.isSome then "datetime" else "date"

end Date

end OptionTypes.Yaml
