import EraChronology.Almanac
import EraChronology.CommandLine.Arguments
import EraChronology.CommandLine.Point
import EraChronology.Report.FieldTable
import EraChronology.Report.MonthGrid
import EraChronology.Report.Notation
import EraChronology.Report.RoundTrip
import EraChronology.Report.Transitions

set_option autoImplicit false

/-! # Commands

The commands of the command line. Each reads all its arguments first, so a command line that
is not understood prints nothing. An argument without a value is understood, and ends a command
where the value is needed: what is checked before that may end the command in another way.

A word that asks for help ends the command line before anything is done. It is looked for among the
words of a command before the command itself reads them.
-/

namespace EraChronology.CommandLine

open Command

def arguments (operands : Nat) (options : List (String × Nat)) (words : List String) :
    Command Arguments :=
  orFinish (Arguments.read ⟨operands, options⟩ words)

/-- Ends with the text for help if it is asked for. What is given before is checked first. -/
def answerHelp (args : Arguments) : Command Unit := if args.help then finish .help else pure ()

def calendarName (args : Arguments) : Option String :=
  args.text "--calendar" Almanac.defaultCalendar

/-- The calendar that is asked. The registry has to be set up before the name is needed. -/
def calendarOf (a : Almanac) (args : Arguments) : Command Calendar := do
  let registry ← attempt a.registry?
  let name ← need (calendarName args)
  attempt (registry.calendar? name)

/-! ## Dates -/

/-- The offset of the wall clock for an instant, which is needed once the instant is checked. -/
def offsetAt (c : Calendar) (t : Int) (offset : Option Int) : Command Int := do
  let _ ← attempt (c.table.checkInstant t)
  need offset

def resolveCommand (a : Almanac) (words : List String) : Command Unit := do
  let args ← arguments 1 [("--calendar", 1), ("--offset", 1), ("--attr", 1)] words
  let offset ← orFinish (args.integer "--offset" 0)
  answerHelp args
  let t ← orFinish (readPoint (args.operand 0))
  let c ← calendarOf a args
  let offset ← offsetAt c t offset
  let info ← attempt (c.dayInfo t offset)
  let names := args.texts "--attr"
  let info ← attempt (a.attributes.addTo (names.takeWhile Option.isSome).reduceOption info)
  let _ ← names.mapM need
  line (← attempt info.written)

/-- The date of an era, a year, a month and a day that may lack values. A part without a value
stands in as 0, which no part can be, so it is found missing when it is checked, after all that
is checked before. -/
def dateOfParts (c : Calendar) (era : String) (year month day : Option Int) :
    Except Error EraDate :=
  match c.date? (.name era) (year.getD 0) (month.getD 0) (day.getD 0) 0 with
  | .ok d => .ok d
  | .error e =>
    let missing :=
      match e with
      | .date (.year ..) => year.isNone
      | .date (.month ..) => month.isNone
      | .date (.day ..) => day.isNone
      | _ => false
    .error (if missing then .missingValue else e)

def instantCommand (a : Almanac) (words : List String) : Command Unit := do
  let args ← arguments 4 [("--calendar", 1), ("--offset", 1)] words
  let year ← orFinish (args.integerOperand 1)
  let month ← orFinish (args.integerOperand 2)
  let day ← orFinish (args.integerOperand 3)
  let offset ← orFinish (args.integer "--offset" 0)
  answerHelp args
  let c ← calendarOf a args
  let d ← attempt (dateOfParts c (args.operand 0) year month day)
  let home ← attempt (a.calendarFor d none)
  let wallClock ← attempt (home.wallClock? d)
  let offset ← need offset
  let t ← attempt (home.table.checkInstant (wallClock - offset))
  line (← attempt (writing [t] (toString t)))

/-- The calendar that is asked. With settings for weeks it is made anew from the built-in
specification of its name. -/
def calendarWithWeeks (a : Almanac) (args : Arguments)
    (firstDay minimalDays : Option (Option Int)) : Command Calendar :=
  if firstDay.isNone ∧ minimalDays.isNone then calendarOf a args
  else do
    let name ← need (calendarName args)
    match Spec.builtIn? name with
    | some spec =>
      let firstDay ← need (firstDay.getD (some spec.firstDayOfWeek))
      let minimalDays ← need (minimalDays.getD (some spec.minimalDays))
      attempt (Calendar.ofSpec? { spec with firstDayOfWeek := firstDay, minimalDays })
    | none =>
      finish (.complaint ("Week overrides need a built-in calendar. Available: " ++
        Text.quotedList Spec.builtInNames))

def fieldArgument : Option String → Except Ending (Option Field)
  | none => .ok none
  | some name =>
    match Field.ofName? name with
    | some f => .ok (some f)
    | none => .error .usage

def boundsCommand (a : Almanac) (words : List String) : Command Unit := do
  let args ← arguments 1
    [("--calendar", 1), ("--offset", 1), ("--field", 1), ("--first-day-of-week", 1),
     ("--min-days", 1)] words
  let offset ← orFinish (args.integer "--offset" 0)
  let fields ← orFinish ((args.texts "--field").mapM fieldArgument)
  let firstDay ← orFinish (args.oneToSeven? "--first-day-of-week")
  let minimalDays ← orFinish (args.oneToSeven? "--min-days")
  answerHelp args
  let c ← calendarWithWeeks a args firstDay minimalDays
  let t ← orFinish (readPoint (args.operand 0))
  let offset ← offsetAt c t offset
  let d ← attempt (c.resolve t offset)
  line (← attempt (FieldTable.title d))
  line FieldTable.heading
  for f in (if fields.isEmpty then Field.all.map some else fields) do
    let f ← need f
    line (← attempt (FieldTable.lineOf c d f))

/-! ## Calendars -/

def erasCommand (a : Almanac) (words : List String) : Command Unit := do
  let args ← arguments 0 [("--calendar", 1)] words
  answerHelp args
  let c ← calendarOf a args
  for e in c.table.eras do
    line (← attempt (c.table.line e))

def transitionsCommand (a : Almanac) (words : List String) : Command Unit := do
  let args ← arguments 0 [("--calendar", 1)] words
  answerHelp args
  let c ← calendarOf a args
  line Transitions.heading
  line Transitions.rule
  for (old, new) in Transitions.pairs c.table do
    line (← attempt (Transitions.line c old new))
  let last ← attempt (Transitions.openLine c)
  lines ["", last]

/-- Prints the grid of a Gregorian month in the calendar of a name. -/
def printMonth (a : Almanac) (name : String) (y m : Int) : Command Unit := do
  let c ← attempt (a.calendar? name)
  let grid ← attempt (MonthGrid.ofMonth c y m)
  let title ← attempt (MonthGrid.title name y m)
  lines (grid.lines title)

/-- Prints the grid of a Gregorian month, January 1989 unless another one is named. -/
def monthCommand (a : Almanac) (words : List String) : Command Unit := do
  let args ← arguments 0 [("--calendar", 1), ("--greg", 2)] words
  let month ← orFinish (args.integers? "--greg")
  answerHelp args
  let (y, m) :=
    match month with
    | some [some y, some m] => (y, m)
    | _ => (1989, 1)
  let _ ← attempt a.registry?
  let name ← need (calendarName args)
  printMonth a name y m

/-! ## Diagnostics -/

/-- The names in a list that is separated by commas. Blanks around the names and empty names
are dropped. -/
def calendarList (s : String) : List String :=
  (((Text.splitOn ',' s.toList).map Text.trim).filter fun name => name ≠ []).map String.ofList

def calendarNames : Option String → Except Error (List String)
  | some s => .ok (calendarList s)
  | none => .error .missingNames

/-- Refuses years that end before they start. With neither end given a value there is nothing to
refuse. -/
def requireOrdered (start stop : Option Int) : Command Unit := do
  if start.isSome ∨ stop.isSome then
    let stop ← need stop
    let start ← need start
    if stop < start then finish (.complaint "--end-year must be >= --start-year")

def roundTripCommand (a : Almanac) (words : List String) : Command Unit := do
  let args ← arguments 0
    [("--calendars", 1), ("--N", 1), ("--start-year", 1), ("--end-year", 1), ("--seed", 1),
     ("--max-failures", 1)] words
  let count ← orFinish (args.integer "--N" 2000)
  let start ← orFinish (args.integer "--start-year" 1800)
  let stop ← orFinish (args.integer "--end-year" 2200)
  let seed ← orFinish (args.integer "--seed" 123)
  let limit ← orFinish (args.integer "--max-failures" 5)
  answerHelp args
  requireOrdered start stop
  let names ← attempt (calendarNames (args.text "--calendars" "japanese,gregorian"))
  let mut total := 0
  for name in names do
    line s!"Testing {name} ..."
    let _ ← need seed
    let c ← attempt (a.calendar? name)
    let start ← need start
    let stop ← need stop
    let count ← need count
    let found ← attempt (RoundTrip.failures c (limit.getD 1) start stop count.toNat)
    if 0 < found then let _ ← need limit
    total := total + found
  if total = 0 then line "All round-trip tests passed."
  else
    line s!"Round-trip failures: {total}"
    finish (.exit 1)

/-! ## The command line -/

/-- The first plain word, and the words without it. Options before it are kept, but for one that
asks for help. -/
def leadingWord : List String → Except Ending (String × List String)
  | [] => .error .usage
  | w :: rest =>
    if w = "--" then .error .usage
    else
      match classify ["--help"] w with
      | .plain => .ok (w, rest)
      | .option "--help" none => .error .help
      | .option "--help" (some _) => .error .usage
      | _ => (leadingWord rest).map fun (word, others) => (word, w :: others)

/-- The first plain word, and the words without it, where one `--` next to the word may mark it
as plain and is dropped. Whether one did, is given as well. -/
def markedWord : List String → Except Ending (String × Bool × List String)
  | [] => .error .usage
  | "--" :: w :: rest => .ok (w, true, rest)
  | w :: rest =>
    if w = "--" then .error .usage
    else
      match classify ["--help"] w with
      | .plain =>
        match rest with
        | "--" :: rest => .ok (w, true, rest)
        | _ => .ok (w, false, rest)
      | .option "--help" none => .error .help
      | .option "--help" (some _) => .error .usage
      | _ => (markedWord rest).map fun (word, marked, others) => (word, marked, w :: others)

/-- Runs a command unless its words ask for help. -/
def unlessHelp (command : List String → Command Unit) (words : List String) : Command Unit := do
  orFinish (lookForHelp words)
  command words

/-- A tool for diagnostics. Plots are not drawn here. After a marked word every word is plain, so
nothing asks for help before the tool itself reads the words. -/
def diagnosticCommand (a : Almanac) (words : List String) : Command Unit := do
  let (tool, marked, rest) ← orFinish (markedWord words)
  let run (command : List String → Command Unit) :=
    if marked then command rest else unlessHelp command rest
  match tool with
  | "round-trip" => run (roundTripCommand a)
  | "span-plot" => run fun _ => finish (.complaint "span-plot needs a plotting library")
  | _ => finish .usage

/-- The command that a command line names. -/
def dispatch (a : Almanac) (words : List String) : Command Unit := do
  let (command, rest) ← orFinish (leadingWord words)
  match command with
  | "resolve" => unlessHelp (resolveCommand a) rest
  | "instant" => unlessHelp (instantCommand a) rest
  | "bounds" => unlessHelp (boundsCommand a) rest
  | "eras" => unlessHelp (erasCommand a) rest
  | "month" => unlessHelp (monthCommand a) rest
  | "era-table" => unlessHelp (transitionsCommand a) rest
  | "diag" => diagnosticCommand a rest
  | _ => finish .usage

/-- Runs a command line. One that starts with a date resolves it. -/
def run (a : Almanac) (words : List String) : Outcome :=
  let startsWithDate := (words.head?.map isWrittenDate).getD false
  Command.run (dispatch a (if startsWithDate then "resolve" :: words else words))

end EraChronology.CommandLine
