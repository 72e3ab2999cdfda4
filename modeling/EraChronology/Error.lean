import EraChronology.Text.Columns
import EraChronology.Text.Numeral
import EraChronology.Text.Quoted

set_option autoImplicit false

/-! # Errors

What can go wrong, by cause, and the wording of each cause. The causes fall into families: a
malformed era table, a date that does not exist, an era that is not known, a moment outside
the representable range, an unacceptable input, a name nothing is registered under. The four
families `table`, `date`, `era` and `range` are about the calendar itself.

Numbers of more than `Text.digitLimit` digits are not written. A text that would show one is an
error of its own, and so is the wording of another error: what is reported in its place is
`Error.reported`.
-/

namespace EraChronology

/-- Why a list of era definitions is no era table. -/
inductive TableFault where
  /-- The list is empty. -/
  | noEras
  /-- Two eras have the same name. -/
  | duplicateName (name : String)
  /-- An era other than the first has no start. -/
  | lateUnbounded (name : String)
  /-- The era starts in the middle of a day. -/
  | notAtMidnight (name : String) (since : Int)
  /-- The era does not start after the one before it. -/
  | notAfter (name : String) (since : Int) (previous : String) (previousSince : Int)
  /-- The era starts below the floor or above the ceiling. -/
  | outsideBound (name : String) (since : Int)
  /-- The stated first year is not the year the era starts in. -/
  | wrongOrigin (name : String) (stated actual : Int)
deriving DecidableEq

/-- Why an era, a year, a month and a day name no date. -/
inductive DateFault where
  | year (era : String) (year : Int)
  | month (era : String) (year month : Int)
  /-- The month has only `length` days. -/
  | day (era : String) (year month day length : Int)
  | beforeEra (era : String) (year month day : Int)
  | afterEra (era : String) (year month day : Int)
  | timeOfDay (millis : Int)
deriving DecidableEq

/-- Why no era is meant. -/
inductive EraFault where
  | unknown (name : String) (available : List String)
  /-- The calendar has an era of this name, but another one. -/
  | foreign (era calendar : String)
  | index (index : Int) (calendar : String)
deriving DecidableEq

/-- How the representable range is left. -/
inductive RangeFault where
  | day (era : String) (year month day : Int)
  | instant (instant lowest highest : Int)
  /-- The wall clock shows a day before year 1 of the first era. -/
  | beforeYearOne (instant offset : Int) (era : String)
deriving DecidableEq

/-- Why an input is not acceptable. -/
inductive InputFault where
  | emptyEraName
  | floorNotBelowCeiling
  | firstDayOfWeek
  | minimalDays
  | unknownField (name : String) (available : List String)
  | fieldNotSettable (name : String)
  | civilYear (year : Int)
  | civilMonth
  | civilDay
  | malformedItem (item : String)
  | unknownKeys (keys : List String)
  | nameAndStart
  | longNumeral (digits : Nat)
  /-- A number has more digits than are written. -/
  | longNumber
deriving DecidableEq

/-- Which registered thing is missing, or already there. -/
inductive LookupFault where
  | calendar (name : String) (available : List String)
  | calendarTaken (name : String)
  | attribute (name : String) (available : List String)
deriving DecidableEq

/-- What can go wrong. -/
inductive Error where
  | table (fault : TableFault)
  | date (fault : DateFault)
  | era (fault : EraFault)
  | range (fault : RangeFault)
  | input (fault : InputFault)
  | lookup (fault : LookupFault)
  /-- No registry of calendars has been set up. -/
  | noRegistry
  /-- A month or an era is asked for by a position its table does not have. -/
  | position
  /-- The last year is asked of an era that is closed, but by an era without a start. -/
  | noEnd
  /-- A part of a civil date does not fit into 32 bits, or a width not into 64. -/
  | wordSize
  /-- A number is too large for a chart. -/
  | chartSize
  /-- A value is needed where none was given. -/
  | missingValue
  /-- A list of names is needed where none was given. -/
  | missingNames
deriving DecidableEq

def TableFault.message : TableFault → String
  | .noEras => "era table must contain at least one era"
  | .duplicateName name => s!"Duplicate era name '{name}'"
  | .lateUnbounded name => s!"Era '{name}': only the first era may start in the unbounded past"
  | .notAtMidnight name since => s!"Era '{name}': since={since} is not at a day boundary"
  | .notAfter name since previous previousSince =>
    s!"Era '{name}' (since={since}) does not start after '{previous}' (since={previousSince})"
  | .outsideBound name since => s!"Era '{name}': since={since} outside representable range"
  | .wrongOrigin name stated actual =>
    s!"Era '{name}': year_origin={stated} but the era starts in year {actual}"

def dateText (era : String) (year month day : Int) : String :=
  s!"{era} {year}-{Text.zeroPad 2 month}-{Text.zeroPad 2 day}"

def DateFault.message : DateFault → String
  | .year era y => s!"{era} {y}: era years start at 1"
  | .month era y m => s!"{era} {y}: month {m} not in 1..12"
  | .day era y m d length =>
    s!"{era} {y}-{Text.zeroPad 2 m}: day {d} not in 1..{length}"
  | .beforeEra era y m d => s!"{dateText era y m d} precedes the start of {era}"
  | .afterEra era y m d => s!"{dateText era y m d} is after the end of {era}"
  | .timeOfDay millis => s!"time of day {millis} ms not in 0..86399999"

def EraFault.message : EraFault → String
  | .unknown name available => s!"Unknown era '{name}'. Available: {Text.quotedList available}"
  | .foreign era calendar => s!"Era '{era}' does not belong to calendar '{calendar}'"
  | .index i calendar => s!"No era with index {i} in calendar '{calendar}'"

def RangeFault.message : RangeFault → String
  | .day era y m d => s!"{dateText era y m d} is not representable"
  | .instant t lowest highest =>
    s!"Instant {t} outside representable range [{lowest}, {highest}]"
  | .beforeYearOne t offset era =>
    s!"Instant {t} at offset {offset} precedes year 1 of {era}"

def InputFault.message : InputFault → String
  | .emptyEraName => "era name must be non-empty"
  | .floorNotBelowCeiling => "floor must be below ceiling"
  | .firstDayOfWeek => "first_day_of_week must be in 1..7"
  | .minimalDays => "minimal_days_in_first_week must be in 1..7"
  | .unknownField name available =>
    s!"Unknown field '{name}'. Available: {Text.quotedList available}"
  | .fieldNotSettable name => s!"Field '{name}' cannot be set directly"
  | .civilYear year => s!"year {year} is out of range"
  | .civilMonth => "month must be in 1..12"
  | .civilDay => "day is out of range for month"
  | .malformedItem item => s!"malformed item '{item}'"
  | .unknownKeys keys => s!"unknown keys {Text.quotedList keys}"
  | .nameAndStart => "both name and a numeric since are required"
  | .longNumeral digits =>
    "Exceeds the limit (4300 digits) for integer string conversion: value has " ++
      s!"{digits} digits; use sys.set_int_max_str_digits() to increase the limit"
  | .longNumber =>
    "Exceeds the limit (4300 digits) for integer string conversion; " ++
      "use sys.set_int_max_str_digits() to increase the limit"

def LookupFault.message : LookupFault → String
  | .calendar name available =>
    s!"Unknown calendar '{name}'. Available: {Text.quotedList available}"
  | .calendarTaken name =>
    s!"Calendar '{name}' already exists. Use overwrite=True to replace."
  | .attribute name available =>
    s!"Unknown attribute '{name}'. Available: {Text.quotedList available}"

namespace Error

/-- The wording of an error, if it has one. -/
def message? : Error → Option String
  | .table fault => some fault.message
  | .date fault => some fault.message
  | .era fault => some fault.message
  | .range fault => some fault.message
  | .input fault => some fault.message
  | .lookup fault => some fault.message
  | .noRegistry => some "Calendar registry not initialized"
  | .position => none
  | .noEnd => none
  | .wordSize => none
  | .chartSize => none
  | .missingValue => none
  | .missingNames => none

/-- An error about eras, dates or the representable range. -/
def isCalendrical : Error → Bool
  | .table _ => true
  | .date _ => true
  | .era _ => true
  | .range _ => true
  | _ => false

end Error

/-! ## Numbers that are too long -/

def TableFault.numbers : TableFault → List Int
  | .notAtMidnight _ since => [since]
  | .notAfter _ since _ previousSince => [since, previousSince]
  | .outsideBound _ since => [since]
  | .wrongOrigin _ stated actual => [stated, actual]
  | _ => []

def DateFault.numbers : DateFault → List Int
  | .year _ y => [y]
  | .month _ y m => [y, m]
  | .day _ y m d length => [y, m, d, length]
  | .beforeEra _ y m d => [y, m, d]
  | .afterEra _ y m d => [y, m, d]
  | .timeOfDay millis => [millis]

def EraFault.numbers : EraFault → List Int
  | .index i _ => [i]
  | _ => []

def RangeFault.numbers : RangeFault → List Int
  | .day _ y m d => [y, m, d]
  | .instant t lowest highest => [t, lowest, highest]
  | .beforeYearOne t offset _ => [t, offset]

def InputFault.numbers : InputFault → List Int
  | .civilYear y => [y]
  | .longNumeral digits => [(digits : Int)]
  | _ => []

/-- The numbers in the wording of an error. -/
def Error.numbers : Error → List Int
  | .table fault => fault.numbers
  | .date fault => fault.numbers
  | .era fault => fault.numbers
  | .range fault => fault.numbers
  | .input fault => fault.numbers
  | _ => []

/-- The error that is reported for an error: itself, unless its wording has a number that is too
long to be written. -/
def Error.reported (e : Error) : Error :=
  if e.numbers.all Text.isWritable then e else .input .longNumber

/-- An error is reported in its own words exactly when every number in them can be written. -/
theorem Error.reported_eq_ite (e : Error) :
    e.reported =
      if ∀ k ∈ e.numbers, Text.isWritable k = true then e else .input .longNumber := by
  unfold Error.reported
  simp only [List.all_eq_true]

/-- Refuses numbers that are too long to be written. -/
def requireWritable (numbers : List Int) : Except Error Unit :=
  if numbers.all Text.isWritable then .ok () else .error (.input .longNumber)

/-- A text with numbers in it, which must all be short enough to be written. -/
def writing (numbers : List Int) (text : String) : Except Error String :=
  (requireWritable numbers).map fun _ => text

end EraChronology
