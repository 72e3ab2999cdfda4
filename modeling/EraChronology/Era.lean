import EraChronology.Error
import EraChronology.Gregorian
import EraChronology.Instant

set_option autoImplicit false

/-! # Eras and era dates

An era names a stretch of time and numbers the Gregorian years in it from 1. The leap rule
and the months are Gregorian in every era: year `n` of an era is the Gregorian year
`yearOrigin + n - 1`.

Eras and era dates are plain data, and nothing here checks them. Whether an era belongs to a
table and a date exists is for the calendar to say.
-/

namespace EraChronology

structure CalendarId where
  family : String
  name : String
  version : String
deriving DecidableEq

/-- A row of an era table. -/
structure Era where
  name : String
  /-- A short name, or the empty text. -/
  abbr : String
  /-- The position in the table, from 0. -/
  index : Int
  /-- The first instant, or none for an era that reaches into the unbounded past. -/
  since : Option Int
  /-- The Gregorian year that is year 1 of the era. -/
  yearOrigin : Int
  /-- An open era has no end. -/
  isOpen : Bool
deriving DecidableEq

namespace Era

/-- An era that reaches into the unbounded past. -/
def isProleptic (e : Era) : Bool := e.since.isNone

/-- The first day of year 1. -/
def firstDay (e : Era) : Int :=
  match e.since with
  | none => Gregorian.dayNumber e.yearOrigin 1 1
  | some t => dayOfInstant t

def absoluteYear (e : Era) (n : Int) : Int := e.yearOrigin + n - 1

def eraYear (e : Era) (y : Int) : Int := y - e.yearOrigin + 1

/-- The short name, or the name of an era without one. -/
def tag (e : Era) : String := if e.abbr.isEmpty then e.name else e.abbr

end Era

/-- A date of a calendar: a day by era, year, month and day of the month, and the time of day
in milliseconds. -/
structure EraDate where
  calendar : CalendarId
  era : Era
  year : Int
  month : Int
  day : Int
  millis : Int
deriving DecidableEq

namespace EraDate

def absoluteYear (d : EraDate) : Int := d.era.absoluteYear d.year

def dayNumber (d : EraDate) : Int := Gregorian.dayNumber d.absoluteYear d.month d.day

/-- The day of the year, counted from 1 January, or from the first day of the era in the
era's year 1. -/
def dayOfYear (d : EraDate) : Int :=
  let newYear := Gregorian.dayNumber d.absoluteYear 1 1
  let first := if d.year = 1 then max newYear d.era.firstDay else newYear
  d.dayNumber - first + 1

/-- The day of the week, 1 for Sunday to 7 for Saturday. -/
def dayOfWeek (d : EraDate) : Int := Gregorian.dayOfWeek d.dayNumber

/-- 1 for the first seven days of the month, 2 for the next seven, and so on. -/
def dayOfWeekInMonth (d : EraDate) : Int := Gregorian.sevenDayStep d.day

/-- The instant on the wall clock. -/
def localInstant (d : EraDate) : Int := midnight d.dayNumber + d.millis

/-- The date in short: era, year, month and day. -/
def label (d : EraDate) : Except Error String :=
  writing [d.year, d.month, d.day]
    s!"{d.era.tag}{d.year}.{Text.zeroPad 2 d.month}.{Text.zeroPad 2 d.day}"

end EraDate

end EraChronology
