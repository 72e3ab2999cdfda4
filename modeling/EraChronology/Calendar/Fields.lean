import EraChronology.Calendar.Conversion
import EraChronology.Calendar.FieldRange

set_option autoImplicit false

/-! # Reading and changing fields

The value of a field at a date, setting a field and adding to it. A change is made on the day
number, so a value out of range runs over into the next month, year or era, and the outcome
is brought back into a date. Dates are taken as they are and not checked.
-/

namespace EraChronology.Calendar

/-! ## Reading -/

/-- The week of the year; a day before week 1 is in the last week of the year before. -/
def weekOfYear (c : Calendar) (d : EraDate) : Except Error Int := do
  let s ← c.yearSpan d.era d.year
  let n := c.weeks.weekOfYear s d.dayNumber
  if n = 0 then return c.weeks.maxWeekOfYear (← c.yearSpan d.era (d.year - 1))
  else return n

def weekOfMonth (c : Calendar) (d : EraDate) : Except Error Int := do
  let s ← c.monthSpan d.era d.year d.month
  return c.weeks.weekOfMonth s d.dayNumber

def get (c : Calendar) (d : EraDate) : Field → Except Error Int
  | .era => .ok d.era.index
  | .year => .ok d.year
  | .month => .ok d.month
  | .dayOfMonth => .ok d.day
  | .dayOfYear => .ok d.dayOfYear
  | .dayOfWeekInMonth => .ok d.dayOfWeekInMonth
  | .weekOfYear => c.weekOfYear d
  | .weekOfMonth => c.weekOfMonth d

/-! ## Changing -/

/-- The day a date moves to when a field is set. The weeks of the year and of the month cannot
be set. -/
def dayWith (c : Calendar) (d : EraDate) (f : Field) (v : Int) : Except Error Int :=
  match f with
  | .era =>
    if 0 ≤ v ∧ v < c.table.size then
      (c.table.at? v).map fun e => Gregorian.lenientDayNumber (e.absoluteYear d.year) d.month d.day
    else .error (.era (.index v c.id.name))
  | .year => .ok (Gregorian.lenientDayNumber (d.era.absoluteYear v) d.month d.day)
  | .month => .ok (Gregorian.lenientDayNumber d.absoluteYear v d.day)
  | .dayOfMonth => .ok (Gregorian.dayNumber d.absoluteYear d.month 1 + v - 1)
  | .dayOfYear => (c.yearSpan d.era d.year).map fun s => s.anchor + v - 1
  | .dayOfWeekInMonth => .ok (d.dayNumber + 7 * (v - d.dayOfWeekInMonth))
  | .weekOfYear | .weekOfMonth => .error (.input (.fieldNotSettable f.name))

/-- The day `n` months after a date, or before it. A day the month does not have becomes the
last day of the month. -/
def dayMonthsLater (d : EraDate) (n : Int) : Int :=
  let months := d.absoluteYear * 12 + d.month - 1 + n
  let y := months / 12
  let m := months % 12 + 1
  Gregorian.dayNumber y m (min d.day (Gregorian.monthLength y m))

/-- The day a date moves to when an amount is added to a field. -/
def dayPlus (c : Calendar) (d : EraDate) (f : Field) (amount : Int) : Except Error Int :=
  match f with
  | .era => c.dayWith d .era (d.era.index + amount)
  | .year => .ok (dayMonthsLater d (amount * 12))
  | .month => .ok (dayMonthsLater d amount)
  | .dayOfMonth | .dayOfYear => .ok (d.dayNumber + amount)
  | .dayOfWeekInMonth | .weekOfYear | .weekOfMonth => .ok (d.dayNumber + 7 * amount)

/-- The date of a day and a time of day that are reached by a change. -/
def renormalize (c : Calendar) (j millis : Int) : Except Error EraDate :=
  c.resolve (midnight j + millis) 0

def set (c : Calendar) (d : EraDate) (f : Field) (v : Int) : Except Error EraDate := do
  c.renormalize (← c.dayWith d f v) d.millis

def add (c : Calendar) (d : EraDate) (f : Field) (amount : Int) : Except Error EraDate := do
  c.renormalize (← c.dayPlus d f amount) d.millis

/-! ## By the name of the field -/

def fieldRangeNamed (c : Calendar) (d : EraDate) (name : String) : Except Error FieldRange := do
  c.fieldRange d (← Field.named name)

def getNamed (c : Calendar) (d : EraDate) (name : String) : Except Error Int := do
  c.get d (← Field.named name)

/-- The date with the field of a name set. A name that is no field's cannot be set either. -/
def setNamed (c : Calendar) (d : EraDate) (name : String) (v : Int) : Except Error EraDate :=
  match Field.ofName? name with
  | some f => c.set d f v
  | none => .error (.input (.fieldNotSettable name))

def addNamed (c : Calendar) (d : EraDate) (name : String) (amount : Int) :
    Except Error EraDate := do
  c.add d (← Field.named name) amount

end EraChronology.Calendar
