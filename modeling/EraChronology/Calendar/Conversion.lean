import EraChronology.Calendar

set_option autoImplicit false

/-! # Dates and instants

From an era, a year, a month and a day to the number of the day and to an instant, and back.
Dates are checked on the way to an instant: a date that passes is a day of its era and is
representable. On the way back only the instant itself has to be representable; the wall clock
at an offset may show a day past the ceiling, but none before the first representable day.
-/

namespace EraChronology.Calendar

/-! ## From dates to instants -/

/-- The number of a day of an era. The year, the month and the day are checked in turn, then
that the day is representable, and last that it is a day of the era. -/
def dayOf? (c : Calendar) (e : Era) (n m d : Int) : Except Error Int :=
  if n < 1 then .error (.date (.year e.name n))
  else if ¬ (1 ≤ m ∧ m ≤ 12) then .error (.date (.month e.name n m))
  else
    let length := Gregorian.monthLength (e.absoluteYear n) m
    let j := Gregorian.dayNumber (e.absoluteYear n) m d
    if ¬ (1 ≤ d ∧ d ≤ length) then .error (.date (.day e.name n m d length))
    else if ¬ c.table.RepresentsDay j then .error (.range (.day e.name n m d))
    else if j < e.firstDay then .error (.date (.beforeEra e.name n m d))
    else
      match c.table.lastDay e with
      | .error fault => .error fault
      | .ok none => .ok j
      | .ok (some last) =>
        if last < j then .error (.date (.afterEra e.name n m d)) else .ok j

/-- The instant on the wall clock of a day of an era and a time of day, whether it is
representable or not. -/
def localInstantOf? (c : Calendar) (e : Era) (n m d millis : Int) : Except Error Int :=
  if ¬ (0 ≤ millis ∧ millis < msPerDay) then .error (.date (.timeOfDay millis))
  else (c.dayOf? e n m d).map fun j => midnight j + millis

/-- The instant of a day of an era and a time of day on a wall clock that is `offset` ahead. -/
def instantOf? (c : Calendar) (e : Era) (n m d millis offset : Int) : Except Error Int := do
  let wallClock ← c.localInstantOf? e n m d millis
  c.table.checkInstant (wallClock - offset)

def date? (c : Calendar) (ref : EraRef) (n m d millis : Int) : Except Error EraDate := do
  let e ← c.eraOf? ref
  let _ ← c.localInstantOf? e n m d millis
  return ⟨c.id, e, n, m, d, millis⟩

/-- The instant on the wall clock of a date, whose era has to be one of the calendar. -/
def wallClock? (c : Calendar) (d : EraDate) : Except Error Int := do
  let e ← c.ownEra? d.era
  c.localInstantOf? e d.year d.month d.day d.millis

def toInstant (c : Calendar) (d : EraDate) (offset : Int) : Except Error Int := do
  let wallClock ← c.wallClock? d
  c.table.checkInstant (wallClock - offset)

/-! ## From instants to dates -/

/-- The date of a day and a time of day, without any check. -/
def dateOfDay (c : Calendar) (j millis : Int) : EraDate :=
  let e := c.table.eraOfDay j
  let g := Gregorian.ofDayNumber j
  ⟨c.id, e, e.eraYear g.year, g.month, g.day, millis⟩

/-- The date of an instant on a wall clock that is `offset` ahead. -/
def resolve (c : Calendar) (t offset : Int) : Except Error EraDate := do
  let _ ← c.table.checkInstant t
  let wallClock := t + offset
  if dayOfInstant wallClock < c.table.floorDay then
    throw (.range (.beforeYearOne t offset c.table.first.name))
  else return c.dateOfDay (dayOfInstant wallClock) (timeOfDay wallClock)

end EraChronology.Calendar
