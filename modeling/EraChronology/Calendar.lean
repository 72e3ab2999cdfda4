import EraChronology.Representable
import EraChronology.Spec
import EraChronology.WeekRule

set_option autoImplicit false

/-! # Calendars

A calendar is an era table with a rule for weeks. `Calendar.ofSpec?` is the only way from a
specification to a calendar; it checks the eras first and then the settings of the weeks.
-/

namespace EraChronology

structure Calendar where
  id : CalendarId
  table : EraTable
  weeks : WeekRule

/-- An era that is meant, by its name or its short name, or by all its parts. -/
inductive EraRef where
  | name (name : String)
  | era (era : Era)

namespace Calendar

def ofSpec? (spec : Spec) : Except Error Calendar := do
  let table ← EraTable.ofDefs? spec.bound spec.eras
  let weeks ← WeekRule.ofSettings? spec.firstDayOfWeek spec.minimalDays
  return ⟨spec.id, table, weeks⟩

/-- An era that is found in the calendar under its own name, with all parts the same. -/
def ownEra? (c : Calendar) (e : Era) : Except Error Era := do
  let found ← c.table.byName? e.name
  if found = e then return found
  else throw (.era (.foreign e.name c.id.name))

def eraOf? (c : Calendar) : EraRef → Except Error Era
  | .name name => c.table.byName? name
  | .era e => c.ownEra? e

end Calendar

end EraChronology
