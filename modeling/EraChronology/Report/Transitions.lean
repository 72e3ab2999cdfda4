import EraChronology.Calendar.Conversion
import EraChronology.Calendar.FieldRange
import EraChronology.Report.EraList

set_option autoImplicit false

/-! # Transitions between eras

The days on which eras follow one another, with the last day of the old era and the first day
of the new one and how far the months, days and weeks of their years go.
-/

namespace EraChronology.Transitions

open Text

def widths : List Nat := [20, 10, 12, 4, 4, 4, 12, 4, 4, 4]

def row (cells : List String) : String :=
  "  ".intercalate ((widths.zip cells).map fun (width, text) => padRight width text)

def heading : String :=
  row ["Transition", "Date", "Old last", "mon", "doy", "woy", "New first", "mon", "doy", "woy"]

/-- A line as long as the heading. -/
def rule : String := String.ofList (List.replicate heading.length '-')

/-- The cells of a day: its date, the months of its year and the last day and week of it. -/
def cells (c : Calendar) (d : EraDate) : Except Error (List String) := do
  let label ← d.label
  let month ← c.fieldRange d .month
  let day ← c.fieldRange d .dayOfYear
  let week ← c.fieldRange d .weekOfYear
  let months ← writing [month.actualMinimum, month.actualMaximum]
    s!"{month.actualMinimum}-{month.actualMaximum}"
  let days ← writing [day.actualMaximum] (toString day.actualMaximum)
  let weeks ← writing [week.actualMaximum] (toString week.actualMaximum)
  return [label, months, days, weeks]

def line (c : Calendar) (old new : Era) : Except Error String := do
  let first := new.firstDay
  let before ← c.resolve (midnight (first - 1)) 0
  let after ← c.resolve (midnight first) 0
  let day ← Gregorian.isoDay first
  let left ← cells c before
  let right ← cells c after
  return row ([s!"{old.name} -> {new.name}", day] ++ left ++ right)

/-- The eras that follow one another. -/
def pairs (table : EraTable) : List (Era × Era) := table.eras.zip table.eras.tail

/-- The line about the open era, which ends with the representable range. -/
def openLine (c : Calendar) : Except Error String := do
  let ceiling ← Gregorian.isoDay c.table.ceilingDay
  writing [c.table.openMaxYear]
    (s!"Open era: {c.table.openEra.name}, max year {c.table.openMaxYear} " ++
      s!"(ceiling {ceiling})")

end EraChronology.Transitions
