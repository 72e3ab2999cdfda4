import EraChronology.Calendar.Fields

set_option autoImplicit false

/-! # Tables of fields

The fields of a date with their values and ranges, one line for each field.
-/

namespace EraChronology.FieldTable

open Text

/-- A line of the table: the field on the left, then seven numbers or their headings. -/
def row (field : String) (numbers : List String) : String :=
  " ".intercalate (padRight 21 field ::
    ([10, 6, 7, 8, 10, 10, 10].zip numbers).map fun (width, text) => padLeft width text)

def heading : String :=
  row "field" ["value", "min", "gr.min", "act.min", "l.max", "act.max", "max"]

def title (d : EraDate) : Except Error String := do
  let label ← d.label
  writing [d.year, d.absoluteYear, d.month, d.day]
    (s!"{label}  ({d.era.name} {d.year}, Gregorian {d.absoluteYear}-{zeroPad 2 d.month}-" ++
      s!"{zeroPad 2 d.day})")

/-- The line of a field. A range that the representable range cuts is marked. -/
def line (value : Int) (r : FieldRange) : Except Error String :=
  let numbers := [value, r.minimum, r.greatestMinimum, r.actualMinimum, r.leastMaximum,
    r.actualMaximum, r.maximum]
  writing numbers
    (row r.field.name (numbers.map toString) ++ (if r.clamped then "  (clamped)" else ""))

def lineOf (c : Calendar) (d : EraDate) (f : Field) : Except Error String := do
  let r ← c.fieldRange d f
  let value ← c.get d f
  line value r

end EraChronology.FieldTable
