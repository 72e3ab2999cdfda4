import EraChronology.Gregorian.Civil
import EraChronology.Representable

set_option autoImplicit false

/-! # Lists of eras

The eras of a table, one line for each, with their starts and their last years.
-/

namespace EraChronology

open Text

def Era.startText (e : Era) : Except Error String :=
  if e.isProleptic then .ok "(unbounded past)" else Gregorian.isoDay e.firstDay

def EraTable.line (table : EraTable) (e : Era) : Except Error String := do
  let start ← e.startText
  let last ← table.maxYear e
  let tag := if e.isOpen then " open" else ""
  writing [e.index, e.yearOrigin, last]
    (s!"{padNumber 2 e.index}  {padRight 12 e.name} {padRight 3 e.abbr} since " ++
      s!"{padRight 17 start} origin {padRight 5 (toString e.yearOrigin)} max year {last}{tag}")

end EraChronology
