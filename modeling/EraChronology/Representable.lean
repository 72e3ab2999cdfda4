import EraChronology.EraTable
import EraChronology.Once

set_option autoImplicit false

/-! # The representable range

The instants a calendar can name. The highest is the ceiling of the bound. The lowest is the
floor, or the first day of year 1 of the first era if that is later, since era years start
at 1. The last year of an era follows from its end, or from the ceiling for the open era.
-/

namespace EraChronology.EraTable

/-! ## Limits -/

def maxInstant (table : EraTable) : Int := table.bound.ceiling

def minInstant (table : EraTable) : Int := max table.bound.floor (midnight table.first.firstDay)

def ceilingDay (table : EraTable) : Int := dayOfInstant table.maxInstant

def floorDay (table : EraTable) : Int := dayOfInstant table.minInstant

def Represents (table : EraTable) (t : Int) : Prop := table.minInstant ≤ t ∧ t ≤ table.maxInstant

instance (table : EraTable) (t : Int) : Decidable (table.Represents t) := by
  unfold Represents; infer_instance

/-- A day at least partly representable. -/
def RepresentsDay (table : EraTable) (j : Int) : Prop :=
  table.floorDay ≤ j ∧ j ≤ table.ceilingDay

instance (table : EraTable) (j : Int) : Decidable (table.RepresentsDay j) := by
  unfold RepresentsDay; infer_instance

/-- A representable instant, unchanged. -/
def checkInstant (table : EraTable) (t : Int) : Except Error Int :=
  if table.Represents t then .ok t
  else .error (.range (.instant t table.minInstant table.maxInstant))

/-- The nearest representable instant, and whether it is another one. -/
def clampInstant (table : EraTable) (t : Int) : Int × Bool :=
  if table.maxInstant < t then (table.maxInstant, true)
  else if t < table.minInstant then (table.minInstant, true)
  else (t, false)

/-! ## Years -/

/-- The last year of the open era: the year of the day the ceiling lies in. -/
def openMaxYear (table : EraTable) : Int :=
  table.openEra.eraYear (yearOfInstant table.bound.ceiling)

/-- The last year of the open era, asked of the cell that a table keeps it in, and the cell
afterwards. -/
def askOpenMaxYear (table : EraTable) (kept : Once Int) : Except Error Int × Once Int :=
  kept.get (.ok table.openMaxYear)

/-- The last year of an era: the year of its last day, or of the ceiling if it is open. An era
that is closed by an era without a start has no last day. -/
def maxYear (table : EraTable) (e : Era) : Except Error Int :=
  if e.isOpen then .ok table.openMaxYear
  else
    match table.lastDay e with
    | .error fault => .error fault
    | .ok none => .error .noEnd
    | .ok (some last) => .ok (e.eraYear (Gregorian.ofDayNumber last).year)

/-- The nearest year of an era, from 1 to its last, and whether it is another one. -/
def clampYear (table : EraTable) (e : Era) (n : Int) : Except Error (Int × Bool) := do
  let highest ← table.maxYear e
  if highest < n then return (highest, true)
  else if n < 1 then return (1, true)
  else return (n, false)

def maxYears (table : EraTable) : Except Error (List Int) := table.eras.mapM table.maxYear

def greatestYear (table : EraTable) : Except Error Int :=
  table.maxYears.map fun years => years.max?.getD 0

/-- The last year of the era with the fewest years. -/
def leastMaxYear (table : EraTable) : Except Error Int :=
  table.maxYears.map fun years => years.min?.getD 0

end EraChronology.EraTable
