import EraChronology.Error
import EraChronology.Gregorian
import EraChronology.Span

set_option autoImplicit false

/-! # Weeks

Numbering the weeks of a span. A week belongs to a period when at least `minimalDays` of its
days lie in the period. No week passes an era boundary: a short week at the start of an era
is merged into week 1, and a last week that would belong to the next year is merged into the
week before it where the next year belongs to another era.
-/

namespace EraChronology

/-- On which day weeks start, 1 for Sunday to 7 for Saturday, and how many days of a period
its first week needs. -/
structure WeekRule where
  firstDay : Int
  minimalDays : Int
  firstDay_mem : 1 ≤ firstDay ∧ firstDay ≤ 7
  minimalDays_mem : 1 ≤ minimalDays ∧ minimalDays ≤ 7
deriving DecidableEq

namespace WeekRule

/-- The rule with these settings, both from 1 to 7. -/
def ofSettings? (firstDay minimalDays : Int) : Except Error WeekRule :=
  if hf : 1 ≤ firstDay ∧ firstDay ≤ 7 then
    if hm : 1 ≤ minimalDays ∧ minimalDays ≤ 7 then .ok ⟨firstDay, minimalDays, hf, hm⟩
    else .error (.input .minimalDays)
  else .error (.input .firstDayOfWeek)

/-! ## Weeks and periods -/

/-- The days from the start of its week to a day, 0 to 6. -/
def position (w : WeekRule) (j : Int) : Int := (Gregorian.dayOfWeek j - w.firstDay) % 7

/-- The first day of the week of a day. -/
def weekStart (w : WeekRule) (j : Int) : Int := j - w.position j

/-- The first day of week 1 of a period that starts at `anchor`: the first week with enough
days from `anchor` on. -/
def firstWeek (w : WeekRule) (anchor : Int) : Int :=
  let next := w.weekStart (anchor + 6)
  if w.minimalDays ≤ next - anchor then next - 7 else next

/-- The week of a day in a period that starts at `anchor`, 0 or less before week 1. -/
def weekNumber (w : WeekRule) (anchor j : Int) : Int := (j - w.firstWeek anchor) / 7 + 1

/-- The first day of the last week of a year, if that week counts as week 1 of the next. -/
def rolledTail (w : WeekRule) (naturalLast : Int) : Option Int :=
  let position := w.position (naturalLast + 1)
  if position ≠ 0 ∧ w.minimalDays ≤ 7 - position then some (naturalLast + 1 - position) else none

/-! ## Weeks of a year -/

/-- The week of a day counted from the anchor of a span. A day before week 1 is in week 1 if
the span starts its era; else it has week 0, the last week of the year before. -/
def weekFromAnchor (w : WeekRule) (s : Span) (j : Int) : Int :=
  let n := w.weekNumber s.anchor j
  if n < 1 then (if s.startsEra then 1 else 0) else n

/-- The week of the year of a day, and 0 for a day in the last week of the year before. The
week that rolls into the next year is week 1, or the week before it at the end of the era. -/
def weekOfYear (w : WeekRule) (s : Span) (j : Int) : Int :=
  match w.rolledTail s.naturalLast with
  | none => w.weekFromAnchor s j
  | some tail =>
    if j < tail then w.weekFromAnchor s j
    else if s.endsEra then w.weekFromAnchor s (tail - 1)
    else 1

/-- The number of weeks of a year, at least 1. -/
def maxWeekOfYear (w : WeekRule) (s : Span) : Int :=
  let last :=
    match w.rolledTail s.naturalLast with
    | none => s.last
    | some tail => if tail ≤ s.last then tail - 1 else s.last
  max (w.weekNumber s.anchor last) 1

/-! ## Weeks of a month -/

/-- The week of the month of a day. A short first week is merged into week 1 only in a month
that is cut at its start. -/
def weekOfMonth (w : WeekRule) (s : Span) (j : Int) : Int :=
  let n := w.weekNumber s.anchor j
  if s.truncatedStart then max n 1 else n

def minWeekOfMonth (w : WeekRule) (s : Span) : Int := w.weekOfMonth s s.first

def maxWeekOfMonth (w : WeekRule) (s : Span) : Int := w.weekOfMonth s s.last

end WeekRule

end EraChronology
