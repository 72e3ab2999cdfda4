import EraChronology.Calendar.Period
import EraChronology.Field

set_option autoImplicit false

/-! # Ranges of fields

The least and the greatest value a field takes at a date. The plain Gregorian limits hold only
in years and months that no era boundary cuts: an era that starts in the middle of a year
numbers its days from its first day, an era that ends in the middle of a year cuts it short,
and the open era is cut by the ceiling.

Two limits are the same for all dates of a calendar: no cut period starts above the greatest
minimum of a field, and none ends below its least maximum.
-/

namespace EraChronology

/-- The range of a field in one period: the limits of the uncut period and those it has. -/
structure Extent where
  minimum : Int
  actualMinimum : Int
  maximum : Int
  actualMaximum : Int
  /-- The representable range cuts the period. -/
  clamped : Bool
deriving DecidableEq

/-- The limits of a field over a whole calendar. -/
structure Limit where
  greatestMinimum : Int
  leastMaximum : Int
deriving DecidableEq

structure FieldRange where
  field : Field
  minimum : Int
  greatestMinimum : Int
  leastMaximum : Int
  maximum : Int
  actualMinimum : Int
  actualMaximum : Int
  /-- The representable range cuts the actual range. -/
  clamped : Bool
deriving DecidableEq

def FieldRange.contains (r : FieldRange) (v : Int) : Bool :=
  r.actualMinimum ≤ v ∧ v ≤ r.actualMaximum

/-- The limit narrowed by the actual range of one more period. -/
def Limit.narrow (l : Limit) (x : Extent) : Limit :=
  ⟨max l.greatestMinimum x.actualMinimum, min l.leastMaximum x.actualMaximum⟩

namespace Calendar

/-! ## One period -/

def lastIndex (c : Calendar) : Int := c.table.size - 1

/-- The range of a field in month `m` of year `n` of an era. -/
def extent (c : Calendar) (f : Field) (e : Era) (n m : Int) : Except Error Extent :=
  match f with
  | .era => .ok ⟨0, 0, c.lastIndex, c.lastIndex, false⟩
  | .year => do
    let greatest ← c.table.greatestYear
    let highest ← c.table.maxYear e
    return ⟨1, 1, greatest, highest, e.isOpen⟩
  | .month => do
    let s ← c.yearSpan e n
    return ⟨1, (Gregorian.ofDayNumber s.first).month, 12, (Gregorian.ofDayNumber s.last).month,
      s.clamped⟩
  | .dayOfMonth => do
    let s ← c.monthSpan e n m
    let length ← monthLengthOf e n m
    return ⟨1, (Gregorian.ofDayNumber s.first).day, length, (Gregorian.ofDayNumber s.last).day,
      s.clamped⟩
  | .dayOfYear => do
    let s ← c.yearSpan e n
    return ⟨1, s.first - s.anchor + 1, Gregorian.yearLength (e.absoluteYear n),
      s.last - s.anchor + 1, s.clamped⟩
  | .dayOfWeekInMonth => do
    let s ← c.monthSpan e n m
    let length ← monthLengthOf e n m
    return ⟨1, Gregorian.sevenDayStep (Gregorian.ofDayNumber s.first).day,
      Gregorian.sevenDayStep length,
      Gregorian.sevenDayStep (Gregorian.ofDayNumber s.last).day, s.clamped⟩
  | .weekOfYear => do
    let s ← c.yearSpan e n
    return ⟨1, 1, c.weeks.maxWeekOfYear s.natural, c.weeks.maxWeekOfYear s, s.clamped⟩
  | .weekOfMonth => do
    let s ← c.monthSpan e n m
    return ⟨c.weeks.minWeekOfMonth s.natural, c.weeks.minWeekOfMonth s,
      c.weeks.maxWeekOfMonth s.natural, c.weeks.maxWeekOfMonth s, s.clamped⟩

/-! ## The whole calendar -/

/-- Years in which every weekday occurs as New Year, in common years and in leap years. -/
def cycleYears : List Int := (List.range 28).map fun (i : Nat) => 2001 + (i : Int)

def gregorianYear (y : Int) : Span :=
  .whole (Gregorian.dayNumber y 1 1) (Gregorian.dayNumber y 12 31)

def gregorianMonth (y m : Int) : Span :=
  let first := Gregorian.dayNumber y m 1
  .whole first (first + Gregorian.monthLength y m - 1)

def gregorianMonths (y : Int) : List Span :=
  (List.range 12).map fun (i : Nat) => gregorianMonth y (1 + (i : Int))

def leastWeeksOfYear (w : WeekRule) : Int :=
  ((cycleYears.map fun y => w.maxWeekOfYear (gregorianYear y)).min?).getD 0

def gregorianWeeksOfMonth (w : WeekRule) : Limit :=
  let months := cycleYears.flatMap gregorianMonths
  ⟨((months.map w.minWeekOfMonth).max?).getD 0, ((months.map w.maxWeekOfMonth).min?).getD 0⟩

/-- The limits of a field over all uncut periods. -/
def gregorianLimit (c : Calendar) (f : Field) : Except Error Limit :=
  match f with
  | .era => .ok ⟨0, c.lastIndex⟩
  | .year => c.table.leastMaxYear.map (⟨1, ·⟩)
  | .month => .ok ⟨1, 12⟩
  | .dayOfMonth => .ok ⟨1, 28⟩
  | .dayOfYear => .ok ⟨1, 365⟩
  | .dayOfWeekInMonth => .ok ⟨1, 4⟩
  | .weekOfYear => .ok ⟨1, leastWeeksOfYear c.weeks⟩
  | .weekOfMonth => .ok (gregorianWeeksOfMonth c.weeks)

structure EraMonth where
  era : Era
  year : Int
  month : Int

def eraMonthOf (e : Era) (j : Int) : EraMonth :=
  let g := Gregorian.ofDayNumber j
  ⟨e, e.eraYear g.year, g.month⟩

/-- The months an era starts and ends in. -/
def cutMonthsOf (c : Calendar) (e : Era) : Except Error (List EraMonth) := do
  let last ← c.table.lastDay e
  let days := (if e.isProleptic then [] else [e.firstDay]) ++ last.toList
  return days.map (eraMonthOf e)

/-- The months all eras start and end in. -/
def cutMonths (c : Calendar) : Except Error (List EraMonth) :=
  (c.table.eras.mapM c.cutMonthsOf).map List.flatten

/-- The limits of a field over the calendar: those of the uncut periods, narrowed by the years
and months an era starts or ends in. The numbers of eras and years are not narrowed. -/
def limit (c : Calendar) (f : Field) : Except Error Limit := do
  let uncut ← c.gregorianLimit f
  if f = .era ∨ f = .year then return uncut
  let cuts ← c.cutMonths
  cuts.foldlM (fun l p => (c.extent f p.era p.year p.month).map l.narrow) uncut

/-- A range that the representable range cuts is announced under the label of its date, which
has to be short enough to be written. -/
def requireLabel (clamped : Bool) (d : EraDate) : Except Error Unit :=
  if clamped then d.label.map fun _ => () else .ok ()

def fieldRange (c : Calendar) (d : EraDate) (f : Field) : Except Error FieldRange := do
  let x ← c.extent f d.era d.year d.month
  let l ← c.limit f
  requireLabel x.clamped d
  return { field := f, minimum := x.minimum, greatestMinimum := l.greatestMinimum,
           leastMaximum := l.leastMaximum, maximum := x.maximum,
           actualMinimum := x.actualMinimum, actualMaximum := x.actualMaximum,
           clamped := x.clamped }

end Calendar

end EraChronology
