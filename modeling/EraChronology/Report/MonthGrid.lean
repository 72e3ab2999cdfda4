import EraChronology.Calendar.Fields

set_option autoImplicit false

/-! # Month grids

A Gregorian month as a grid with one row for each week. The columns are the days of the week
from the one that the calendar's weeks start on. Every row is tagged with the week of the year
and the week of the month of the first day in it.

The days are laid out one after the other. A row is complete as soon as it has seven cells; the
last one is filled up with empty cells.
-/

namespace EraChronology

open Text

/-- The weeks of the first day in a row. -/
structure RowTag where
  weekOfYear : Int
  weekOfMonth : Int

structure GridRow where
  /-- A row without a day has no tag. -/
  tag : Option RowTag
  cells : List (Option EraDate)

structure MonthGrid where
  firstDayOfWeek : Int
  rows : List GridRow

namespace MonthGrid

/-! ## Laying out the days -/

/-- A month that is laid out up to some day: the complete rows, and the tag and the cells of the
row that is under way. -/
structure Layout where
  rows : List GridRow
  tag : Option RowTag
  week : List (Option EraDate)

namespace Layout

/-- Before the first day there are only empty cells. -/
def start (before : Nat) : Layout := ⟨[], none, List.replicate before none⟩

def tagOf (c : Calendar) (d : EraDate) : Except Error RowTag := do
  let weekOfYear ← c.weekOfYear d
  requireWritable [weekOfYear]
  let weekOfMonth ← c.weekOfMonth d
  requireWritable [weekOfMonth]
  return { weekOfYear, weekOfMonth }

/-- The tag of the row that a day is added to. Only the first day of a row is asked for its
weeks. -/
def tagFor (c : Calendar) (s : Layout) (d : EraDate) : Except Error RowTag :=
  match s.tag with
  | some tag => .ok tag
  | none => tagOf c d

/-- Adds a day to the row under way, which is complete with its seventh cell. -/
def add (s : Layout) (tag : RowTag) (d : EraDate) : Layout :=
  let week := s.week ++ [some d]
  if week.length = 7 then { rows := s.rows ++ [⟨some tag, week⟩], tag := none, week := [] }
  else { s with tag := some tag, week }

/-- Lays out the next day, whose numbers have to be short enough to be shown. -/
def addDay (c : Calendar) (s : Layout) (j : Int) : Except Error Layout := do
  let d ← c.resolve (midnight j) 0
  let tag ← tagFor c s d
  requireWritable [d.day, d.year]
  return s.add tag d

/-- Empty cells are added to a week until it has seven cells. -/
def filled (week : List (Option EraDate)) : List (Option EraDate) :=
  if week.length < 7 then filled (week ++ [none]) else week
termination_by 7 - week.length
decreasing_by
  rw [List.length_append, List.length_singleton]
  omega

/-- The rows of a month after its last day. -/
def finish (s : Layout) : List GridRow :=
  if s.week.isEmpty then s.rows else s.rows ++ [⟨s.tag, filled s.week⟩]

end Layout

def dayNumbers (first length : Int) : List Int :=
  (List.range length.toNat).map fun (i : Nat) => first + (i : Int)

def ofMonth (c : Calendar) (y m : Int) : Except Error MonthGrid :=
  match Gregorian.monthLength? y m with
  | none => .error .position
  | some length => do
    let first := Gregorian.dayNumber y m 1
    let before := ((Gregorian.dayOfWeek first - c.weeks.firstDay) % 7).toNat
    let s ← (dayNumbers first length).foldlM (Layout.addDay c) (.start before)
    return { firstDayOfWeek := c.weeks.firstDay, rows := s.finish }

/-! ## Writing -/

/-- The short names of the days of the week, from Sunday. -/
def shortDayNames : List String := ["Su", "Mo", "Tu", "We", "Th", "Fr", "Sa"]

def weekDays (firstDayOfWeek : Int) : List String :=
  (List.range 7).map fun (i : Nat) =>
    shortDayNames.getD ((firstDayOfWeek - 1 + (i : Int)) % 7).toNat ""

def heading (firstDayOfWeek : Int) : String :=
  "wy wm  " ++ " ".intercalate ((weekDays firstDayOfWeek).map (padRight 6))

/-- The two lines of a cell, in the width of a column. -/
def cell (top bottom : String) (width : Int) : String × String := (fit width top, fit width bottom)

/-- The two lines of a cell in a given width, which has to fit into a signed word of 64 bits. -/
def cell? (top bottom : String) (width : Int) : Except Error (String × String) :=
  if -9223372036854775808 ≤ width ∧ width ≤ 9223372036854775807 then .ok (cell top bottom width)
  else .error .wordSize

/-- The two lines of a day: the day of the month, and the era with its year. -/
def cellText : Option EraDate → String × String
  | none => cell "" "" 6
  | some d =>
    let tag := if d.era.abbr.isEmpty then cut 2 d.era.name else d.era.abbr
    cell (padNumber 2 d.day) s!"{tag}{d.year}" 6

def tagText : Option RowTag → String
  | none => ""
  | some tag => s!"{padNumber 2 tag.weekOfYear} {padNumber 2 tag.weekOfMonth}  "

def rowLines (row : GridRow) : List String :=
  let tag := tagText row.tag
  let texts := row.cells.map cellText
  [tag ++ " ".intercalate (texts.map Prod.fst),
   padRight tag.length "" ++ " ".intercalate (texts.map Prod.snd)]

def lines (title : String) (grid : MonthGrid) : List String :=
  let top := heading grid.firstDayOfWeek
  [title, top, String.ofList (List.replicate top.length '-')] ++ grid.rows.flatMap rowLines ++ [""]

def title (calendar : String) (y m : Int) : Except Error String :=
  writing [y, m] s!"{calendar} Gregorian month  {y}-{zeroPad 2 m}"

end MonthGrid

end EraChronology
