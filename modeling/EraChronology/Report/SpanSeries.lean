import EraChronology.Binary64
import EraChronology.Calendar.Fields

set_option autoImplicit false

/-! # Series of maxima

The greatest value of a field in each year of a range, once for every era that has New Year's
Day or the last day of the year: how far the field goes in that era, beside how far it goes in
an uncut year.

The years are placed on an axis of binary numbers of 53 bits, so a year that does not fit is moved
to the nearest of them (`Binary64.nearest`), and one that is out of their range has no place. How
the maxima become numbers of a chart is left to a conversion that `MaximumChart.ofYears` is given.
-/

namespace EraChronology

structure MaximumSample where
  year : Int
  /-- Taken on the last day of the year, for an era that does not have New Year's Day. -/
  atYearEnd : Bool
  actual : Int
  generic : Int
deriving DecidableEq

/-- A whole number as a binary number of 53 bits. One that is out of their range has none. -/
def toBinary64 (n : Int) : Except Error Int :=
  if Binary64.isFinite n then .ok (Binary64.nearest n) else .error .chartSize

namespace MaximumSample

def ofDate (c : Calendar) (field : String) (year : Int) (atYearEnd : Bool) (d : EraDate) :
    Except Error MaximumSample := do
  let r ← c.fieldRangeNamed d field
  let _ ← toBinary64 year
  return ⟨year, atYearEnd, r.actualMaximum, r.maximum⟩

/-- The samples of a year: one on New Year's Day, and one on the last day if that is in another
era. -/
def ofYear (c : Calendar) (field : String) (year : Int) : Except Error (List MaximumSample) := do
  let newYear ← c.resolve (Gregorian.dayNumber year 1 1 |> midnight) 0
  let first ← ofDate c field year false newYear
  let yearEnd ← c.resolve (Gregorian.dayNumber year 12 31 |> midnight) 0
  if yearEnd.era.index = newYear.era.index then return [first]
  else return [first, ← ofDate c field year true yearEnd]

/-- What `count` years from `year` on yield, after what earlier years yielded in reverse order.
The first year that fails ends the series. -/
def collect {α : Type} (yield : Int → Except Error (List α)) (earlier : List α) :
    Nat → Int → Except Error (List α)
  | 0, _ => .ok earlier.reverse
  | count + 1, year =>
    match yield year with
    | .error e => .error e
    | .ok found => collect yield (found.reverse ++ earlier) count (year + 1)

def series (c : Calendar) (field : String) (start stop : Int) :
    Except Error (List MaximumSample) :=
  collect (ofYear c field) [] (stop - start + 1).toNat start

/-- What earlier years yielded stands before what is collected. -/
theorem collect_eq {α : Type} (yield : Int → Except Error (List α)) (earlier : List α)
    (count : Nat) (year : Int) :
    collect yield earlier count year =
      (collect yield [] count year).map fun later => earlier.reverse ++ later := by
  induction count generalizing earlier year with
  | zero => simp [collect, Except.map]
  | succ count ih =>
    simp only [collect]
    cases yield year with
    | error e => rfl
    | ok found =>
      simp only
      rw [ih (found.reverse ++ earlier), ih (found.reverse ++ [])]
      cases collect yield [] count (year + 1) <;> simp [Except.map]

/-- The place of a sample on the axis of years, in quarters of a year. A sample at the end of a
year stands a quarter after the year. -/
def place (s : MaximumSample) : Int :=
  let year := 4 * Binary64.nearest s.year
  if s.atYearEnd then Binary64.nearest (year + 1) else year

end MaximumSample

structure MaximumChart where
  /-- The places on the axis of years, in quarters of a year. -/
  places : List Int
  actual : List Int
  generic : List Int

/-- The chart of the series of the years from `start` to `stop`, with `convert` for the numbers that
stand for the maxima in it. -/
def MaximumChart.ofYears (convert : Int → Except Error Int) (c : Calendar) (field : String)
    (start stop : Int) : Except Error MaximumChart := do
  let samples ← MaximumSample.series c field start stop
  let actual ← (samples.map (·.actual)).mapM convert
  let generic ← (samples.map (·.generic)).mapM convert
  return ⟨samples.map (·.place), actual, generic⟩

end EraChronology
