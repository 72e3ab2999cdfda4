set_option autoImplicit false

/-! # The proleptic Gregorian calendar

Years, months and days of the Gregorian calendar, extended without bound into the past and
the future, and the number of a day in the count of Julian days (day 2440588 is 1 January
1970). `dayNumber` and `ofDayNumber` count from 1 March, so that the leap day is the last day
of a year and the months before it follow one linear rule.

Quotients and remainders are those of floor division: all divisors are positive.
-/

namespace EraChronology.Gregorian

/-! ## Years and months -/

/-- Every fourth year is a leap year, but of the full centuries only every fourth. -/
def IsLeap (y : Int) : Prop := y % 4 = 0 ∧ (y % 100 ≠ 0 ∨ y % 400 = 0)

instance (y : Int) : Decidable (IsLeap y) := by unfold IsLeap; infer_instance

def yearLength (y : Int) : Int := if IsLeap y then 366 else 365

def commonMonthLength (m : Int) : Int :=
  if m = 2 then 28 else if m = 4 ∨ m = 6 ∨ m = 9 ∨ m = 11 then 30 else 31

/-- The number of days of month `m` in year `y`, for `m` from 1 to 12. -/
def monthLength (y m : Int) : Int := if m = 2 ∧ IsLeap y then 29 else commonMonthLength m

/-- The number of days of the month at position `m` of the table of months. Positions 1 to 12
count from January; positions 0 down to -11 count back from December, and there February has
its 28 days of a common year. -/
def monthLength? (y m : Int) : Option Int :=
  if 1 ≤ m ∧ m ≤ 12 then some (monthLength y m)
  else if -11 ≤ m ∧ m ≤ 0 then some (commonMonthLength (m + 12))
  else none

/-! ## Day numbers -/

structure Date where
  year : Int
  month : Int
  day : Int
deriving DecidableEq

/-- The days from 1 March of year 0 to 1 March of year `y`. -/
def daysToMarch (y : Int) : Int := 365 * y + y / 4 - y / 100 + y / 400

/-- The days from 1 March to the first of the month `m` months later, `m` from 0 to 11. -/
def daysFromMarch (m : Int) : Int := (153 * m + 2) / 5

/-- The number of 1 March of year 0. -/
def marchZero : Int := 1721120

/-- The number of day `d` of month `m` of year `y`. The month and the day may lie outside
their ranges and are then counted on into the neighbouring years and months. -/
def dayNumber (y m d : Int) : Int :=
  daysToMarch (y + (m - 3) / 12) + daysFromMarch ((m - 3) % 12) + (marchZero - 1) + d

def ofDayNumber (j : Int) : Date :=
  let n := j - marchZero
  let century := (4 * n + 3) / 146097
  let dayOfCentury := n - 146097 * century / 4
  let yearOfCentury := (4 * dayOfCentury + 3) / 1461
  let dayOfYear := dayOfCentury - 1461 * yearOfCentury / 4
  let month := (5 * dayOfYear + 2) / 153
  { year := 100 * century + yearOfCentury + month / 10
    month := month + 3 - 12 * (month / 10)
    day := dayOfYear - daysFromMarch month + 1 }

/-- The number of a day whose month and day may run over: the month is first brought into
1 to 12 with its year, then the days are counted from the first of the month. -/
def lenientDayNumber (y m d : Int) : Int :=
  dayNumber (y + (m - 1) / 12) ((m - 1) % 12 + 1) 1 + d - 1

/-- 1 for the first seven days of a month, 2 for the next seven, and so on. -/
def sevenDayStep (d : Int) : Int := (d - 1) / 7 + 1

/-- The day of the week, 1 for Sunday to 7 for Saturday. -/
def dayOfWeek (j : Int) : Int := (j + 1) % 7 + 1

def dayNames : List String :=
  ["Sunday", "Monday", "Tuesday", "Wednesday", "Thursday", "Friday", "Saturday"]

def dayName (j : Int) : String := dayNames.getD (dayOfWeek j - 1).toNat ""

end EraChronology.Gregorian
