import EraChronology.Error
import EraChronology.Gregorian
import EraChronology.Instant

set_option autoImplicit false

/-! # Civil dates

Gregorian dates as they are entered by hand: the years 1 to 9999, and only days that exist.
Written out, a day has year, month and day, whatever its year.
-/

namespace EraChronology.Gregorian

/-- A number that fits into a signed word of 32 bits. -/
def FitsWord (n : Int) : Prop := -2147483648 ≤ n ∧ n ≤ 2147483647

instance (n : Int) : Decidable (FitsWord n) := by unfold FitsWord; infer_instance

/-- The number of a civil date. A part that does not fit into a word is refused before any
other; then year, month and day are checked in this order. -/
def civilDay? (y m d : Int) : Except Error Int :=
  if ¬ (FitsWord y ∧ FitsWord m ∧ FitsWord d) then .error .wordSize
  else if ¬ (1 ≤ y ∧ y ≤ 9999) then .error (.input (.civilYear y))
  else if ¬ (1 ≤ m ∧ m ≤ 12) then .error (.input .civilMonth)
  else if ¬ (1 ≤ d ∧ d ≤ monthLength y m) then .error (.input .civilDay)
  else .ok (dayNumber y m d)

def civilInstant? (y m d : Int) : Except Error Int := (civilDay? y m d).map midnight

/-- The first instant of a day, without any check. -/
def since (y m d : Int) : Int := midnight (dayNumber y m d)

def isoDay (j : Int) : Except Error String :=
  let g := ofDayNumber j
  writing [g.year, g.month, g.day] (Text.isoDate g.year g.month g.day)

end EraChronology.Gregorian
