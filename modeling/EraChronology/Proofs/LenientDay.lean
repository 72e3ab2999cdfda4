import EraChronology.Proofs.JulianDay
import Mathlib.Algebra.Group.Basic
import Mathlib.Algebra.Group.Int.Defs
import Mathlib.Logic.Function.Iterate

set_option autoImplicit false

/-! # Months and days that run over

A day may be given by any month and any day of it: month 13 is January of the next year, and day 0
is the last day of the month before. `lenientDayNumber` finds the number of such a day with one
quotient and one remainder. The same day is reached on foot, by going from 1 January month by month
and then day by day, forward or back (`Date.walkTo`).

Months and days are both places on a line of integers, and one step moves to the next place or back
to the one before. So a walk of any length is known from its single steps (`walk_eq`).
-/

namespace EraChronology

/-! ## Walks -/

/-- As many steps as `n` says: with `next` forward, and with `previous` back if `n` is negative. -/
def walk {α : Type} (next previous : α → α) : Int → α → α
  | .ofNat n, a => next^[n] a
  | .negSucc n, a => previous^[n + 1] a

section

variable {α : Type} {next previous step : α → α} {place : Int → α}

/-- A step that goes on by `c` places goes on by `n` times as many when it is taken `n` times. -/
theorem iterate_place {c : Int} (hstep : Function.Semiconj place (· + c) step) (k : Int) (n : Nat) :
    step^[n] (place k) = place (k + n * c) := by
  calc step^[n] (place k)
      = place ((· + c)^[n] k) := (hstep.iterate_right n k).symm
    _ = place (k + n * c) := by rw [add_right_iterate_apply, Int.nsmul_eq_mul]

theorem walk_eq (hnext : Function.Semiconj place (· + 1) next)
    (hprevious : Function.Semiconj place (· - 1) previous) (k n : Int) :
    walk next previous n (place k) = place (k + n) := by
  cases n with
  | ofNat n =>
      show next^[n] (place k) = place (k + n)
      rw [iterate_place hnext, Int.mul_one]
  | negSucc n =>
      have hback : Function.Semiconj place (· + -1) previous := hprevious
      show previous^[n + 1] (place k) = place (k + Int.negSucc n)
      rw [iterate_place hback, Int.negSucc_eq]
      congr 1
      omega

end

namespace Gregorian

/-! ## Months -/

/-- The first of month `m` of year `y`, which is a month of another year if it runs over. -/
def monthStart (y m : Int) : Date := ⟨y + (m - 1) / 12, (m - 1) % 12 + 1, 1⟩

def Date.nextMonth (g : Date) : Date :=
  if g.month < 12 then ⟨g.year, g.month + 1, 1⟩ else ⟨g.year + 1, 1, 1⟩

def Date.previousMonth (g : Date) : Date :=
  if 1 < g.month then ⟨g.year, g.month - 1, 1⟩ else ⟨g.year - 1, 12, 1⟩

theorem monthStart_one (y : Int) : monthStart y 1 = ⟨y, 1, 1⟩ := by
  simp [monthStart]

theorem isValid_monthStart (y m : Int) : (monthStart y m).IsValid := by
  have hlength := monthLength_mem (y + (m - 1) / 12) ((m - 1) % 12 + 1)
  unfold monthStart
  refine ⟨⟨?_, ?_⟩, ?_, ?_⟩ <;> simp only <;> omega

theorem monthStart_add_one (y m : Int) : monthStart y (m + 1) = (monthStart y m).nextMonth := by
  unfold Date.nextMonth monthStart
  by_cases hin : (m - 1) % 12 + 1 < 12
  · have hyear : y + (m + 1 - 1) / 12 = y + (m - 1) / 12 := by omega
    have hmonth : (m + 1 - 1) % 12 = (m - 1) % 12 + 1 := by omega
    rw [if_pos hin, hyear, hmonth]
  · -- December is over, and the year with it.
    have hyear : y + (m + 1 - 1) / 12 = y + (m - 1) / 12 + 1 := by omega
    have hmonth : (m + 1 - 1) % 12 = 0 := by omega
    rw [if_neg hin, hyear, hmonth, Int.zero_add]

theorem monthStart_sub_one (y m : Int) :
    monthStart y (m - 1) = (monthStart y m).previousMonth := by
  unfold Date.previousMonth monthStart
  by_cases hin : 1 < (m - 1) % 12 + 1
  · have hyear : y + (m - 1 - 1) / 12 = y + (m - 1) / 12 := by omega
    have hmonth : (m - 1 - 1) % 12 + 1 = (m - 1) % 12 + 1 - 1 := by omega
    rw [if_pos hin, hyear, hmonth]
  · have hyear : y + (m - 1 - 1) / 12 = y + (m - 1) / 12 - 1 := by omega
    have hmonth : (m - 1 - 1) % 12 + 1 = 12 := by omega
    rw [if_neg hin, hyear, hmonth]

/-- A month that runs over is the one reached month by month. -/
theorem walk_monthStart (y m n : Int) :
    walk Date.nextMonth Date.previousMonth n (monthStart y m) = monthStart y (m + n) :=
  walk_eq (monthStart_add_one y) (monthStart_sub_one y) m n

/-! ## Days -/

/-- The day before a date: the one before it in the month, or the last of the month before. -/
def Date.previous (g : Date) : Date :=
  if 1 < g.day then { g with day := g.day - 1 }
  else { g.previousMonth with day := monthLength g.previousMonth.year g.previousMonth.month }

theorem Date.IsValid.previous_next {g : Date} (hg : g.IsValid) : g.next.previous = g := by
  rcases g with ⟨y, m, d⟩
  obtain ⟨⟨hfirst, hlast⟩, hone, hlength⟩ := hg
  simp only at hfirst hlast hone hlength
  by_cases hin : d < monthLength y m
  · have hlater : 1 < d + 1 := by omega
    simp only [Date.next, Date.previous, if_pos hin, if_pos hlater, Int.add_sub_cancel]
  · -- `d` is the last day of the month, and the next day is the first of a month.
    have hday : monthLength y m = d := by omega
    by_cases hyear : m < 12
    · have hback : 1 < m + 1 := by omega
      simp [Date.next, Date.previous, Date.previousMonth, hyear, hback, hday]
    · have hdecember : m = 12 := by omega
      subst hdecember
      simp [Date.next, Date.previous, Date.previousMonth, hday]

theorem ofDayNumber_sub_one (j : Int) : ofDayNumber (j - 1) = (ofDayNumber j).previous := by
  have hnext := ofDayNumber_add_one (j - 1)
  rw [Int.sub_add_cancel] at hnext
  rw [hnext, (isValid_ofDayNumber (j - 1)).previous_next]

/-- Day numbers count the days of a walk. -/
theorem walk_ofDayNumber (j n : Int) :
    walk Date.next Date.previous n (ofDayNumber j) = ofDayNumber (j + n) :=
  walk_eq ofDayNumber_add_one ofDayNumber_sub_one j n

/-! ## Lenient days -/

/-- The date that year, month and day lead to on foot: from 1 January month by month, then from the
first of that month day by day. -/
def Date.walkTo (y m d : Int) : Date :=
  walk Date.next Date.previous (d - 1)
    (walk Date.nextMonth Date.previousMonth (m - 1) ⟨y, 1, 1⟩)

theorem lenientDayNumber_add_twelve (y m d : Int) :
    lenientDayNumber y (m + 12) d = lenientDayNumber (y + 1) m d := by
  rw [lenientDayNumber_eq, lenientDayNumber_eq, dayNumber_add_twelve]

theorem lenientDayNumber_add (y m d n : Int) :
    lenientDayNumber y m (d + n) = lenientDayNumber y m d + n := by
  unfold lenientDayNumber
  omega

/-- From the first of a month to that of the next it is as many days as the month has, wherever the
month lies. -/
theorem lenientDayNumber_month_add_one (y m : Int) :
    lenientDayNumber y (m + 1) 1 =
      lenientDayNumber y m 1 + monthLength (y + (m - 1) / 12) ((m - 1) % 12 + 1) := by
  have hmonth : m + 1 = (m - 1) % 12 + 1 + 1 + 12 * ((m - 1) / 12) := by omega
  calc lenientDayNumber y (m + 1) 1
      = dayNumber y ((m - 1) % 12 + 1 + 1 + 12 * ((m - 1) / 12)) 1 := by
        rw [lenientDayNumber_eq, ← hmonth]
    _ = dayNumber (y + (m - 1) / 12) ((m - 1) % 12 + 1 + 1) 1 := dayNumber_add_twelve_mul ..
    _ = dayNumber (y + (m - 1) / 12) ((m - 1) % 12 + 1) 1 +
          monthLength (y + (m - 1) / 12) ((m - 1) % 12 + 1) :=
        dayNumber_month_add_one _ _ (by omega)
    _ = lenientDayNumber y m 1 + monthLength (y + (m - 1) / 12) ((m - 1) % 12 + 1) := by
        rw [dayNumber_carry, lenientDayNumber_eq]

theorem ofDayNumber_lenientDayNumber_one (y m : Int) :
    ofDayNumber (lenientDayNumber y m 1) = monthStart y m := by
  have hstart := ofDayNumber_dayNumber (isValid_monthStart y m)
  unfold monthStart at hstart ⊢
  rw [lenientDayNumber_eq, ← dayNumber_carry]
  exact hstart

/-- A lenient day is the one reached on foot. -/
theorem ofDayNumber_lenientDayNumber (y m d : Int) :
    ofDayNumber (lenientDayNumber y m d) = Date.walkTo y m d := by
  have hmonth : 1 + (m - 1) = m := by omega
  have hday : 1 + (d - 1) = d := by omega
  unfold Date.walkTo
  rw [← monthStart_one, walk_monthStart, hmonth, ← ofDayNumber_lenientDayNumber_one,
    walk_ofDayNumber, ← lenientDayNumber_add, hday]

/-- Months carry into years and days into months. Twelve months more are a year more, a day more is
the next day, and from the first of a month to that of the next it is the length of the month in the
year it runs over into. On dates that exist, as on all others, the number is that of the closed
formula. So a lenient day is the one reached from 1 January month by month and then day by day. -/
theorem lenientDayNumber_carries :
    (∀ y m d, lenientDayNumber y (m + 12) d = lenientDayNumber (y + 1) m d) ∧
    (∀ y m d, lenientDayNumber y m (d + 1) = lenientDayNumber y m d + 1) ∧
    (∀ y m, monthLength? (y + (m - 1) / 12) ((m - 1) % 12 + 1) =
      some (lenientDayNumber y (m + 1) 1 - lenientDayNumber y m 1)) ∧
    (∀ y m d, lenientDayNumber y m d = dayNumber y m d ∧ dayNumber y m d = julianDay y m d) ∧
    ∀ y m d, (Date.walkTo y m d).IsValid ∧
      lenientDayNumber y m d =
        dayNumber (Date.walkTo y m d).year (Date.walkTo y m d).month (Date.walkTo y m d).day := by
  refine ⟨lenientDayNumber_add_twelve, ?_, ?_, ?_, ?_⟩
  · intro y m d
    exact lenientDayNumber_add y m d 1
  · intro y m
    have hmem : 1 ≤ (m - 1) % 12 + 1 ∧ (m - 1) % 12 + 1 ≤ 12 := by omega
    have hadd := lenientDayNumber_month_add_one y m
    unfold monthLength?
    rw [if_pos hmem, Option.some.injEq]
    omega
  · intro y m d
    exact ⟨lenientDayNumber_eq y m d, (julianDay_eq_dayNumber y m d).symm⟩
  · intro y m d
    rw [← ofDayNumber_lenientDayNumber]
    exact ⟨isValid_ofDayNumber _, (dayNumber_ofDayNumber _).symm⟩

/-- Day 0 of month 15 of 2019 is the last day of February in the next year. -/
example : Date.walkTo 2019 15 0 = ⟨2020, 2, 29⟩ ∧
    lenientDayNumber 2019 15 0 = dayNumber 2020 2 29 := by decide

end Gregorian

end EraChronology
