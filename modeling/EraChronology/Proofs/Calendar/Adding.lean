import EraChronology.Proofs.Calendar.AddingMonths
import EraChronology.Proofs.Calendar.Setting

set_option autoImplicit false

/-! # Adding to fields

Setting a field counts from the start of a period, adding to it from the date itself. The two move
to the same day when what is added is the difference to the value the field has
(`dayWith_eq_dayPlus`), and so they have the same outcome, be it a date or an error (`set_eq_add`).

The one exception is a day that the month moved to does not have (`HasDayIn`): setting runs over
into the month after it, adding stops at its last day.
-/

namespace EraChronology.Calendar

open Gregorian (dayNumber monthLength)

variable {c : Calendar} {f : Field} {x : EraDate} {v n : Int}

/-- The month that a date moves to has the day of the date. Of the fields that can be set only the
year and the month move to a month and keep the day; the month may be out of its range and is then
one of another year. -/
def HasDayIn (x : EraDate) (f : Field) (v : Int) : Prop :=
  match f with
  | .year => x.day ≤ monthLength (x.era.absoluteYear v) x.month
  | .month => x.day ≤ monthLength (x.absoluteYear + (v - 1) / 12) ((v - 1) % 12 + 1)
  | _ => True

/-- Where the month has the day, the months are only counted on. -/
theorem dayMonthsLater_eq
    (hday : x.day ≤ monthLength (x.absoluteYear + (x.month + n - 1) / 12)
      ((x.month + n - 1) % 12 + 1)) :
    dayMonthsLater x n = dayNumber x.absoluteYear (x.month + n) x.day := by
  have hlater : x.gregorian.IsMonthsLater n ⟨x.absoluteYear + (x.month + n - 1) / 12,
      (x.month + n - 1) % 12 + 1, x.day⟩ := by
    refine ⟨?_, ?_, (Int.min_eq_left hday).symm⟩
    · simp only
      omega
    · simp only [EraDate.gregorian]
      omega
  rw [dayMonthsLater_of_isMonthsLater hlater, Gregorian.dayNumber_carry]

theorem dayMonthsLater_of_month (hday : HasDayIn x .month v) :
    dayMonthsLater x (v - x.month) = Gregorian.lenientDayNumber x.absoluteYear v x.day := by
  have hmonth : x.month + (v - x.month) = v := by omega
  rw [Gregorian.lenientDayNumber_eq, dayMonthsLater_eq (by rw [hmonth]; exact hday), hmonth]

theorem dayMonthsLater_of_year (hm : 1 ≤ x.month ∧ x.month ≤ 12) (hday : HasDayIn x .year v) :
    dayMonthsLater x ((v - x.year) * 12) =
      Gregorian.lenientDayNumber (x.era.absoluteYear v) x.month x.day := by
  have hyear : x.absoluteYear + (v - x.year) = x.era.absoluteYear v := by
    unfold EraDate.absoluteYear Era.absoluteYear
    omega
  have hcarry : (x.month + (v - x.year) * 12 - 1) / 12 = v - x.year := by omega
  have hsame : (x.month + (v - x.year) * 12 - 1) % 12 + 1 = x.month := by omega
  rw [dayMonthsLater_eq (by rw [hcarry, hsame, hyear]; exact hday), Int.mul_comm,
    Gregorian.dayNumber_add_twelve_mul, hyear, Gregorian.lenientDayNumber_eq]

/-- Setting a field moves a date to the day that adding the difference moves it to. -/
theorem dayWith_eq_dayPlus (h : c.table.IsOrdered) (hx : c.IsDate x) (hweek : f ≠ .weekOfYear)
    (hmonth : f ≠ .weekOfMonth) (hday : HasDayIn x f v) :
    ∃ g, c.get x f = .ok g ∧ c.dayWith x f v = c.dayPlus x f (v - g) := by
  cases f with
  | era =>
      have hindex : x.era.index + (v - x.era.index) = v := by omega
      refine ⟨x.era.index, rfl, ?_⟩
      simp only [dayPlus, hindex]
  | year =>
      refine ⟨x.year, rfl, ?_⟩
      simp only [dayWith, dayPlus, dayMonthsLater_of_year (hx.month_mem h) hday]
  | month =>
      refine ⟨x.month, rfl, ?_⟩
      simp only [dayWith, dayPlus, dayMonthsLater_of_month hday]
  | dayOfMonth =>
      obtain ⟨r, one, -, hnum⟩ := exists_numbersDays_dayOfMonth h hx
      exact ⟨x.day, rfl, hnum.dayWith_eq_add h hx rfl⟩
  | dayOfYear =>
      obtain ⟨r, one, -, hnum⟩ := exists_numbersDays_dayOfYear h hx
      exact ⟨x.dayOfYear, rfl, hnum.dayWith_eq_add h hx rfl⟩
  | dayOfWeekInMonth => exact ⟨x.dayOfWeekInMonth, rfl, rfl⟩
  | weekOfYear => exact absurd rfl hweek
  | weekOfMonth => exact absurd rfl hmonth

/-- Setting a field is adding the difference to the value it has: the same date, or the same error.
For the year and the month the month that is moved to has to have the day of the date. -/
theorem set_eq_add {spec : Spec} (hc : ofSpec? spec = .ok c) (hx : c.IsDate x)
    (hweek : f ≠ .weekOfYear) (hmonth : f ≠ .weekOfMonth) (hday : HasDayIn x f v) :
    ∃ g, c.get x f = .ok g ∧ c.set x f v = c.add x f (v - g) := by
  have h := isOrdered_of_ofSpec? hc
  obtain ⟨g, hg, hsame⟩ := dayWith_eq_dayPlus h hx hweek hmonth hday
  refine ⟨g, hg, ?_⟩
  unfold set add
  rw [hsame]

/-- Month 14 of Showa 64 is 13 months after January, and February of Heisei 2. -/
theorem set_eq_add_showa :
    ∃ c x y, ofSpec? Spec.japanese = .ok c ∧ c.date? (.name "Showa") 64 1 7 0 = .ok x ∧
      c.set x .month 14 = .ok y ∧ y.key = [4, 2, 2, 7, 0] ∧ c.add x .month 13 = .ok y := by
  refine ⟨_, _, _, rfl, rfl, rfl, rfl, ?_⟩
  have hfebruary : (7 : Int) ≤ monthLength 1990 2 := by decide
  obtain ⟨g, hg, hsame⟩ := @set_eq_add _ .month _ 14 Spec.japanese rfl
    ⟨.name "Showa", 64, 1, 7, 0, rfl⟩ (by decide) (by decide) hfebruary
  cases hg
  exact hsame.symm

end EraChronology.Calendar
