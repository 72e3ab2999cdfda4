import EraChronology.Proofs.Calendar.Changes

set_option autoImplicit false

/-! # Adding months and years

Months are added in one count of all months, twelve to a year. The day of the month stays, or
becomes the last day of a month that does not have it (`Gregorian.Date.IsMonthsLater`). This is said
of Gregorian dates: the eras only number the years, and the date reached is in the era of its day
(`add_month_parts`).

Several days can become the same last day of a month. So dates in order stay in order, but different
dates need not stay different (`IsMonthsLater.not_before`).
-/

namespace EraChronology

namespace Gregorian.Date

variable {g g' h h' : Date} {n : Int}

/-- The date `h` is `n` months after `g`: on the same day of the month, or on the last day of a
month that is too short. -/
structure IsMonthsLater (g : Date) (n : Int) (h : Date) : Prop where
  month_mem : 1 ≤ h.month ∧ h.month ≤ 12
  months_eq : 12 * h.year + h.month = 12 * g.year + g.month + n
  day_eq : h.day = min g.day (monthLength h.year h.month)

theorem exists_isMonthsLater (g : Date) (n : Int) : ∃ h, g.IsMonthsLater n h := by
  -- Months are counted from 0 here, so that the quotient by 12 is the year for either sign.
  obtain ⟨months, hmonths⟩ : ∃ months, months = 12 * g.year + g.month - 1 + n := ⟨_, rfl⟩
  refine ⟨⟨months / 12, months % 12 + 1,
    min g.day (monthLength (months / 12) (months % 12 + 1))⟩, ?_, ?_, rfl⟩
  · simp only
    omega
  · simp only
    omega

theorem IsMonthsLater.isValid (hh : g.IsMonthsLater n h) (hg : g.IsValid) : h.IsValid := by
  have hlength := (monthLength_mem h.year h.month).1
  have hday := hg.2.1
  refine ⟨hh.month_mem, ?_, ?_⟩
  · rw [hh.day_eq]
    omega
  · rw [hh.day_eq]
    exact Int.min_le_right _ _

/-- Of two dates to which the same months are added, the later one does not become the earlier. -/
theorem IsMonthsLater.not_before (hh : g.IsMonthsLater n h) (hh' : g'.IsMonthsLater n h')
    (hm : 1 ≤ g.month ∧ g.month ≤ 12) (hm' : 1 ≤ g'.month ∧ g'.month ≤ 12)
    (horder : ¬ g'.Before g) : ¬ h'.Before h := by
  intro hbefore
  apply horder
  have hmonths := hh.months_eq
  have hmonths' := hh'.months_eq
  have hmem := hh.month_mem
  have hmem' := hh'.month_mem
  unfold Before
  rcases hbefore with hyear | ⟨hyear, hmonth | ⟨hmonth, hday⟩⟩
  · omega
  · omega
  · -- The dates started in one month as well, and both days are cut to the same length.
    rw [hh.day_eq, hh'.day_eq, hyear, hmonth] at hday
    omega

end Gregorian.Date

namespace Calendar

open Gregorian (dayNumber monthLength)

variable {c : Calendar} {x y : EraDate} {n : Int} {g : Gregorian.Date}

/-! ## The months of a date -/

/-- The day the months lead to is the one of the date that many months later. -/
theorem dayMonthsLater_of_isMonthsLater (hg : x.gregorian.IsMonthsLater n g) :
    dayMonthsLater x n = dayNumber g.year g.month g.day := by
  have hmonths : 12 * g.year + g.month = 12 * x.absoluteYear + x.month + n := hg.months_eq
  have hmem := hg.month_mem
  have hyear : (x.absoluteYear * 12 + x.month - 1 + n) / 12 = g.year := by omega
  have hmonth : (x.absoluteYear * 12 + x.month - 1 + n) % 12 + 1 = g.month := by omega
  unfold dayMonthsLater
  simp only [hyear, hmonth]
  rw [hg.day_eq]
  rfl

/-- Adding months leads to the date that many months later, if its instant is in range. -/
theorem add_month_eq_ok_iff (hx : IsTimeOfDay x.millis) (hg : x.gregorian.IsMonthsLater n g) :
    c.add x .month n = .ok y ↔
      c.table.Represents (midnight (dayNumber g.year g.month g.day) + x.millis) ∧
        c.dateOfDay (dayNumber g.year g.month g.day) x.millis = y := by
  rw [add_eq_ok_iff, ← dayMonthsLater_of_isMonthsLater hg, ← renormalize_eq_ok_iff hx]
  constructor
  · rintro ⟨j, hj, hy⟩
    cases hj
    exact hy
  · intro hy
    exact ⟨_, rfl, hy⟩

/-- The date reached is the date that many months later, at the time of day it was. -/
theorem isMonthsLater_of_add (h : c.table.IsOrdered) (hx : c.IsDate x)
    (hy : c.add x .month n = .ok y) :
    c.IsDate y ∧ y.millis = x.millis ∧ x.gregorian.IsMonthsLater n y.gregorian := by
  have hvalid := hx.isValid h
  have htime := ((isDate_iff h).mp hx).1
  obtain ⟨g, hg⟩ := x.gregorian.exists_isMonthsLater n
  obtain ⟨hrep, rfl⟩ := (add_month_eq_ok_iff htime hg).mp hy
  have hday := EraTable.representsDay_dayOfInstant hrep
  rw [dayOfInstant_midnight_add _ htime] at hday
  refine ⟨isDate_dateOfDay h hday htime, rfl, ?_⟩
  rw [gregorian_dateOfDay, Gregorian.ofDayNumber_dayNumber (hg.isValid hvalid)]
  exact hg

theorem dayNumber_le_of_add_month (h : c.table.IsOrdered) {x' y' : EraDate} (hx : c.IsDate x)
    (hx' : c.IsDate x') (hy : c.add x .month n = .ok y) (hy' : c.add x' .month n = .ok y')
    (hle : x.dayNumber ≤ x'.dayNumber) : y.dayNumber ≤ y'.dayNumber := by
  obtain ⟨hdate, -, hg⟩ := isMonthsLater_of_add h hx hy
  obtain ⟨hdate', -, hg'⟩ := isMonthsLater_of_add h hx' hy'
  have hvalid := hx.isValid h
  have hvalid' := hx'.isValid h
  have horder : ¬ x'.gregorian.Before x.gregorian := by
    rw [← Gregorian.dayNumber_lt_iff hvalid' hvalid]
    exact Int.not_lt.mpr hle
  have hkept := hg.not_before hg' hvalid.1 hvalid'.1 horder
  rw [← Gregorian.dayNumber_lt_iff (hdate'.isValid h) (hdate.isValid h)] at hkept
  exact Int.not_lt.mp hkept

theorem add_year_eq (c : Calendar) (x : EraDate) (n : Int) :
    c.add x .year n = c.add x .month (12 * n) := by
  unfold add dayPlus
  rw [Int.mul_comm]

/-! ## All additions of months and years -/

/-- Adding months to a date has an outcome exactly when the date that many months later has its
instant in range. The outcome has the year, the month and the day of this date, the time of day as
it was, and the era its day belongs to. Years are twelve months each, and dates stay in order. -/
theorem add_month_parts {spec : Spec} (hc : ofSpec? spec = .ok c) :
    (∀ x n y, c.IsDate x → c.add x .month n = .ok y →
      12 * y.absoluteYear + y.month = 12 * x.absoluteYear + x.month + n ∧
        (1 ≤ y.month ∧ y.month ≤ 12) ∧
        y.day = min x.day (monthLength y.absoluteYear y.month) ∧ y.millis = x.millis ∧
        y.era = c.table.eraOfDay y.dayNumber ∧ c.table.HasDay y.era y.dayNumber) ∧
    (∀ x n g, c.IsDate x → x.gregorian.IsMonthsLater n g →
      ((∃ y, c.add x .month n = .ok y) ↔
        c.table.Represents (midnight (dayNumber g.year g.month g.day) + x.millis))) ∧
    (∀ x n, c.add x .year n = c.add x .month (12 * n)) ∧
    ∀ x x' n y y', c.IsDate x → c.IsDate x' → c.add x .month n = .ok y →
      c.add x' .month n = .ok y' → x.dayNumber ≤ x'.dayNumber → y.dayNumber ≤ y'.dayNumber := by
  have h := isOrdered_of_ofSpec? hc
  refine ⟨?_, ?_, add_year_eq c, ?_⟩
  · intro x n y hx hy
    obtain ⟨hdate, hmillis, hg⟩ := isMonthsLater_of_add h hx hy
    obtain ⟨-, -, hera⟩ := (isDate_iff h).mp hdate
    exact ⟨hg.months_eq, hg.month_mem, hg.day_eq, hmillis, (congrArg EraDate.era hera).symm,
      (hdate.hasDay h).2⟩
  · intro x n g hx hg
    simp only [add_month_eq_ok_iff ((isDate_iff h).mp hx).1 hg, exists_and_left, exists_eq',
      and_true]
  · intro x x' n y y' hx hx' hy hy' hle
    exact dayNumber_le_of_add_month h hx hx' hy hy' hle

/-- A month after 31 January of Heisei 31 is its 28 February, four months after it 31 May of
Reiwa 1. -/
theorem add_month_parts_heisei :
    ∃ c x y z, ofSpec? Spec.japanese = .ok c ∧ c.date? (.name "Heisei") 31 1 31 0 = .ok x ∧
      c.add x .month 1 = .ok y ∧ y.key = [4, 31, 2, 28, 0] ∧
      y.day = min x.day (monthLength 2019 2) ∧
      c.add x .month 4 = .ok z ∧ z.key = [5, 1, 5, 31, 0] ∧
      12 * z.absoluteYear + z.month = 12 * x.absoluteYear + x.month + 4 := by
  refine ⟨_, _, _, _, rfl, rfl, rfl, rfl, ?_, rfl, rfl, ?_⟩
  · exact ((@add_month_parts _ Spec.japanese rfl).1 _ 1 _ ⟨.name "Heisei", 31, 1, 31, 0, rfl⟩
      rfl).2.2.1
  · exact ((@add_month_parts _ Spec.japanese rfl).1 _ 4 _ ⟨.name "Heisei", 31, 1, 31, 0, rfl⟩
      rfl).1

end Calendar

end EraChronology
