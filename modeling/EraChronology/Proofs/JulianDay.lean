import EraChronology.Proofs.DayNumber

set_option autoImplicit false

/-! # The Julian day formulas

Julian days are mostly counted by a pair of closed formulas, those of Fliegel and Van Flandern:
`julianDay` from a date to its number and `ofJulianDay` back. Both start from 1 March of the year
-4800, the first of a cycle of 400 years, and shift the count at the end.

They count as `dayNumber` and `ofDayNumber` do, whatever integers they are given
(`julianDay_eq_dayNumber`, `ofJulianDay_eq_ofDayNumber`). So the formulas match the dates that exist
with all integers, one to one and in order (`dayNumber_correspondence`).
-/

namespace EraChronology.Gregorian

/-- The number of a day by the closed formula. January and February are counted in the year
before, as its months 10 and 11. -/
def julianDay (y m d : Int) : Int :=
  let a := (14 - m) / 12
  let year := y + 4800 - a
  let month := m + 12 * a - 3
  d + (153 * month + 2) / 5 + 365 * year + year / 4 - year / 100 + year / 400 - 32045

/-- The day of a day number by the closed formula. -/
def ofJulianDay (j : Int) : Date :=
  let a := j + 32044
  let century := (4 * a + 3) / 146097
  let dayOfCentury := a - 146097 * century / 4
  let yearOfCentury := (4 * dayOfCentury + 3) / 1461
  let dayOfYear := dayOfCentury - 1461 * yearOfCentury / 4
  let month := (5 * dayOfYear + 2) / 153
  { year := 100 * century + yearOfCentury - 4800 + month / 10
    month := month + 3 - 12 * (month / 10)
    day := dayOfYear - (153 * month + 2) / 5 + 1 }

/-- The shift of the count: the days from 1 March of the year -4800 to 1 March of year 0. -/
theorem daysToMarch_add_cycles (y : Int) : daysToMarch (y + 4800) = daysToMarch y + 1753164 := by
  unfold daysToMarch
  omega

theorem julianDay_eq_dayNumber (y m d : Int) : julianDay y m d = dayNumber y m d := by
  -- The two roundings of the month differ in sign alone.
  have hcarry : (14 - m) / 12 = -((m - 3) / 12) := by omega
  have hmonth : m + 12 * ((14 - m) / 12) - 3 = (m - 3) % 12 := by omega
  have hyear : y + 4800 - (14 - m) / 12 = y + (m - 3) / 12 + 4800 := by omega
  have hshift := daysToMarch_add_cycles (y + (m - 3) / 12)
  have hzero : marchZero = 1721120 := rfl
  simp only [julianDay, hmonth, hyear]
  unfold dayNumber daysFromMarch
  unfold daysToMarch at hshift ⊢
  omega

theorem ofJulianDay_eq_ofDayNumber (j : Int) : ofJulianDay j = ofDayNumber j := by
  have hzero : marchZero = 1721120 := rfl
  -- The formula starts 48 centuries earlier, which are twelve whole cycles of days.
  have hcentury : (4 * (j + 32044) + 3) / 146097 = (4 * (j - marchZero) + 3) / 146097 + 48 := by
    omega
  have hday : j + 32044 - 146097 * ((4 * (j - marchZero) + 3) / 146097 + 48) / 4 =
      j - marchZero - 146097 * ((4 * (j - marchZero) + 3) / 146097) / 4 := by omega
  simp only [ofJulianDay, ofDayNumber, daysFromMarch, hcentury, hday, Date.mk.injEq, and_true]
  omega

theorem ofDayNumber_before_iff (j k : Int) : (ofDayNumber j).Before (ofDayNumber k) ↔ j < k := by
  rw [← dayNumber_lt_iff (isValid_ofDayNumber j) (isValid_ofDayNumber k), dayNumber_ofDayNumber,
    dayNumber_ofDayNumber]

/-- The closed formulas count days. The dates that exist and the integers correspond one to one,
each way is the inverse of the other, and both keep the order. -/
theorem dayNumber_correspondence :
    (∀ y m d : Int, dayNumber y m d = julianDay y m d) ∧
    (∀ j : Int, ofDayNumber j = ofJulianDay j) ∧
    (∀ y m d : Int, 1 ≤ m ∧ m ≤ 12 → 1 ≤ d ∧ d ≤ monthLength y m →
      ofDayNumber (dayNumber y m d) = ⟨y, m, d⟩) ∧
    (∀ j : Int, (ofDayNumber j).IsValid ∧
      dayNumber (ofDayNumber j).year (ofDayNumber j).month (ofDayNumber j).day = j) ∧
    (∀ g h : Date, g.IsValid → h.IsValid →
      (dayNumber g.year g.month g.day < dayNumber h.year h.month h.day ↔ g.Before h)) ∧
    ∀ j k : Int, (ofDayNumber j).Before (ofDayNumber k) ↔ j < k := by
  refine ⟨?_, ?_, ?_, ?_, ?_, ofDayNumber_before_iff⟩
  · intro y m d
    exact (julianDay_eq_dayNumber y m d).symm
  · intro j
    exact (ofJulianDay_eq_ofDayNumber j).symm
  · intro y m d hm hd
    exact ofDayNumber_of_mem hm hd
  · intro j
    exact ⟨isValid_ofDayNumber j, dayNumber_ofDayNumber j⟩
  · intro g h hg hh
    exact dayNumber_lt_iff hg hh

/-- The leap day before the day the formulas start from, where their count is negative. -/
theorem dayNumber_correspondence_leapDay :
    (1 ≤ (29 : Int) ∧ 29 ≤ monthLength (-4800) 2) ∧
      ofDayNumber (dayNumber (-4800) 2 29) = ⟨-4800, 2, 29⟩ :=
  ⟨by decide, dayNumber_correspondence.2.2.1 (-4800) 2 29 (by decide) (by decide)⟩

end EraChronology.Gregorian
