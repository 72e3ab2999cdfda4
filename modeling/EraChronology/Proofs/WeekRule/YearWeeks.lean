import EraChronology.Proofs.Calendar.Limits
import EraChronology.Proofs.WeekRule.Counting

set_option autoImplicit false

/-! # The weeks of Gregorian years

A year takes the weeks from its week 1 up to week 1 of the next year. That is the same whether one
asks which week of a year is its last (`rolledTail_eq_some_iff`) or how many weeks a year has
(`seven_mul_maxWeekOfYear`): so consecutive years share out the weeks (`existsUnique_weekOfYears`).

What is needed of the calendar is that a year has 365 or 366 days (`firstWeekOfYear_add_one`).
-/

namespace EraChronology.WeekRule

variable (w : WeekRule) {a b j s y : Int}

def firstWeekOfYear (y : Int) : Int := w.firstWeek (Gregorian.dayNumber y 1 1)

/-! ## Week 1 of two periods -/

/-- Week 1 has enough days of the period, and the week before it has not. -/
theorem firstWeek_window (a : Int) :
    a ≤ w.lastBeginning (w.firstWeek a) ∧ w.lastBeginning (w.firstWeek a - 7) < a := by
  obtain ⟨⟨hstart, hbegun⟩, hleast⟩ := w.isLeast_firstWeek a
  refine ⟨hbegun, ?_⟩
  by_contra hearlier
  have hle := hleast ⟨hstart.sub_seven, Int.not_lt.mp hearlier⟩
  omega

/-- Week 1 of a later period begins whole weeks after that of an earlier one. -/
theorem exists_firstWeek_eq_add (h : a ≤ b) :
    ∃ k : Nat, w.firstWeek b = w.firstWeek a + 7 * (k : Int) := by
  obtain ⟨hstart, hbegun⟩ := (w.isLeast_firstWeek b).1
  exact (w.mem_weeksFrom_iff a _).mp ⟨hstart, Int.le_trans h hbegun⟩

theorem weekNumber_eq_one_iff (a s : Int) :
    w.IsWeekStart s ∧ w.weekNumber a s = 1 ↔ s = w.firstWeek a := by
  constructor
  · rintro ⟨hs, hone⟩
    have hpos := (w.one_le_weekNumber_iff a s).mp (Int.le_of_eq hone.symm)
    rw [weekStart_eq_of_mem hs ⟨Int.le_refl s, by omega⟩] at hpos
    obtain ⟨k, hk⟩ := (w.mem_weeksFrom_iff a s).mp ⟨hs, hpos⟩
    unfold weekNumber at hone
    omega
  · rintro rfl
    refine ⟨(w.isLeast_firstWeek a).1.1, ?_⟩
    unfold weekNumber
    omega

/-- The last week before the day `a` is counted from `a` exactly when week 1 begins before `a`, and
then it is week 1. -/
theorem rolledTail_eq_some_iff (a s : Int) :
    w.rolledTail (a - 1) = some s ↔ w.firstWeek a < a ∧ s = w.firstWeek a := by
  have hdays := w.minimalDays_mem
  have hle := w.weekStart_le a
  have hwindow := w.firstWeek_window a
  have hfirst := (w.isLeast_firstWeek a).1.1
  rw [rolledTail_eq, Int.sub_add_cancel]
  unfold lastBeginning at hwindow ⊢
  by_cases hbegins : w.firstWeek a < a
  · have hsame : w.weekStart a = w.firstWeek a :=
      weekStart_eq_of_mem hfirst ⟨by omega, by omega⟩
    rw [hsame, if_pos ⟨by omega, by omega⟩, Option.some.injEq]
    exact ⟨fun hs => ⟨hbegins, hs.symm⟩, fun hs => hs.2.symm⟩
  · -- The week of the day `a` begins on `a` or is not long enough.
    have hnext := hfirst.le (w.isWeekStart_weekStart a)
    rw [if_neg (by omega)]
    simp [hbegins]

/-- A period that goes on to the day before `b` has the weeks from its week 1 up to that of a period
that begins with `b`. -/
theorem seven_mul_maxWeekOfYear (hab : a ≤ b) (hfirst : w.firstWeek a < w.firstWeek b) :
    7 * w.maxWeekOfYear (.whole a (b - 1)) = w.firstWeek b - w.firstWeek a := by
  obtain ⟨k, hk⟩ := w.exists_firstWeek_eq_add hab
  have hwindow := w.firstWeek_window b
  have hdays := w.minimalDays_mem
  unfold lastBeginning at hwindow
  unfold maxWeekOfYear Span.whole weekNumber
  cases htail : w.rolledTail (b - 1) with
  | none =>
      have hlate : ¬ w.firstWeek b < b := by
        intro hbegins
        have hsome := (w.rolledTail_eq_some_iff b _).mpr ⟨hbegins, rfl⟩
        rw [htail] at hsome
        cases hsome
      simp only
      omega
  | some tail =>
      obtain ⟨hbegins, rfl⟩ := (w.rolledTail_eq_some_iff b tail).mp htail
      simp only
      rw [if_pos (by omega)]
      omega

/-! ## Gregorian years -/

theorem gregorianYear_eq (y : Int) :
    Calendar.gregorianYear y =
      .whole (Gregorian.dayNumber y 1 1) (Gregorian.dayNumber (y + 1) 1 1 - 1) := by
  unfold Calendar.gregorianYear
  rw [Gregorian.newYearsEve_eq]

theorem firstWeekOfYear_add_one (y : Int) :
    w.firstWeekOfYear (y + 1) - w.firstWeekOfYear y = 364 ∨
      w.firstWeekOfYear (y + 1) - w.firstWeekOfYear y = 371 := by
  have hadd := Gregorian.newYear_add_one y
  have hlength := Gregorian.yearLength_mem y
  have hwindow := w.firstWeek_window (Gregorian.dayNumber y 1 1)
  have hnext := w.firstWeek_window (Gregorian.dayNumber (y + 1) 1 1)
  obtain ⟨k, hk⟩ := w.exists_firstWeek_eq_add
    (show Gregorian.dayNumber y 1 1 ≤ Gregorian.dayNumber (y + 1) 1 1 by omega)
  unfold lastBeginning at hwindow hnext
  unfold firstWeekOfYear
  omega

theorem firstWeekOfYear_le {y z : Int} (h : y ≤ z) : w.firstWeekOfYear y ≤ w.firstWeekOfYear z :=
  w.firstWeek_le_firstWeek (Gregorian.newYear_le h)

theorem seven_mul_weeksOfYear (y : Int) :
    7 * w.maxWeekOfYear (Calendar.gregorianYear y) =
      w.firstWeekOfYear (y + 1) - w.firstWeekOfYear y := by
  have hadd := w.firstWeekOfYear_add_one y
  unfold firstWeekOfYear at hadd ⊢
  rw [gregorianYear_eq]
  exact w.seven_mul_maxWeekOfYear (Gregorian.newYear_le (by omega)) (by omega)

/-- The number of a day is one of the weeks of a year when its week begins in the weeks that the
year takes. -/
theorem mem_weeksOfYear_iff (y j : Int) :
    (1 ≤ w.weekNumber (Gregorian.dayNumber y 1 1) j ∧
      w.weekNumber (Gregorian.dayNumber y 1 1) j ≤ w.maxWeekOfYear (Calendar.gregorianYear y)) ↔
      w.firstWeekOfYear y ≤ j ∧ j < w.firstWeekOfYear (y + 1) := by
  have hweeks := w.seven_mul_weeksOfYear y
  unfold firstWeekOfYear at hweeks ⊢
  unfold weekNumber
  omega

/-- Every day lies in the weeks of one year: that of its date, the one before or the one after. -/
theorem exists_year_of_week (j : Int) :
    ∃ y, w.firstWeekOfYear y ≤ j ∧ j < w.firstWeekOfYear (y + 1) := by
  obtain ⟨hnew, hold⟩ := (Gregorian.year_ofDayNumber_eq_iff j _).mp rfl
  rw [Gregorian.newYearsEve_eq] at hold
  have hprevious := w.firstWeek_mem (Gregorian.dayNumber ((Gregorian.ofDayNumber j).year - 1) 1 1)
  have hthis := w.firstWeek_mem (Gregorian.dayNumber (Gregorian.ofDayNumber j).year 1 1)
  have hnext := w.firstWeek_mem (Gregorian.dayNumber ((Gregorian.ofDayNumber j).year + 1) 1 1)
  have hshort := w.firstWeekOfYear_add_one ((Gregorian.ofDayNumber j).year - 1)
  have hlong := w.firstWeekOfYear_add_one ((Gregorian.ofDayNumber j).year + 1)
  rw [Int.sub_add_cancel] at hshort
  unfold firstWeekOfYear at hshort hlong ⊢
  by_cases hearly : j < w.firstWeek (Gregorian.dayNumber (Gregorian.ofDayNumber j).year 1 1)
  · refine ⟨(Gregorian.ofDayNumber j).year - 1, by omega, ?_⟩
    rw [Int.sub_add_cancel]
    exact hearly
  · by_cases hlate : w.firstWeek (Gregorian.dayNumber ((Gregorian.ofDayNumber j).year + 1) 1 1) ≤ j
    · exact ⟨(Gregorian.ofDayNumber j).year + 1, hlate, by omega⟩
    · exact ⟨(Gregorian.ofDayNumber j).year, by omega, by omega⟩

theorem year_of_week_le {y z : Int} (hy : w.firstWeekOfYear y ≤ j)
    (hz : j < w.firstWeekOfYear (z + 1)) : y ≤ z := by
  by_contra hlater
  have hle := w.firstWeekOfYear_le (show z + 1 ≤ y by omega)
  omega

/-- No week is lost and none is counted twice. -/
theorem existsUnique_weekOfYears (j : Int) :
    ∃! p : Int × Int, 1 ≤ p.2 ∧ p.2 ≤ w.maxWeekOfYear (Calendar.gregorianYear p.1) ∧
      w.weekNumber (Gregorian.dayNumber p.1 1 1) j = p.2 := by
  obtain ⟨y, hy⟩ := w.exists_year_of_week j
  obtain ⟨hone, hmax⟩ := (w.mem_weeksOfYear_iff y j).mpr hy
  refine ⟨(y, w.weekNumber (Gregorian.dayNumber y 1 1) j), ⟨hone, hmax, rfl⟩, ?_⟩
  rintro ⟨z, n⟩ ⟨hpos, hle, hnumber⟩
  simp only at hpos hle hnumber
  subst hnumber
  have hz := (w.mem_weeksOfYear_iff z j).mp ⟨hpos, hle⟩
  have hsame : z = y :=
    Int.le_antisymm (w.year_of_week_le hz.1 hy.2) (w.year_of_week_le hy.1 hz.2)
  rw [hsame]

/-- Consecutive years share out the weeks. Week 1 of a year is its one week of that number. The last
week of a year is counted in the next one exactly when week 1 of the next year begins before New
Year, and then it is that week. The weeks of an uncut year go from its week 1 up to that of the next
year, 52 or 53 of them. So every day is in one week of one year. -/
theorem years_share_weeks (w : WeekRule) :
    (∀ y s, w.IsWeekStart s ∧ w.weekNumber (Gregorian.dayNumber y 1 1) s = 1 ↔
      s = w.firstWeekOfYear y) ∧
    (∀ y s, w.rolledTail (Gregorian.dayNumber (y + 1) 1 1 - 1) = some s ↔
      w.firstWeekOfYear (y + 1) < Gregorian.dayNumber (y + 1) 1 1 ∧
        s = w.firstWeekOfYear (y + 1)) ∧
    (∀ y (s : Span), s.IsWhole → s.natural = Calendar.gregorianYear y →
      7 * w.maxWeekOfYear s = w.firstWeekOfYear (y + 1) - w.firstWeekOfYear y) ∧
    (∀ y, w.firstWeekOfYear (y + 1) - w.firstWeekOfYear y = 364 ∨
      w.firstWeekOfYear (y + 1) - w.firstWeekOfYear y = 371) ∧
    ∀ j, ∃! p : Int × Int, 1 ≤ p.2 ∧ p.2 ≤ w.maxWeekOfYear (Calendar.gregorianYear p.1) ∧
      w.weekNumber (Gregorian.dayNumber p.1 1 1) j = p.2 := by
  refine ⟨?_, ?_, ?_, w.firstWeekOfYear_add_one, w.existsUnique_weekOfYears⟩
  · intro y s
    exact w.weekNumber_eq_one_iff _ s
  · intro y s
    exact w.rolledTail_eq_some_iff _ s
  · intro y s hwhole hnatural
    rw [w.maxWeekOfYear_of_isWhole hwhole, hnatural]
    exact w.seven_mul_weeksOfYear y

/-- By the weeks of the ISO calendar 2020 has 53 weeks, from 30 December 2019 up to 4 January 2021.
The year is uncut in Japan, where it is the second of Reiwa. -/
theorem years_share_weeks_reiwa :
    ∃ c e s w, Calendar.ofSpec? Spec.japanese = .ok c ∧ c.table.byName? "Reiwa" = .ok e ∧
      c.yearSpan e 2 = .ok s ∧ ofSettings? 2 4 = .ok w ∧ s.IsWhole ∧
      s.natural = Calendar.gregorianYear 2020 ∧ 7 * w.maxWeekOfYear s = 371 := by
  refine ⟨_, _, _, _, rfl, rfl, rfl, rfl, ⟨by decide, by decide, by decide⟩, by decide, ?_⟩
  exact (years_share_weeks ⟨2, 4, by decide, by decide⟩).2.2.1 2020 _
    ⟨by decide, by decide, by decide⟩ (by decide)

end EraChronology.WeekRule
