import EraChronology.Calendar.FieldRange
import EraChronology.Proofs.EraTable.LastYear
import EraChronology.Proofs.WeekRule

set_option autoImplicit false

/-! # Years that are like each other

A Gregorian year is fixed by its length and the weekday of its New Year. All fourteen kinds are
found among the 28 years of the cycle (`exists_cycleYear`), and weeks are numbered alike in periods
that are whole weeks apart. So the limits of the weeks over the cycle are those over all years and
months (`leastWeeksOfYear_le`, `gregorianWeeksOfMonth_mem`).
-/

namespace EraChronology

namespace Gregorian

variable {y z m : Int}

theorem monthLength_congr (h : yearLength y = yearLength z) (m : Int) :
    monthLength y m = monthLength z m := by
  by_cases hm : m = 2
  · rw [hm, monthLength_two, monthLength_two, h]
  · rw [monthLength_of_ne_two y hm, monthLength_of_ne_two z hm]

/-- The days before a month depend on the length of the year only. -/
theorem firstOfMonth_congr (h : yearLength y = yearLength z) (hm : 1 ≤ m ∧ m ≤ 12) :
    dayNumber y m 1 - dayNumber y 1 1 = dayNumber z m 1 - dayNumber z 1 1 := by
  have hy := daysToMarch_add_one (y - 1)
  have hz := daysToMarch_add_one (z - 1)
  rw [Int.sub_add_cancel] at hy hz
  have hmonth : (m - 3) / 12 = -1 ∨ (m - 3) / 12 = 0 := by omega
  have hone : (1 - 3 : Int) / 12 = -1 := by decide
  unfold dayNumber
  rw [hone, ← Int.sub_eq_add_neg, ← Int.sub_eq_add_neg]
  rcases hmonth with hquot | hquot
  · rw [hquot, ← Int.sub_eq_add_neg, ← Int.sub_eq_add_neg]
    omega
  · rw [hquot, Int.add_zero, Int.add_zero]
    omega

end Gregorian

/-! ## Periods that are whole weeks apart -/

namespace WeekRule

variable (w : WeekRule) (a b k : Int)

theorem maxWeekOfYear_whole_add :
    w.maxWeekOfYear (.whole (a + 7 * k) (b + 7 * k)) = w.maxWeekOfYear (.whole a b) := by
  unfold maxWeekOfYear Span.whole
  simp only [rolledTail_add_seven_mul]
  cases w.rolledTail b with
  | none => simp only [Option.map_none, weekNumber_add_seven_mul]
  | some tail =>
      have hmoved : (if tail + 7 * k ≤ b + 7 * k then tail + 7 * k - 1 else b + 7 * k) =
          (if tail ≤ b then tail - 1 else b) + 7 * k := by
        split <;> split <;> omega
      simp only [Option.map_some, hmoved, weekNumber_add_seven_mul]

theorem weekOfMonth_whole (j : Int) : w.weekOfMonth (.whole a b) j = w.weekNumber a j := by
  simp [weekOfMonth, Span.truncatedStart, Span.whole]

theorem minWeekOfMonth_whole : w.minWeekOfMonth (.whole a b) = w.weekNumber a a :=
  w.weekOfMonth_whole a b a

theorem maxWeekOfMonth_whole : w.maxWeekOfMonth (.whole a b) = w.weekNumber a b :=
  w.weekOfMonth_whole a b b

end WeekRule

/-! ## The cycle -/

namespace Calendar

variable (w : WeekRule)

/-- Every year is like one of the cycle: as long, and whole weeks apart from it. -/
theorem exists_cycleYear (y : Int) :
    ∃ z ∈ cycleYears, Gregorian.yearLength y = Gregorian.yearLength z ∧
      ∃ k, Gregorian.dayNumber y 1 1 = Gregorian.dayNumber z 1 1 + 7 * k := by
  have hkinds : ∀ length ∈ [365, 366], ∀ weekday ∈ [0, 1, 2, 3, 4, 5, 6],
      ∃ z ∈ cycleYears, length = Gregorian.yearLength z ∧
        (weekday : Int) = Gregorian.dayNumber z 1 1 % 7 := by
    decide +kernel
  have hlength := Gregorian.yearLength_mem y
  obtain ⟨z, hz, hsame, hweekday⟩ := hkinds (Gregorian.yearLength y) (by simpa using hlength)
    (Gregorian.dayNumber y 1 1 % 7) (by simp only [List.mem_cons, List.not_mem_nil]; omega)
  exact ⟨z, hz, hsame, (Gregorian.dayNumber y 1 1 - Gregorian.dayNumber z 1 1) / 7, by omega⟩

theorem leastWeeksOfYear_le (y : Int) :
    leastWeeksOfYear w ≤ w.maxWeekOfYear (gregorianYear y) := by
  obtain ⟨z, hz, hlength, k, hnew⟩ := exists_cycleYear y
  have hlike : w.maxWeekOfYear (gregorianYear y) = w.maxWeekOfYear (gregorianYear z) := by
    have hy := Gregorian.newYear_add_one y
    have hz := Gregorian.newYear_add_one z
    have heve : Gregorian.dayNumber y 12 31 = Gregorian.dayNumber z 12 31 + 7 * k := by
      rw [Gregorian.newYearsEve_eq, Gregorian.newYearsEve_eq]
      omega
    rw [gregorianYear, hnew, heve, w.maxWeekOfYear_whole_add]
    rfl
  rw [hlike]
  exact min?_getD_le (List.mem_map_of_mem hz) 0

/-- A month of any year is like the same month of a year of the cycle. -/
theorem exists_cycleMonth (y : Int) {m : Int} (hm : 1 ≤ m ∧ m ≤ 12) :
    ∃ z ∈ cycleYears,
      w.minWeekOfMonth (gregorianMonth y m) = w.minWeekOfMonth (gregorianMonth z m) ∧
      w.maxWeekOfMonth (gregorianMonth y m) = w.maxWeekOfMonth (gregorianMonth z m) := by
  obtain ⟨z, hz, hlength, k, hnew⟩ := exists_cycleYear y
  have hfirst : Gregorian.dayNumber y m 1 = Gregorian.dayNumber z m 1 + 7 * k := by
    have hsame := Gregorian.firstOfMonth_congr hlength hm
    omega
  have hlast : Gregorian.dayNumber y m 1 + Gregorian.monthLength y m - 1 =
      Gregorian.dayNumber z m 1 + Gregorian.monthLength z m - 1 + 7 * k := by
    rw [Gregorian.monthLength_congr hlength]
    omega
  refine ⟨z, hz, ?_, ?_⟩
  · simp only [gregorianMonth, w.minWeekOfMonth_whole, hfirst, w.weekNumber_add_seven_mul]
  · simp only [gregorianMonth, w.maxWeekOfMonth_whole, hlast]
    rw [hfirst, w.weekNumber_add_seven_mul]

theorem gregorianMonth_mem {z : Int} (hz : z ∈ cycleYears) {m : Int} (hm : 1 ≤ m ∧ m ≤ 12) :
    gregorianMonth z m ∈ cycleYears.flatMap gregorianMonths := by
  refine List.mem_flatMap.mpr ⟨z, hz, List.mem_map.mpr ⟨(m - 1).toNat, ?_, ?_⟩⟩
  · rw [List.mem_range]
    omega
  · congr 1
    omega

theorem gregorianWeeksOfMonth_mem (y : Int) {m : Int} (hm : 1 ≤ m ∧ m ≤ 12) :
    w.minWeekOfMonth (gregorianMonth y m) ≤ (gregorianWeeksOfMonth w).greatestMinimum ∧
      (gregorianWeeksOfMonth w).leastMaximum ≤ w.maxWeekOfMonth (gregorianMonth y m) := by
  obtain ⟨z, hz, hmin, hmax⟩ := exists_cycleMonth w y hm
  have hmem := gregorianMonth_mem hz hm
  simp only [gregorianWeeksOfMonth, hmin, hmax]
  -- The months of the cycle are not to be listed.
  generalize cycleYears.flatMap gregorianMonths = months at hmem ⊢
  exact ⟨le_max?_getD (List.mem_map_of_mem hmem) 0, min?_getD_le (List.mem_map_of_mem hmem) 0⟩

end Calendar

end EraChronology
