import EraChronology.Gregorian

set_option autoImplicit false

/-! # Day numbers and Gregorian dates

`dayNumber` and `ofDayNumber` are inverse to each other: every integer is the number of exactly
one date that exists (`dayNumber_ofDayNumber`, `isValid_ofDayNumber`, `ofDayNumber_dayNumber`),
later dates have greater numbers (`dayNumber_lt_of_before`), and the next number is that of the next
date (`ofDayNumber_add_one`).

The work is done on years that begin in March. There the lengths of the months follow
`daysFromMarch` up to the last month, which alone depends on the leap rule
(`exists_march_ofDayNumber`). What a year and a month of January style hold follows as two
intervals of day numbers (`year_ofDayNumber_eq_iff`, `month_ofDayNumber_eq_iff`).
-/

namespace EraChronology.Gregorian

def Date.IsValid (g : Date) : Prop :=
  (1 ≤ g.month ∧ g.month ≤ 12) ∧ 1 ≤ g.day ∧ g.day ≤ monthLength g.year g.month

instance (g : Date) : Decidable g.IsValid := by unfold Date.IsValid; infer_instance

/-- Earlier by the year, in the same year by the month, in the same month by the day. -/
def Date.Before (g h : Date) : Prop :=
  g.year < h.year ∨ g.year = h.year ∧ (g.month < h.month ∨ g.month = h.month ∧ g.day < h.day)

theorem Date.before_trichotomy (g h : Date) : g.Before h ∨ g = h ∨ h.Before g := by
  rcases g with ⟨y, m, d⟩
  rcases h with ⟨y', m', d'⟩
  simp only [Date.Before, Date.mk.injEq]
  omega

/-! ## Years and months that begin in March -/

/-- A year that begins in March has the length of the year its February lies in. -/
theorem daysToMarch_add_one (y : Int) :
    daysToMarch (y + 1) = daysToMarch y + yearLength (y + 1) := by
  unfold yearLength
  by_cases h : IsLeap (y + 1)
  · rw [if_pos h]
    unfold IsLeap at h
    unfold daysToMarch
    omega
  · rw [if_neg h]
    unfold IsLeap at h
    unfold daysToMarch
    omega

theorem daysToMarch_le {y z : Int} (h : y ≤ z) :
    daysToMarch y + 365 * (z - y) ≤ daysToMarch z := by
  unfold daysToMarch
  omega

/-- The days to a year given by its century and its place there. -/
theorem daysToMarch_century (c y : Int) (h : 0 ≤ y ∧ y ≤ 99) :
    daysToMarch (100 * c + y) = 146097 * c / 4 + 1461 * y / 4 := by
  have h100 : (100 * c + y) / 100 = c := by omega
  have h400 : (100 * c + y) / 400 = c / 4 := by omega
  have h4 : (100 * c + y) / 4 = 25 * c + y / 4 := by omega
  have hc : 146097 * c / 4 = 36524 * c + c / 4 := by omega
  have hy : 1461 * y / 4 = 365 * y + y / 4 := by omega
  unfold daysToMarch
  rw [h100, h400, h4, hc, hy]
  omega

/-- All months counted from March but the last have the length of a common year's. -/
theorem daysFromMarch_add_one (m : Int) (h : 0 ≤ m ∧ m ≤ 10) :
    daysFromMarch (m + 1) = daysFromMarch m + commonMonthLength ((m + 2) % 12 + 1) := by
  have hm : m = 0 ∨ m = 1 ∨ m = 2 ∨ m = 3 ∨ m = 4 ∨ m = 5 ∨ m = 6 ∨ m = 7 ∨ m = 8 ∨ m = 9 ∨
      m = 10 := by omega
  rcases hm with rfl | rfl | rfl | rfl | rfl | rfl | rfl | rfl | rfl | rfl | rfl <;> decide

theorem monthLength_of_ne_two (y : Int) {m : Int} (h : m ≠ 2) :
    monthLength y m = commonMonthLength m :=
  if_neg fun hm => h hm.1

theorem monthLength_two (y : Int) : monthLength y 2 = yearLength y - 337 := by
  unfold monthLength yearLength
  by_cases h : IsLeap y
  · rw [if_pos ⟨rfl, h⟩, if_pos h]
    rfl
  · rw [if_neg (fun hm => h hm.2), if_neg h]
    rfl

theorem yearLength_mem (y : Int) : yearLength y = 365 ∨ yearLength y = 366 := by
  unfold yearLength
  split
  · exact Or.inr rfl
  · exact Or.inl rfl

theorem monthLength_mem (y m : Int) : 28 ≤ monthLength y m ∧ monthLength y m ≤ 31 := by
  unfold monthLength commonMonthLength
  split
  · omega
  · split
    · omega
    · split <;> omega

/-- The date of a day number, counted from March: day `k` of the year that begins in March of
year `y`, in its month `m`. -/
theorem exists_march_ofDayNumber (j : Int) :
    ∃ y k m : Int, ofDayNumber j = ⟨y + m / 10, m + 3 - 12 * (m / 10), k - daysFromMarch m + 1⟩ ∧
      j = marchZero + daysToMarch y + k ∧ k < yearLength (y + 1) ∧ (0 ≤ m ∧ m ≤ 11) ∧
      daysFromMarch m ≤ k ∧ k < daysFromMarch (m + 1) := by
  -- `c` is the century of the day, `y` the year in it, `k` the day of that year, `m` its month.
  obtain ⟨n, hn⟩ : ∃ n, n = j - marchZero := ⟨_, rfl⟩
  obtain ⟨c, hc⟩ : ∃ c, c = (4 * n + 3) / 146097 := ⟨_, rfl⟩
  obtain ⟨a, ha⟩ : ∃ a, a = n - 146097 * c / 4 := ⟨_, rfl⟩
  obtain ⟨y, hy⟩ : ∃ y, y = (4 * a + 3) / 1461 := ⟨_, rfl⟩
  obtain ⟨k, hk⟩ : ∃ k, k = a - 1461 * y / 4 := ⟨_, rfl⟩
  obtain ⟨m, hm⟩ : ∃ m, m = (5 * k + 2) / 153 := ⟨_, rfl⟩
  have hcentury : 146097 * c / 4 = 36524 * c + c / 4 := by omega
  have hfourth : 1461 * y / 4 = 365 * y + y / 4 := by omega
  have ha0 : 0 ≤ a ∧ a ≤ 36524 := by omega
  have ha1 : a = 36524 → c % 4 = 3 := by omega
  have hy0 : 0 ≤ y ∧ y ≤ 99 := by omega
  have hk0 : 0 ≤ k ∧ k ≤ 365 := by omega
  -- day 365 is a leap day: it ends a fourth year, and a century only if that is a fourth one
  have hk1 : k = 365 → y % 4 = 3 ∧ (y = 99 → a = 36524) := by omega
  have hlt : k < yearLength (100 * c + y + 1) := by
    unfold yearLength
    by_cases hleap : IsLeap (100 * c + y + 1)
    · rw [if_pos hleap]
      omega
    · rw [if_neg hleap]
      unfold IsLeap at hleap
      omega
  have hdays := daysToMarch_century c y hy0
  have hdate : ofDayNumber j =
      ⟨100 * c + y + m / 10, m + 3 - 12 * (m / 10), k - daysFromMarch m + 1⟩ := by
    simp only [ofDayNumber, ← hn, ← hc, ← ha, ← hy, ← hk, ← hm]
  have hmonth : daysFromMarch m ≤ k ∧ k < daysFromMarch (m + 1) := by
    unfold daysFromMarch
    omega
  exact ⟨100 * c + y, k, m, hdate, by omega, hlt, by omega, hmonth⟩

/-! ## The two directions -/

@[simp] theorem dayNumber_ofDayNumber (j : Int) :
    dayNumber (ofDayNumber j).year (ofDayNumber j).month (ofDayNumber j).day = j := by
  obtain ⟨y, k, m, hdate, hj, -, hm, -⟩ := exists_march_ofDayNumber j
  have hy : y + m / 10 + (m + 3 - 12 * (m / 10) - 3) / 12 = y := by omega
  have hmonth : (m + 3 - 12 * (m / 10) - 3) % 12 = m := by omega
  rw [hdate]
  simp only [dayNumber, hy, hmonth]
  omega

theorem isValid_ofDayNumber (j : Int) : (ofDayNumber j).IsValid := by
  obtain ⟨y, k, m, hdate, -, hyear, hm, hlo, hhi⟩ := exists_march_ofDayNumber j
  rw [hdate]
  refine ⟨⟨?_, ?_⟩, ?_, ?_⟩ <;> simp only
  · omega
  · omega
  · omega
  · by_cases h11 : m = 11
    · -- February is what the other months leave of the year.
      subst h11
      have hlength := monthLength_two (y + 1)
      have hdays : daysFromMarch 11 = 337 := by decide
      show k - daysFromMarch 11 + 1 ≤ monthLength (y + 1) 2
      omega
    · have hadd := daysFromMarch_add_one m (by omega)
      have hmonth : m + 3 - 12 * (m / 10) = (m + 2) % 12 + 1 := by omega
      rw [hmonth, monthLength_of_ne_two _ (by omega)]
      omega

/-! ## Months and years follow each other -/

theorem dayNumber_eq_add (y m d : Int) : dayNumber y m d = dayNumber y m 1 + (d - 1) := by
  unfold dayNumber
  omega

theorem dayNumber_add_twelve_mul (y m d k : Int) :
    dayNumber y (m + 12 * k) d = dayNumber (y + k) m d := by
  have hq : y + (m + 12 * k - 3) / 12 = y + k + (m - 3) / 12 := by omega
  have hr : (m + 12 * k - 3) % 12 = (m - 3) % 12 := by omega
  unfold dayNumber
  rw [hq, hr]

theorem dayNumber_add_twelve (y m d : Int) : dayNumber y (m + 12) d = dayNumber (y + 1) m d :=
  dayNumber_add_twelve_mul y m d 1

/-- A month that runs over is counted on in the years it runs over into. -/
theorem dayNumber_carry (y m d : Int) :
    dayNumber (y + (m - 1) / 12) ((m - 1) % 12 + 1) d = dayNumber y m d := by
  rw [← dayNumber_add_twelve_mul]
  congr 1
  omega

/-- Bringing the month into its range first does not change the day. -/
theorem lenientDayNumber_eq (y m d : Int) : lenientDayNumber y m d = dayNumber y m d := by
  have hday := dayNumber_eq_add y m d
  unfold lenientDayNumber
  rw [dayNumber_carry]
  omega

/-- The first of the next month comes when the days of the month are over. -/
theorem dayNumber_month_add_one (y m : Int) (h : 1 ≤ m ∧ m ≤ 12) :
    dayNumber y (m + 1) 1 = dayNumber y m 1 + monthLength y m := by
  by_cases h2 : m = 2
  · -- The step from February to March is the one into the next year of March style.
    subst h2
    have hyear := daysToMarch_add_one (y - 1)
    rw [Int.sub_add_cancel] at hyear
    have hfeb := monthLength_two y
    have hmarch : dayNumber y 3 1 = daysToMarch (y + 0) + 0 + (marchZero - 1) + 1 := rfl
    have hfebruary : dayNumber y 2 1 = daysToMarch (y - 1) + 337 + (marchZero - 1) + 1 := rfl
    simp only [Int.add_zero] at hmarch
    show dayNumber y 3 1 = dayNumber y 2 1 + monthLength y 2
    omega
  · have hq : (m + 1 - 3) / 12 = (m - 3) / 12 := by omega
    have hr : (m + 1 - 3) % 12 = (m - 3) % 12 + 1 := by omega
    have hm : ((m - 3) % 12 + 2) % 12 + 1 = m := by omega
    have hadd := daysFromMarch_add_one ((m - 3) % 12) (by omega)
    rw [hm] at hadd
    unfold dayNumber
    rw [hq, hr, hadd, monthLength_of_ne_two y h2]
    omega

theorem newYear_add_one (y : Int) : dayNumber (y + 1) 1 1 = dayNumber y 1 1 + yearLength y := by
  have hyear := daysToMarch_add_one (y - 1)
  rw [Int.sub_add_cancel] at hyear
  have hthis : dayNumber y 1 1 = daysToMarch (y - 1) + 306 + (marchZero - 1) + 1 := rfl
  have hnext : dayNumber (y + 1) 1 1 = daysToMarch (y + 1 - 1) + 306 + (marchZero - 1) + 1 := rfl
  rw [Int.add_sub_cancel] at hnext
  omega

theorem newYear_le {y z : Int} (h : y ≤ z) : dayNumber y 1 1 ≤ dayNumber z 1 1 := by
  have hle := daysToMarch_le (y := y - 1) (z := z - 1) (by omega)
  have hthis : dayNumber y 1 1 = daysToMarch (y - 1) + 306 + (marchZero - 1) + 1 := rfl
  have hthat : dayNumber z 1 1 = daysToMarch (z - 1) + 306 + (marchZero - 1) + 1 := rfl
  omega

theorem newYearsEve_eq (y : Int) : dayNumber y 12 31 = dayNumber (y + 1) 1 1 - 1 := by
  have hadd := dayNumber_month_add_one y 12 (by omega)
  have hnext := dayNumber_add_twelve y 1 1
  have hdec : monthLength y 12 = 31 := monthLength_of_ne_two y (by decide)
  have hlast := dayNumber_eq_add y 12 31
  simp only [Int.reduceAdd] at hadd hnext
  omega

theorem newYear_le_newYearsEve (y : Int) : dayNumber y 1 1 ≤ dayNumber y 12 31 := by
  have hnext := newYear_add_one y
  have heve := newYearsEve_eq y
  have hlength := yearLength_mem y
  omega

theorem newYearsEve_le {y z : Int} (h : y ≤ z) : dayNumber y 12 31 ≤ dayNumber z 12 31 := by
  have hle := newYear_le (y := y + 1) (z := z + 1) (by omega)
  rw [newYearsEve_eq, newYearsEve_eq]
  omega

theorem firstOfMonth_le (y m m' : Int) (h : 1 ≤ m ∧ m ≤ m' ∧ m' ≤ 13) :
    dayNumber y m 1 ≤ dayNumber y m' 1 := by
  have hle := daysToMarch_le (y := y - 1) (z := y) (by omega)
  -- January and February are counted in the year that began the March before.
  have hm : (m - 3) / 12 = -1 ∧ (m - 3) % 12 = m + 9 ∨
      (m - 3) / 12 = 0 ∧ (m - 3) % 12 = m - 3 := by omega
  have hm' : (m' - 3) / 12 = -1 ∧ (m' - 3) % 12 = m' + 9 ∨
      (m' - 3) / 12 = 0 ∧ (m' - 3) % 12 = m' - 3 := by omega
  unfold dayNumber daysFromMarch
  rcases hm with ⟨hq, hr⟩ | ⟨hq, hr⟩ <;> rcases hm' with ⟨hq', hr'⟩ | ⟨hq', hr'⟩ <;>
    rw [hq, hr, hq', hr'] <;> simp only [← Int.sub_eq_add_neg, Int.add_zero] <;> omega

/-! ## Order -/

theorem Date.IsValid.mem_month {g : Date} (hg : g.IsValid) :
    dayNumber g.year g.month 1 ≤ dayNumber g.year g.month g.day ∧
      dayNumber g.year g.month g.day < dayNumber g.year (g.month + 1) 1 := by
  have hadd := dayNumber_month_add_one g.year g.month hg.1
  have hday := dayNumber_eq_add g.year g.month g.day
  have hlength := hg.2
  omega

theorem Date.IsValid.mem_year {g : Date} (hg : g.IsValid) :
    dayNumber g.year 1 1 ≤ dayNumber g.year g.month g.day ∧
      dayNumber g.year g.month g.day < dayNumber (g.year + 1) 1 1 := by
  have hmonth := hg.mem_month
  have hm := hg.1
  have hlo := firstOfMonth_le g.year 1 g.month (by omega)
  have hhi := firstOfMonth_le g.year (g.month + 1) 13 (by omega)
  have hnext := dayNumber_add_twelve g.year 1 1
  simp only [Int.reduceAdd] at hnext
  omega

theorem dayNumber_lt_of_before {g h : Date} (hg : g.IsValid) (hh : h.IsValid) (hlt : g.Before h) :
    dayNumber g.year g.month g.day < dayNumber h.year h.month h.day := by
  rcases hlt with hyear | ⟨hyear, hmonth | ⟨hmonth, hday⟩⟩
  · calc dayNumber g.year g.month g.day
        < dayNumber (g.year + 1) 1 1 := hg.mem_year.2
      _ ≤ dayNumber h.year 1 1 := newYear_le (by omega)
      _ ≤ dayNumber h.year h.month h.day := hh.mem_year.1
  · have hm := hg.1
    have hm' := hh.1
    calc dayNumber g.year g.month g.day
        < dayNumber g.year (g.month + 1) 1 := hg.mem_month.2
      _ ≤ dayNumber g.year h.month 1 := firstOfMonth_le g.year (g.month + 1) h.month (by omega)
      _ = dayNumber h.year h.month 1 := by rw [hyear]
      _ ≤ dayNumber h.year h.month h.day := hh.mem_month.1
  · calc dayNumber g.year g.month g.day
        = dayNumber h.year h.month 1 + (g.day - 1) := by rw [dayNumber_eq_add, hyear, hmonth]
      _ < dayNumber h.year h.month 1 + (h.day - 1) := by omega
      _ = dayNumber h.year h.month h.day := (dayNumber_eq_add h.year h.month h.day).symm

theorem dayNumber_lt_iff {g h : Date} (hg : g.IsValid) (hh : h.IsValid) :
    dayNumber g.year g.month g.day < dayNumber h.year h.month h.day ↔ g.Before h := by
  constructor
  · intro hlt
    rcases Date.before_trichotomy g h with hbefore | heq | hafter
    · exact hbefore
    · rw [heq] at hlt
      omega
    · have := dayNumber_lt_of_before hh hg hafter
      omega
  · exact dayNumber_lt_of_before hg hh

theorem ofDayNumber_dayNumber {g : Date} (hg : g.IsValid) :
    ofDayNumber (dayNumber g.year g.month g.day) = g := by
  have hnumber := dayNumber_ofDayNumber (dayNumber g.year g.month g.day)
  have hvalid := isValid_ofDayNumber (dayNumber g.year g.month g.day)
  rcases Date.before_trichotomy (ofDayNumber (dayNumber g.year g.month g.day)) g with
    hbefore | heq | hafter
  · have := dayNumber_lt_of_before hvalid hg hbefore
    omega
  · exact heq
  · have := dayNumber_lt_of_before hg hvalid hafter
    omega

theorem ofDayNumber_of_mem {y m d : Int} (hm : 1 ≤ m ∧ m ≤ 12) (hd : 1 ≤ d ∧ d ≤ monthLength y m) :
    ofDayNumber (dayNumber y m d) = ⟨y, m, d⟩ :=
  ofDayNumber_dayNumber (g := ⟨y, m, d⟩) ⟨hm, hd⟩

/-! ## The next day -/

/-- The day after a date: the next of the month, or the first of the next month, which after
December is one of the next year. -/
def Date.next (g : Date) : Date :=
  if g.day < monthLength g.year g.month then { g with day := g.day + 1 }
  else if g.month < 12 then ⟨g.year, g.month + 1, 1⟩
  else ⟨g.year + 1, 1, 1⟩

theorem Date.IsValid.next {g : Date} (hg : g.IsValid) : g.next.IsValid := by
  obtain ⟨hmonth, hday⟩ := hg
  -- No month is empty, so every month has a first day.
  have hlength := monthLength_mem g.year (g.month + 1)
  have hlength' := monthLength_mem (g.year + 1) 1
  unfold Date.next
  split
  · exact ⟨hmonth, by simp only; omega, by simp only; omega⟩
  · split
    · exact ⟨⟨by simp only; omega, by simp only; omega⟩, by simp, by simp only; omega⟩
    · exact ⟨⟨by simp, by simp⟩, by simp, by simp only; omega⟩

theorem dayNumber_next {g : Date} (hg : g.IsValid) :
    dayNumber g.next.year g.next.month g.next.day = dayNumber g.year g.month g.day + 1 := by
  obtain ⟨hmonth, hday⟩ := hg
  have hadd := dayNumber_month_add_one g.year g.month hmonth
  have hnumber := dayNumber_eq_add g.year g.month g.day
  unfold Date.next
  by_cases hin : g.day < monthLength g.year g.month
  · have hnext := dayNumber_eq_add g.year g.month (g.day + 1)
    rw [if_pos hin]
    simp only
    omega
  · rw [if_neg hin]
    by_cases hyear : g.month < 12
    · rw [if_pos hyear]
      simp only
      omega
    · -- After December the first of month 13 is New Year.
      have hdecember : g.month = 12 := by omega
      have hnewYear := dayNumber_add_twelve g.year 1 1
      rw [if_neg hyear]
      rw [hdecember] at hadd hnumber hday hin ⊢
      simp only [Int.reduceAdd] at hadd hnewYear ⊢
      omega

theorem ofDayNumber_add_one (j : Int) : ofDayNumber (j + 1) = (ofDayNumber j).next := by
  have hvalid := isValid_ofDayNumber j
  have hnumber := dayNumber_next hvalid
  rw [dayNumber_ofDayNumber] at hnumber
  rw [← hnumber, ofDayNumber_dayNumber hvalid.next]

/-- The year stays the same from a day to the next, or the next day is New Year. -/
theorem Date.next_year (g : Date) : g.next.year = g.year ∨ g.next = ⟨g.year + 1, 1, 1⟩ := by
  unfold Date.next
  split
  · exact Or.inl rfl
  · split
    · exact Or.inl rfl
    · exact Or.inr rfl

/-! ## The days of a year and of a month -/

/-- The days of a year are those from 1 January to 31 December. -/
theorem year_ofDayNumber_eq_iff (j y : Int) :
    (ofDayNumber j).year = y ↔ dayNumber y 1 1 ≤ j ∧ j ≤ dayNumber y 12 31 := by
  have hmem := (isValid_ofDayNumber j).mem_year
  rw [dayNumber_ofDayNumber] at hmem
  have heve := newYearsEve_eq y
  constructor
  · rintro rfl
    omega
  · rintro ⟨hlo, hhi⟩
    rcases Int.lt_trichotomy (ofDayNumber j).year y with hlt | heq | hgt
    · have := newYear_le (y := (ofDayNumber j).year + 1) (z := y) (by omega)
      omega
    · exact heq
    · have := newYear_le (y := y + 1) (z := (ofDayNumber j).year) (by omega)
      omega

@[simp] theorem year_newYear (y : Int) : (ofDayNumber (dayNumber y 1 1)).year = y :=
  (year_ofDayNumber_eq_iff _ y).mpr ⟨Int.le_refl _, newYear_le_newYearsEve y⟩

@[simp] theorem year_newYearsEve (y : Int) : (ofDayNumber (dayNumber y 12 31)).year = y :=
  (year_ofDayNumber_eq_iff _ _).mpr ⟨newYear_le_newYearsEve y, Int.le_refl _⟩

/-- The days of a month are those from its first to its last. -/
theorem month_ofDayNumber_eq_iff (j y m : Int) (hm : 1 ≤ m ∧ m ≤ 12) :
    ((ofDayNumber j).year = y ∧ (ofDayNumber j).month = m) ↔
      dayNumber y m 1 ≤ j ∧ j ≤ dayNumber y m 1 + monthLength y m - 1 := by
  have hadd := dayNumber_month_add_one y m hm
  constructor
  · rintro ⟨rfl, rfl⟩
    have hmem := (isValid_ofDayNumber j).mem_month
    rw [dayNumber_ofDayNumber] at hmem
    omega
  · rintro ⟨hlo, hhi⟩
    -- The day so far into the month exists, and its number is `j`.
    have hvalid : Date.IsValid ⟨y, m, j - dayNumber y m 1 + 1⟩ := by
      refine ⟨hm, ?_, ?_⟩ <;> simp only <;> omega
    have hj : dayNumber y m (j - dayNumber y m 1 + 1) = j := by
      rw [dayNumber_eq_add]
      omega
    have hdate := ofDayNumber_dayNumber hvalid
    simp only [hj] at hdate
    rw [hdate]
    exact ⟨rfl, rfl⟩

theorem year_ofDayNumber_le {j k : Int} (h : j ≤ k) :
    (ofDayNumber j).year ≤ (ofDayNumber k).year := by
  have hj := (isValid_ofDayNumber j).mem_year
  have hk := (isValid_ofDayNumber k).mem_year
  rw [dayNumber_ofDayNumber] at hj hk
  rcases Int.lt_or_le (ofDayNumber k).year (ofDayNumber j).year with hlt | hle
  · have := newYear_le (y := (ofDayNumber k).year + 1) (z := (ofDayNumber j).year) (by omega)
    omega
  · exact hle

theorem year_ofDayNumber_lt_iff (j y : Int) :
    (ofDayNumber j).year < y ↔ j < dayNumber y 1 1 := by
  constructor
  · intro hlt
    have hmem := (isValid_ofDayNumber j).mem_year
    rw [dayNumber_ofDayNumber] at hmem
    have := newYear_le (y := (ofDayNumber j).year + 1) (z := y) (by omega)
    omega
  · intro hlt
    rcases Int.lt_or_le (ofDayNumber j).year y with hyear | hle
    · exact hyear
    · have hnewYear := newYear_le hle
      have hmem := (isValid_ofDayNumber j).mem_year
      rw [dayNumber_ofDayNumber] at hmem
      omega

/-- A year is over before any day of a later one. -/
theorem newYearsEve_lt {j y : Int} (hy : y < (ofDayNumber j).year) : dayNumber y 12 31 < j := by
  have heve := newYearsEve_eq y
  have hmem := (isValid_ofDayNumber j).mem_year
  rw [dayNumber_ofDayNumber] at hmem
  have hle := newYear_le (y := y + 1) (z := (ofDayNumber j).year) (by omega)
  omega

theorem month_ofDayNumber_le {j k : Int} (h : j ≤ k)
    (hyear : (ofDayNumber j).year = (ofDayNumber k).year) :
    (ofDayNumber j).month ≤ (ofDayNumber k).month := by
  rcases Int.lt_or_le (ofDayNumber k).month (ofDayNumber j).month with hlt | hle
  · have hbefore : (ofDayNumber k).Before (ofDayNumber j) := Or.inr ⟨hyear.symm, Or.inl hlt⟩
    have := dayNumber_lt_of_before (isValid_ofDayNumber k) (isValid_ofDayNumber j) hbefore
    rw [dayNumber_ofDayNumber, dayNumber_ofDayNumber] at this
    omega
  · exact hle

/-- The day of the month counts on through the month. -/
theorem day_ofDayNumber (j : Int) :
    (ofDayNumber j).day = j - dayNumber (ofDayNumber j).year (ofDayNumber j).month 1 + 1 := by
  have hnumber := dayNumber_ofDayNumber j
  rw [dayNumber_eq_add] at hnumber
  omega

theorem sevenDayStep_le {d d' : Int} (h : d ≤ d') : sevenDayStep d ≤ sevenDayStep d' := by
  unfold sevenDayStep
  omega

end EraChronology.Gregorian
