import EraChronology.Proofs.Calendar.Dates

set_option autoImplicit false

/-! # From one day to the next

The date of a day is computed from its number. Read day by day it behaves like a counter: the
Gregorian date moves to the next one, and the era, the year and the day of the year either go on
or start again (`Calendar.tick`). One step is `reading_add_one`, a run of them `reading_add`.

A new era starts on its first day and at no other time (`IsOrdered.eraOfDay_add_one`); in the same
era the year goes up with the Gregorian year.
-/

namespace EraChronology

namespace EraTable

variable {table : EraTable} {e : Era} {j : Int}

/-- The era after the one of `j` begins on the next day. -/
def StartsAfter (table : EraTable) (e : Era) (j : Int) : Prop :=
  e ∈ table.eras ∧ e.index = (table.eraOfDay j).index + 1 ∧ e.firstDay = j + 1

theorem IsOrdered.since_ne_none (h : table.IsOrdered) (he : e ∈ table.eras)
    (hlater : table.first.index < e.index) : e.since ≠ none := by
  obtain ⟨t, ht, -⟩ := h.precedes_of_index_lt (first_mem table) he hlater
  rw [ht]
  exact Option.some_ne_none t

theorem IsOrdered.eraOfDay_of_startsAfter (h : table.IsOrdered)
    (hj : table.first.firstDay ≤ j) (hnext : table.StartsAfter e j) :
    table.eraOfDay (j + 1) = e := by
  obtain ⟨he, hindex, hfirst⟩ := hnext
  have hstart : e.since ≠ none := by
    apply h.since_ne_none he
    have := h.index_nonneg (table.eraOfDay_mem j)
    rw [h.first_index]
    omega
  rw [h.eraOfDay_eq_iff he (by omega), ← hfirst]
  exact h.hasDay_firstDay he hstart

/-- Unless the next era begins, an era goes on. -/
theorem IsOrdered.eraOfDay_add_one (h : table.IsOrdered) (hj : table.first.firstDay ≤ j)
    (hgoes : ∀ e, ¬ table.StartsAfter e j) : table.eraOfDay (j + 1) = table.eraOfDay j := by
  have hmem := table.eraOfDay_mem j
  have hday := h.hasDay_eraOfDay hj
  rw [h.eraOfDay_eq_iff hmem (by omega)]
  refine ⟨by have := hday.1; omega, ?_⟩
  intro last hlast
  have hle := hday.2 last hlast
  rcases h.lastDay_eq hmem with ⟨-, hnone⟩ | ⟨-, next, hnext, hindex, -, hsome⟩
  · rw [hnone] at hlast
    cases hlast
  · rw [hsome] at hlast
    cases hlast
    -- Were `j` the last day, the next era would begin after it.
    have hne : next.firstDay ≠ j + 1 := fun hfirst => hgoes next ⟨hnext, hindex, hfirst⟩
    omega

end EraTable

namespace Calendar

variable {c : Calendar} {e : Era} {j : Int}

/-! ## Years and days of the year -/

theorem dayOfYear_eq (c : Calendar) (j : Int) :
    (c.dateOfDay j 0).dayOfYear =
      j - (if (c.dateOfDay j 0).year = 1 then
          max (Gregorian.dayNumber (Gregorian.ofDayNumber j).year 1 1) (c.table.eraOfDay j).firstDay
        else Gregorian.dayNumber (Gregorian.ofDayNumber j).year 1 1) + 1 := by
  simp only [EraDate.dayOfYear, dayNumber_dateOfDay, absoluteYear_dateOfDay]
  rfl

theorem first_of_era (h : c.table.IsOrdered) (hera : c.table.eraOfDay j = e)
    (hfirst : e.firstDay = j) :
    (c.dateOfDay j 0).year = 1 ∧ (c.dateOfDay j 0).dayOfYear = 1 := by
  have he : e ∈ c.table.eras := hera ▸ c.table.eraOfDay_mem j
  have horigin := h.year_firstDay he
  have hyear : (c.dateOfDay j 0).year = 1 := by
    show (c.table.eraOfDay j).eraYear (Gregorian.ofDayNumber j).year = 1
    rw [hera, ← hfirst, horigin]
    unfold Era.eraYear
    omega
  have hnewYear := (Gregorian.year_ofDayNumber_eq_iff j _).mp rfl
  refine ⟨hyear, ?_⟩
  rw [dayOfYear_eq, if_pos hyear, hera, hfirst, Int.max_eq_right hnewYear.1]
  omega

theorem year_add_one (hera : c.table.eraOfDay (j + 1) = c.table.eraOfDay j) :
    (c.dateOfDay (j + 1) 0).year =
      (c.dateOfDay j 0).year +
        ((Gregorian.ofDayNumber (j + 1)).year - (Gregorian.ofDayNumber j).year) := by
  simp only [dateOfDay, hera, Era.eraYear]
  omega

theorem day_add_one (hera : c.table.eraOfDay (j + 1) = c.table.eraOfDay j)
    (hsame : (Gregorian.ofDayNumber (j + 1)).year = (Gregorian.ofDayNumber j).year) :
    (c.dateOfDay (j + 1) 0).year = (c.dateOfDay j 0).year ∧
      (c.dateOfDay (j + 1) 0).dayOfYear = (c.dateOfDay j 0).dayOfYear + 1 := by
  have hyear := year_add_one hera
  rw [hsame, Int.sub_self, Int.add_zero] at hyear
  refine ⟨hyear, ?_⟩
  rw [dayOfYear_eq, dayOfYear_eq, hera, hsame, hyear]
  omega

/-- New Year in an era that goes on is day 1: the year is not the first of the era. -/
theorem newYear_add_one (h : c.table.IsOrdered) (hj : c.table.floorDay ≤ j)
    (hera : c.table.eraOfDay (j + 1) = c.table.eraOfDay j)
    (hnew : (Gregorian.ofDayNumber (j + 1)).year ≠ (Gregorian.ofDayNumber j).year) :
    (Gregorian.ofDayNumber (j + 1)).year = (Gregorian.ofDayNumber j).year + 1 ∧
      (c.dateOfDay (j + 1) 0).year = (c.dateOfDay j 0).year + 1 ∧
      (c.dateOfDay (j + 1) 0).dayOfYear = 1 := by
  have hdate : Gregorian.ofDayNumber (j + 1) = ⟨(Gregorian.ofDayNumber j).year + 1, 1, 1⟩ := by
    rw [Gregorian.ofDayNumber_add_one] at hnew ⊢
    exact (Gregorian.Date.next_year _).resolve_left hnew
  have hnumber := Gregorian.dayNumber_ofDayNumber (j + 1)
  have hyear := year_add_one hera
  have hpos := one_le_year_dateOfDay h hj 0
  rw [hdate] at hnumber hyear
  simp only at hnumber hyear
  refine ⟨by rw [hdate], by omega, ?_⟩
  rw [dayOfYear_eq, if_neg (by omega), hdate]
  simp only
  omega

/-! ## Readings -/

structure Reading where
  era : Era
  year : Int
  date : Gregorian.Date
  dayOfYear : Int

def reading (c : Calendar) (j : Int) : Reading :=
  { era := (c.dateOfDay j 0).era
    year := (c.dateOfDay j 0).year
    date := ⟨(c.dateOfDay j 0).absoluteYear, (c.dateOfDay j 0).month, (c.dateOfDay j 0).day⟩
    dayOfYear := (c.dateOfDay j 0).dayOfYear }

/-- The era that follows `e`, if it starts on the date `g`. -/
def eraStarting? (c : Calendar) (e : Era) (g : Gregorian.Date) : Option Era :=
  c.table.eras.find? fun next =>
    next.index = e.index + 1 ∧ next.firstDay = Gregorian.dayNumber g.year g.month g.day

/-- The reading of the next day, from the reading of a day alone. -/
def tick (c : Calendar) (r : Reading) : Reading :=
  let g := r.date.next
  match c.eraStarting? r.era g with
  | some next => ⟨next, 1, g, 1⟩
  | none =>
    if g.year = r.date.year then ⟨r.era, r.year, g, r.dayOfYear + 1⟩
    else ⟨r.era, r.year + 1, g, 1⟩

theorem reading_eq (c : Calendar) (j : Int) :
    c.reading j = ⟨c.table.eraOfDay j, (c.dateOfDay j 0).year, Gregorian.ofDayNumber j,
      (c.dateOfDay j 0).dayOfYear⟩ := by
  unfold reading
  rw [absoluteYear_dateOfDay]
  rfl

theorem startsAfter_of_eraStarting? {next : Era}
    (hnext : c.eraStarting? (c.table.eraOfDay j) (Gregorian.ofDayNumber (j + 1)) = some next) :
    c.table.StartsAfter next j := by
  have hfound := List.find?_some hnext
  rw [decide_eq_true_eq, Gregorian.dayNumber_ofDayNumber] at hfound
  exact ⟨List.mem_of_find?_eq_some hnext, hfound⟩

theorem not_startsAfter_of_eraStarting?
    (hnone : c.eraStarting? (c.table.eraOfDay j) (Gregorian.ofDayNumber (j + 1)) = none)
    (e : Era) : ¬ c.table.StartsAfter e j := by
  rintro ⟨he, hstarts⟩
  have hnot := List.find?_eq_none.mp hnone e he
  rw [decide_eq_true_eq, Gregorian.dayNumber_ofDayNumber] at hnot
  exact hnot hstarts

/-- The reading of the next day is what the counter makes of the reading of a day. -/
theorem reading_add_one (h : c.table.IsOrdered) (hj : c.table.floorDay ≤ j) :
    c.reading (j + 1) = c.tick (c.reading j) := by
  have hfirst := Int.le_trans c.table.firstDay_first_le_floorDay hj
  rw [reading_eq, reading_eq]
  unfold tick
  simp only [← Gregorian.ofDayNumber_add_one]
  cases hstarting : c.eraStarting? (c.table.eraOfDay j) (Gregorian.ofDayNumber (j + 1)) with
  | some next =>
      have hnext := startsAfter_of_eraStarting? hstarting
      have hera := h.eraOfDay_of_startsAfter hfirst hnext
      obtain ⟨hyear, hday⟩ := first_of_era h hera hnext.2.2
      rw [hera, hyear, hday]
  | none =>
      have hera := h.eraOfDay_add_one hfirst (not_startsAfter_of_eraStarting? hstarting)
      simp only
      by_cases hsame : (Gregorian.ofDayNumber (j + 1)).year = (Gregorian.ofDayNumber j).year
      · obtain ⟨hyear, hday⟩ := day_add_one hera hsame
        rw [if_pos hsame, hera, hyear, hday]
      · obtain ⟨-, hyear, hday⟩ := newYear_add_one h hj hera hsame
        rw [if_neg hsame, hera, hyear, hday]

/-- So the readings of all days are those of a counter that is set on the first of them. -/
theorem reading_add (h : c.table.IsOrdered) (hj : c.table.floorDay ≤ j) (n : Nat) :
    c.reading (j + n) = c.tick^[n] (c.reading j) := by
  induction n with
  | zero => simp
  | succ n ih =>
      have hle : c.table.floorDay ≤ j + n := by omega
      rw [Function.iterate_succ_apply', ← ih, ← reading_add_one h hle]
      congr 1
      omega

/-- From one day to the next the Gregorian date moves to the next date. On the first day of the
next era its year 1 begins with day 1; on other days the era goes on, and so does its year until
New Year, which is day 1 of the next year. Hence the dates of all days from the first
representable one on are read off a counter that is moved on day by day. -/
theorem dateOfDay_add_one {spec : Spec} (hc : ofSpec? spec = .ok c) :
    (∀ j, c.table.floorDay ≤ j →
      let x := c.dateOfDay j 0
      let y := c.dateOfDay (j + 1) 0
      (⟨y.absoluteYear, y.month, y.day⟩ : Gregorian.Date) =
        Gregorian.Date.next ⟨x.absoluteYear, x.month, x.day⟩ ∧
      (∀ e ∈ c.table.eras, e.index = x.era.index + 1 → e.firstDay = j + 1 →
        y.era = e ∧ y.year = 1 ∧ y.dayOfYear = 1) ∧
      ((∀ e ∈ c.table.eras, e.index = x.era.index + 1 → e.firstDay ≠ j + 1) →
        y.era = x.era ∧
        (y.absoluteYear = x.absoluteYear →
          y.year = x.year ∧ y.dayOfYear = x.dayOfYear + 1) ∧
        (y.absoluteYear ≠ x.absoluteYear →
          y.absoluteYear = x.absoluteYear + 1 ∧ y.year = x.year + 1 ∧ y.dayOfYear = 1))) ∧
    ∀ n : Nat, c.reading (c.table.floorDay + n) = c.tick^[n] (c.reading c.table.floorDay) := by
  have h := isOrdered_of_ofSpec? hc
  refine ⟨?_, reading_add h (Int.le_refl _)⟩
  intro j hj
  have hfirst := Int.le_trans c.table.firstDay_first_le_floorDay hj
  simp only [absoluteYear_dateOfDay]
  refine ⟨Gregorian.ofDayNumber_add_one j, ?_, ?_⟩
  · intro e he hindex hday
    have hera := h.eraOfDay_of_startsAfter hfirst ⟨he, hindex, hday⟩
    exact ⟨hera, first_of_era h hera hday⟩
  · intro hgoes
    have hera := h.eraOfDay_add_one hfirst fun e hstarts =>
      hgoes e hstarts.1 hstarts.2.1 hstarts.2.2
    exact ⟨hera, day_add_one hera, newYear_add_one h hj hera⟩

/-- The day after 7 January of Showa 64 is the first of Heisei. -/
theorem dateOfDay_first_of_heisei :
    ∃ c heisei, ofSpec? Spec.japanese = .ok c ∧ c.table.eras[4]? = some heisei ∧
      (c.dateOfDay 2447534 0).era.name = "Showa" ∧ (c.dateOfDay 2447535 0).era = heisei ∧
      (c.dateOfDay 2447535 0).year = 1 ∧ (c.dateOfDay 2447535 0).dayOfYear = 1 := by
  refine ⟨_, _, rfl, rfl, rfl, ?_⟩
  have hstep := (@dateOfDay_add_one _ Spec.japanese rfl).1 2447534 (by decide)
  exact hstep.2.1 _ (@List.mem_of_getElem? _ _ 4 _ rfl) rfl rfl

end Calendar

end EraChronology
