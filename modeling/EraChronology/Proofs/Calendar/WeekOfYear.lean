import EraChronology.Calendar.Fields
import EraChronology.Proofs.Calendar.FieldRange
import EraChronology.Proofs.WeekRule

set_option autoImplicit false

/-! # The year a week is counted in

A week is counted in the latest year of its era that begins in time for enough of its days. In an
era that ends this is at most the last year, and a week that would be counted past it is merged
into the week before. The number counts the weeks from week 1 of that year, but is at least 1:
short weeks at the start of an era are merged into week 1 (`weekOfYear_eq`).

The number is computed from the span of the year of the date, in three ways. The last week of the
year may roll into the next year, a day may be counted from day 1 of its year, and a day before
week 1 is looked up in the year before. Which way is taken depends on where `lastBeginning` of
the week lies: in the next year, in the same, or in the year before.
-/

namespace EraChronology

/-! ## The beginnings of the years of an era -/

namespace Era

/-- The day a year of an era begins on: New Year, but for year 1 the first day of the era. -/
def yearStart (e : Era) (n : Int) : Int :=
  if n = 1 then e.firstDay else Gregorian.dayNumber (e.absoluteYear n) 1 1

/-- Year `n` is the latest that has begun by the day `j`, or year 1 if none has. -/
def IsLatestYear (e : Era) (j n : Int) : Prop :=
  IsGreatest {k | 1 ≤ k ∧ e.yearStart k ≤ j} n ∨ (∀ k, 1 ≤ k → j < e.yearStart k) ∧ n = 1

/-- The year a week is counted in if `latest` is the latest that begins in time. An era that ends
has none after its year `last`. -/
def countedYear (e : Era) (last latest : Int) : Int :=
  if e.isOpen then latest else min latest last

/-- The week as which the week from `s` on is counted. At the end of an era, a week that would be
counted in the year after the last is merged into the week before. -/
def countedWeek (e : Era) (w : WeekRule) (last s : Int) : Int :=
  if e.isOpen = false ∧ e.yearStart (last + 1) ≤ w.lastBeginning s then s - 7 else s

theorem countedYear_of_le (e : Era) {last latest : Int} (hle : latest ≤ last) :
    e.countedYear last latest = latest := by
  unfold countedYear
  rw [Int.min_eq_left hle, ite_self]

theorem countedWeek_of_lt (e : Era) {w : WeekRule} {last s : Int}
    (hlt : w.lastBeginning s < e.yearStart (last + 1)) : e.countedWeek w last s = s :=
  if_neg fun hmerged => Int.not_le.mpr hlt hmerged.2

theorem yearStart_add_one (e : Era) {n : Int} (hn : 1 ≤ n) :
    e.yearStart (n + 1) = Gregorian.dayNumber (e.absoluteYear n) 12 31 + 1 := by
  have heve := Gregorian.newYearsEve_eq (e.absoluteYear n)
  have hnext : e.absoluteYear (n + 1) = e.absoluteYear n + 1 := by
    unfold absoluteYear
    omega
  unfold yearStart
  rw [if_neg (by omega), hnext]
  omega

/-- From year 2 on they are whole Gregorian years. -/
theorem yearStart_add_year_le (e : Era) {n : Int} (hn : 1 < n) :
    e.yearStart n + 365 ≤ e.yearStart (n + 1) := by
  have heve := Gregorian.newYearsEve_eq (e.absoluteYear n)
  have hadd := Gregorian.newYear_add_one (e.absoluteYear n)
  have hlength := Gregorian.yearLength_mem (e.absoluteYear n)
  rw [e.yearStart_add_one (by omega)]
  unfold yearStart
  rw [if_neg (by omega)]
  omega

end Era

namespace EraTable.IsOrdered

variable {table : EraTable} (h : table.IsOrdered) {e : Era} {j k n : Int}
include h

theorem yearStart_eq (he : e ∈ table.eras) (hn : 1 ≤ n) :
    e.yearStart n = max (Gregorian.dayNumber (e.absoluteYear n) 1 1) e.firstDay := by
  unfold Era.yearStart
  by_cases hfirst : n = 1
  · have hmem := (Gregorian.year_ofDayNumber_eq_iff _ _).mp (h.year_firstDay he)
    have horigin : e.absoluteYear n = e.yearOrigin := by
      unfold Era.absoluteYear
      omega
    rw [if_pos hfirst, horigin, Int.max_eq_right hmem.1]
  · have hbegun : e.firstDay ≤ Gregorian.dayNumber (e.absoluteYear n) 1 1 := by
      apply h.firstDay_le_newYear he
      unfold Era.absoluteYear
      omega
    rw [if_neg hfirst, Int.max_eq_left hbegun]

theorem yearStart_lt_add_one (he : e ∈ table.eras) (hn : 1 ≤ n) :
    e.yearStart n < e.yearStart (n + 1) := by
  rcases Int.lt_or_eq_of_le hn with hlater | rfl
  · have := e.yearStart_add_year_le hlater
    omega
  · have hmem := (Gregorian.year_ofDayNumber_eq_iff _ _).mp (h.year_firstDay he)
    have hfirst : e.yearStart 1 = e.firstDay := if_pos rfl
    have horigin : e.absoluteYear 1 = e.yearOrigin := by
      unfold Era.absoluteYear
      omega
    rw [e.yearStart_add_one hn, horigin]
    omega

theorem yearStart_le (he : e ∈ table.eras) (hk : 1 ≤ k) (hkn : k ≤ n) :
    e.yearStart k ≤ e.yearStart n := by
  have hyear : Gregorian.dayNumber (e.absoluteYear k) 1 1 ≤
      Gregorian.dayNumber (e.absoluteYear n) 1 1 := by
    apply Gregorian.newYear_le
    unfold Era.absoluteYear
    omega
  rw [h.yearStart_eq he hk, h.yearStart_eq he (Int.le_trans hk hkn)]
  omega

theorem isLatestYear (he : e ∈ table.eras) (hn : 1 ≤ n) (hbegun : n = 1 ∨ e.yearStart n ≤ j)
    (hnext : j < e.yearStart (n + 1)) : e.IsLatestYear j n := by
  have hlater : ∀ k, n < k → j < e.yearStart k := by
    intro k hk
    have hle := h.yearStart_le he (k := n + 1) (n := k) (by omega) (by omega)
    omega
  by_cases hstart : e.yearStart n ≤ j
  · refine Or.inl ⟨⟨hn, hstart⟩, ?_⟩
    rintro k ⟨-, hk⟩
    by_contra hlt
    have := hlater k (by omega)
    omega
  · have hfirst : n = 1 := hbegun.resolve_right hstart
    refine Or.inr ⟨?_, hfirst⟩
    intro k hk
    rcases Int.lt_or_eq_of_le hk with hlt | heq
    · exact hlater k (by omega)
    · rw [← heq, ← hfirst]
      omega

end EraTable.IsOrdered

namespace Calendar

variable {c : Calendar} {e : Era} {x : EraDate} {s : Span} {last n : Int}

/-! ## The year of a date -/

theorem IsDate.mem_year (h : c.table.IsOrdered) (hx : c.IsDate x) :
    x.era.yearStart x.year ≤ x.dayNumber ∧ x.dayNumber < x.era.yearStart (x.year + 1) := by
  have hpos := hx.one_le_year h
  have hbegun := (hx.hasDay h).2.1
  have hmem := (Gregorian.year_ofDayNumber_eq_iff _ _).mp (hx.year_ofDayNumber h)
  rw [h.yearStart_eq (hx.era_mem h) hpos, x.era.yearStart_add_one hpos]
  omega

/-- A year that is not cut by the representable range, in terms of the beginnings of years. -/
theorem yearSpan_of_not_clamped (h : c.table.IsOrdered) (he : e ∈ c.table.eras) (hn : 1 ≤ n)
    (hs : c.yearSpan e n = .ok s) (hclamped : s.clamped = false) :
    s.anchor = e.yearStart n ∧ s.naturalLast + 1 = e.yearStart (n + 1) ∧
      (s.startsEra = true ↔ n = 1) := by
  obtain ⟨eraLast, hend⟩ := h.exists_lastDay he
  rw [yearSpan_eq hend] at hs
  cases hs
  rw [cut_of_not_clamped hclamped]
  simp only [← h.yearStart_eq he hn, e.yearStart_add_one hn, true_and, decide_eq_true_eq]
  constructor
  · intro hstart
    by_contra hlater
    have hfirst : e.yearStart 1 = e.firstDay := if_pos rfl
    have hlt := h.yearStart_lt_add_one he (Int.le_refl 1)
    have hle := h.yearStart_le he (k := 1 + 1) (n := n) (by omega) (by omega)
    omega
  · rintro rfl
    exact if_pos rfl

/-- The last year of an era that ends is the one in which it ends. -/
theorem endsEra_iff (h : c.table.IsOrdered) (he : e ∈ c.table.eras)
    (hs : c.yearSpan e n = .ok s) (hclamped : s.clamped = false)
    (hlast : c.table.maxYear e = .ok last) :
    s.endsEra = true ↔ e.isOpen = false ∧ last ≤ n := by
  rcases h.lastDay_eq he with ⟨hopen, hend⟩ | ⟨hclosed, next, -, -, -, hend⟩
  · rw [yearSpan_eq hend] at hs
    cases hs
    rw [cut_of_not_clamped hclamped, hopen]
    simp
  · rw [yearSpan_eq hend] at hs
    cases hs
    have hyear : last = e.eraYear (Gregorian.ofDayNumber (next.firstDay - 1)).year := by
      unfold EraTable.maxYear at hlast
      rw [hclosed, hend] at hlast
      exact (Except.ok.inj hlast).symm
    have hlt := Gregorian.year_ofDayNumber_lt_iff (next.firstDay - 1) (e.absoluteYear n + 1)
    have heve := Gregorian.newYearsEve_eq (e.absoluteYear n)
    rw [cut_of_not_clamped hclamped, hclosed]
    simp only [Option.map_some, Option.getD_some, decide_eq_true_eq, Option.some.injEq, true_and]
    unfold Era.absoluteYear at hlt heve ⊢
    unfold Era.eraYear at hyear
    omega

/-! ## The three ways -/

/-- The number of a week that is counted in the year `n` of the era. -/
def weekIn (c : Calendar) (e : Era) (n s : Int) : Int :=
  (s - c.weeks.firstWeek (e.yearStart n)) / 7 + 1

theorem weekNumber_yearStart (c : Calendar) (e : Era) (n j : Int) :
    c.weeks.weekNumber (e.yearStart n) j = c.weekIn e n (c.weeks.weekStart j) :=
  c.weeks.weekNumber_eq _ j

theorem get_weekOfYear (hs : c.yearSpan x.era x.year = .ok s)
    (hpos : 1 ≤ c.weeks.weekOfYear s x.dayNumber) :
    c.get x .weekOfYear = .ok (c.weeks.weekOfYear s x.dayNumber) := by
  simp only [get, weekOfYear, hs, bind, Except.bind]
  rw [if_neg (by omega)]
  rfl

/-- A week is over before the year after the next one begins. -/
theorem IsDate.lastBeginning_lt (h : c.table.IsOrdered) (hx : c.IsDate x) :
    c.weeks.lastBeginning (c.weeks.weekStart x.dayNumber) < x.era.yearStart (x.year + 1 + 1) := by
  have hmem := hx.mem_year h
  have hpos := hx.one_le_year h
  have hdays := c.weeks.minimalDays_mem
  have hstarted := c.weeks.weekStart_le x.dayNumber
  have hyear := x.era.yearStart_add_year_le (n := x.year + 1) (by omega)
  unfold WeekRule.lastBeginning
  omega

/-- A period that is over before a day of its era, and before the ceiling, is not cut at its end. -/
theorem last_cut_of_lt {eraLast : Option Int} {j lo hi : Int}
    (hend : c.table.lastDay e = .ok eraLast) (hj : c.table.HasDay e j)
    (hceiling : j ≤ c.table.ceilingDay) (hlt : hi < j) : (c.cut e eraLast lo hi).last = hi := by
  cases eraLast with
  | none =>
      simp only [cut, Option.map_none, Option.getD_none]
      omega
  | some l =>
      have hle := hj.2 l hend
      simp only [cut, Option.map_some, Option.getD_some]
      omega

/-- The number of weeks of the year before a date whose week begins in it. -/
theorem exists_maxWeekOfYear_previous (h : c.table.IsOrdered) (hx : c.IsDate x)
    (hlater : 1 < x.year)
    (hlate : c.weeks.lastBeginning (c.weeks.weekStart x.dayNumber) < x.era.yearStart x.year) :
    ∃ p, c.yearSpan x.era (x.year - 1) = .ok p ∧
      c.weeks.maxWeekOfYear p =
        max 1 (c.weekIn x.era (x.year - 1) (c.weeks.weekStart x.dayNumber)) := by
  have he := hx.era_mem h
  have hmem := hx.mem_year h
  have hdays := c.weeks.minimalDays_mem
  have hweek := c.weeks.isWeekStart_weekStart x.dayNumber
  have hin := c.weeks.lt_weekStart_add x.dayNumber
  obtain ⟨hrep, hday⟩ := hx.hasDay h
  obtain ⟨eraLast, hend⟩ := h.exists_lastDay he
  have heve := x.era.yearStart_add_one (n := x.year - 1) (by omega)
  rw [Int.sub_add_cancel] at heve
  obtain ⟨p, hp⟩ : ∃ p, p = c.cut x.era eraLast
      (Gregorian.dayNumber (x.era.absoluteYear (x.year - 1)) 1 1)
      (Gregorian.dayNumber (x.era.absoluteYear (x.year - 1)) 12 31) := ⟨_, rfl⟩
  have hspan : c.yearSpan x.era (x.year - 1) = .ok p := by rw [hp, yearSpan_eq hend]
  have hanchor : p.anchor = x.era.yearStart (x.year - 1) := by
    rw [hp, h.yearStart_eq he (by omega)]
    rfl
  have hnatural : p.naturalLast = x.era.yearStart x.year - 1 := by
    rw [heve, hp, Int.add_sub_cancel]
    rfl
  have hlast : p.last = x.era.yearStart x.year - 1 := by
    rw [hp, last_cut_of_lt hend hday hrep.2 (by omega)]
    omega
  -- New Year comes in the week of the date, so this week holds the last day of the year too.
  have hnew : c.weeks.weekStart (x.era.yearStart x.year) = c.weeks.weekStart x.dayNumber := by
    apply WeekRule.weekStart_eq_of_mem hweek
    unfold WeekRule.lastBeginning at hlate
    omega
  have hold : c.weeks.weekStart (x.era.yearStart x.year - 1) =
      c.weeks.weekStart x.dayNumber := by
    apply WeekRule.weekStart_eq_of_mem hweek
    unfold WeekRule.lastBeginning at hlate
    omega
  have hstays : c.weeks.lastBeginning (c.weeks.weekStart (p.naturalLast + 1)) <
      p.naturalLast + 1 := by
    rw [hnatural, Int.sub_add_cancel, hnew]
    exact hlate
  refine ⟨p, hspan, ?_⟩
  rw [c.weeks.maxWeekOfYear_of_stays hstays, hanchor, hlast, weekNumber_yearStart, hold]
  exact Int.max_comm _ _

/-- What the number of a week has to be, if `latest` is the latest year that begins in time. -/
def IsWeekOf (c : Calendar) (x : EraDate) (last latest : Int) : Prop :=
  let w := c.weeks.weekStart x.dayNumber
  x.era.IsLatestYear (c.weeks.lastBeginning w) latest ∧
    c.get x .weekOfYear = .ok (max 1 (c.weekIn x.era (x.era.countedYear last latest)
      (x.era.countedWeek c.weeks last w)))

section

variable (h : c.table.IsOrdered) (hx : c.IsDate x) (hs : c.yearSpan x.era x.year = .ok s)
  (hclamped : s.clamped = false)
include h hx hs hclamped

/-- The next year begins in time: the week is counted in it. -/
theorem isLatestYear_next (hrolls : x.era.yearStart (x.year + 1) ≤
      c.weeks.lastBeginning (c.weeks.weekStart x.dayNumber)) :
    x.era.IsLatestYear (c.weeks.lastBeginning (c.weeks.weekStart x.dayNumber)) (x.year + 1) ∧
      c.weeks.weekOfYear s x.dayNumber =
        if s.endsEra then c.weeks.weekFromAnchor s (c.weeks.weekStart x.dayNumber - 1) else 1 := by
  have he := hx.era_mem h
  have hpos := hx.one_le_year h
  have hmem := hx.mem_year h
  obtain ⟨-, hnext, -⟩ := yearSpan_of_not_clamped h he hpos hs hclamped
  exact ⟨h.isLatestYear he (by omega) (Or.inr hrolls) (hx.lastBeginning_lt h),
    c.weeks.weekOfYear_of_rolls (by omega) (by omega)⟩

/-- The year of the date begins too late: a day before week 1 is told apart by week 0, unless the
era begins with the year. -/
theorem weekOfYear_of_late (hlate : c.weeks.lastBeginning (c.weeks.weekStart x.dayNumber) <
      x.era.yearStart x.year) :
    c.weeks.weekOfYear s x.dayNumber = if x.year = 1 then 1 else 0 := by
  have hmem := hx.mem_year h
  obtain ⟨hanchor, hnext, hstart⟩ :=
    yearSpan_of_not_clamped h (hx.era_mem h) (hx.one_le_year h) hs hclamped
  have hnumber := (c.weeks.one_le_weekNumber_iff _ _).not.mpr (Int.not_le.mpr hlate)
  rw [c.weeks.weekOfYear_of_stays (by omega) (by omega), WeekRule.weekFromAnchor, hanchor]
  simp only [Int.not_le.mp hnumber, if_true, hstart]

variable (hlast : c.table.maxYear x.era = .ok last)
include hlast

/-- At the end of the era it is merged into the week before. -/
theorem isWeekOf_next_of_endsEra (hends : s.endsEra = true)
    (hrolls : x.era.yearStart (x.year + 1) ≤
      c.weeks.lastBeginning (c.weeks.weekStart x.dayNumber)) :
    c.IsWeekOf x last (x.year + 1) := by
  have he := hx.era_mem h
  have hpos := hx.one_le_year h
  obtain ⟨hlatest, hvalue⟩ := isLatestYear_next h hx hs hclamped hrolls
  obtain ⟨hanchor, -, hstart⟩ := yearSpan_of_not_clamped h he hpos hs hclamped
  obtain ⟨hclosed, hend⟩ := (endsEra_iff h he hs hclamped hlast).mp hends
  have hsame : last = x.year := Int.le_antisymm hend (hx.year_le h hlast)
  subst hsame
  have hcounted : x.era.countedYear x.year (x.year + 1) = x.year := by
    unfold Era.countedYear
    rw [hclosed]
    exact Int.min_eq_right (by omega)
  have hmerged : x.era.countedWeek c.weeks x.year (c.weeks.weekStart x.dayNumber) =
      c.weeks.weekStart x.dayNumber - 7 := if_pos ⟨hclosed, hrolls⟩
  have hweek : c.weeks.weekStart (c.weeks.weekStart x.dayNumber - 1) =
      c.weeks.weekStart x.dayNumber - 7 :=
    WeekRule.weekStart_eq_of_mem (c.weeks.isWeekStart_weekStart _).sub_seven ⟨by omega, by omega⟩
  rw [if_pos hends, WeekRule.weekFromAnchor, hanchor, weekNumber_yearStart, hweek] at hvalue
  have hnumber : c.weeks.weekOfYear s x.dayNumber =
      max 1 (c.weekIn x.era x.year (c.weeks.weekStart x.dayNumber - 7)) := by
    rw [hvalue]
    by_cases hfirst : x.year = 1
    · rw [if_pos (hstart.mpr hfirst)]
      omega
    · -- A whole year holds the week before the one that is merged.
      have hyear := x.era.yearStart_add_year_le (n := x.year) (by omega)
      have hin := c.weeks.one_le_weekNumber_iff (x.era.yearStart x.year)
        (c.weeks.weekStart x.dayNumber - 1)
      rw [weekNumber_yearStart, hweek] at hin
      unfold WeekRule.lastBeginning at hin hrolls
      omega
  refine ⟨hlatest, ?_⟩
  rw [get_weekOfYear hs (by omega), hnumber, hcounted, hmerged]

/-- In an era that goes on it is week 1 of the next year. -/
theorem isWeekOf_next_of_goesOn (hgoes : ¬ s.endsEra = true)
    (hrolls : x.era.yearStart (x.year + 1) ≤
      c.weeks.lastBeginning (c.weeks.weekStart x.dayNumber)) :
    c.IsWeekOf x last (x.year + 1) := by
  have he := hx.era_mem h
  have hmem := hx.mem_year h
  have hpos := hx.one_le_year h
  have hdays := c.weeks.minimalDays_mem
  have hstarted := c.weeks.weekStart_le x.dayNumber
  obtain ⟨hlatest, hvalue⟩ := isLatestYear_next h hx hs hclamped hrolls
  have hfirst : c.weeks.firstWeek (x.era.yearStart (x.year + 1)) =
      c.weeks.weekStart x.dayNumber := by
    apply WeekRule.firstWeek_eq (c.weeks.isWeekStart_weekStart _) hrolls
    unfold WeekRule.lastBeginning
    omega
  -- The era is open, or it has a later year: nothing is merged at its end.
  have hcounted : x.era.countedYear last (x.year + 1) = x.year + 1 ∧
      x.era.countedWeek c.weeks last (c.weeks.weekStart x.dayNumber) =
        c.weeks.weekStart x.dayNumber := by
    by_cases hopen : x.era.isOpen = true
    · exact ⟨if_pos hopen, if_neg fun hmerged => Bool.eq_false_iff.mp hmerged.1 hopen⟩
    · have hlater : x.year < last := by
        by_contra hle
        exact hgoes ((endsEra_iff h he hs hclamped hlast).mpr
          ⟨Bool.eq_false_iff.mpr hopen, Int.not_lt.mp hle⟩)
      refine ⟨x.era.countedYear_of_le hlater, x.era.countedWeek_of_lt ?_⟩
      exact Int.lt_of_lt_of_le (hx.lastBeginning_lt h)
        (h.yearStart_le he (by omega) (by omega))
  rw [if_neg hgoes] at hvalue
  refine ⟨hlatest, ?_⟩
  rw [get_weekOfYear hs (by omega), hvalue, hcounted.1, hcounted.2, weekIn, hfirst, Int.sub_self]
  rfl

/-- The year of the date begins in time and the next one does not. -/
theorem isWeekOf_same
    (hbegun : x.era.yearStart x.year ≤ c.weeks.lastBeginning (c.weeks.weekStart x.dayNumber))
    (hstays : c.weeks.lastBeginning (c.weeks.weekStart x.dayNumber) <
      x.era.yearStart (x.year + 1)) :
    c.IsWeekOf x last x.year := by
  have he := hx.era_mem h
  have hpos := hx.one_le_year h
  have hle := hx.year_le h hlast
  obtain ⟨hanchor, hnext, hstart⟩ := yearSpan_of_not_clamped h he hpos hs hclamped
  have hmem := hx.mem_year h
  have hlt := h.yearStart_le he (k := x.year + 1) (n := last + 1) (by omega) (by omega)
  refine ⟨h.isLatestYear he hpos (Or.inr hbegun) hstays, ?_⟩
  have hnumber := (c.weeks.one_le_weekNumber_iff _ _).mpr hbegun
  have hvalue : c.weeks.weekOfYear s x.dayNumber =
      c.weeks.weekNumber (x.era.yearStart x.year) x.dayNumber := by
    rw [c.weeks.weekOfYear_of_stays (by omega) (by omega)]
    simp only [WeekRule.weekFromAnchor, hanchor, Int.not_lt.mpr hnumber, if_false]
  rw [get_weekOfYear hs (by omega), hvalue, x.era.countedYear_of_le hle,
    x.era.countedWeek_of_lt (by omega), ← weekNumber_yearStart, Int.max_eq_right hnumber]

/-- Before week 1 of year 1 there is no year: the days are in week 1. -/
theorem isWeekOf_first (hfirst : x.year = 1)
    (hlate : c.weeks.lastBeginning (c.weeks.weekStart x.dayNumber) < x.era.yearStart x.year) :
    c.IsWeekOf x last x.year := by
  have he := hx.era_mem h
  have hpos := hx.one_le_year h
  have hle := hx.year_le h hlast
  have hmem := hx.mem_year h
  have hend := h.yearStart_le he (k := x.year + 1) (n := last + 1) (by omega) (by omega)
  have hvalue := weekOfYear_of_late h hx hs hclamped hlate
  rw [if_pos hfirst] at hvalue
  have hnumber := (c.weeks.one_le_weekNumber_iff _ _).not.mpr (Int.not_le.mpr hlate)
  refine ⟨h.isLatestYear he hpos (Or.inl hfirst) (by omega), ?_⟩
  rw [get_weekOfYear hs (by omega), hvalue, x.era.countedYear_of_le hle,
    x.era.countedWeek_of_lt (by omega), ← weekNumber_yearStart, Int.max_eq_left (by omega)]

/-- Before week 1 of a later year the days are in the last week of the year before. -/
theorem isWeekOf_previous (hlater : 1 < x.year)
    (hlate : c.weeks.lastBeginning (c.weeks.weekStart x.dayNumber) < x.era.yearStart x.year) :
    c.IsWeekOf x last (x.year - 1) := by
  have he := hx.era_mem h
  have hle := hx.year_le h hlast
  have hmem := hx.mem_year h
  have hend := h.yearStart_le he (k := x.year + 1) (n := last + 1) (by omega) (by omega)
  have hvalue := weekOfYear_of_late h hx hs hclamped hlate
  rw [if_neg (by omega)] at hvalue
  obtain ⟨p, hp, hmax⟩ := exists_maxWeekOfYear_previous h hx hlater hlate
  -- The year before is the first, or a whole one, which began long before the week.
  have hbegun : x.year - 1 = 1 ∨ x.era.yearStart (x.year - 1) ≤
      c.weeks.lastBeginning (c.weeks.weekStart x.dayNumber) := by
    rcases Int.lt_or_eq_of_le hlater with hfar | hsecond
    · have hyear := x.era.yearStart_add_year_le (n := x.year - 1) (by omega)
      have hdays := c.weeks.minimalDays_mem
      have hin := c.weeks.lt_weekStart_add x.dayNumber
      rw [Int.sub_add_cancel] at hyear
      unfold WeekRule.lastBeginning
      omega
    · omega
  refine ⟨h.isLatestYear he (by omega) hbegun (by rwa [Int.sub_add_cancel]), ?_⟩
  rw [x.era.countedYear_of_le (by omega), x.era.countedWeek_of_lt (by omega), ← hmax]
  simp only [get, weekOfYear, hs, hp, hvalue, bind, Except.bind, if_true]
  rfl

end

/-- The week of the year: in the latest year of the era that begins in time for the week, and
in an era that ends at most in its last one, it counts the weeks from week 1 of that year, at least
1; at the end of the era a week that would be counted in the next year has the number of the week
before. -/
theorem weekOfYear_counts {spec : Spec} (hc : ofSpec? spec = .ok c) (hx : c.IsDate x)
    (hs : c.yearSpan x.era x.year = .ok s) (hclamped : s.clamped = false) :
    let w := c.weeks.weekStart x.dayNumber
    ∃ last latest first, c.table.maxYear x.era = .ok last ∧
      x.era.IsLatestYear (c.weeks.lastBeginning w) latest ∧
      IsLeast (c.weeks.weeksFrom (x.era.yearStart (x.era.countedYear last latest))) first ∧
      c.get x .weekOfYear =
        .ok (max 1 ((x.era.countedWeek c.weeks last w - first) / 7 + 1)) := by
  have h := isOrdered_of_ofSpec? hc
  obtain ⟨last, hlast⟩ := h.exists_maxYear (hx.era_mem h)
  suffices hweek : ∃ latest, c.IsWeekOf x last latest by
    obtain ⟨latest, hlatest, hvalue⟩ := hweek
    exact ⟨last, latest, _, hlast, hlatest, c.weeks.isLeast_firstWeek _, hvalue⟩
  -- The week is counted in the next year, in this one or in the one before.
  by_cases hrolls : x.era.yearStart (x.year + 1) ≤
      c.weeks.lastBeginning (c.weeks.weekStart x.dayNumber)
  · by_cases hends : s.endsEra = true
    · exact ⟨_, isWeekOf_next_of_endsEra h hx hs hclamped hlast hends hrolls⟩
    · exact ⟨_, isWeekOf_next_of_goesOn h hx hs hclamped hlast hends hrolls⟩
  · by_cases hbegun : x.era.yearStart x.year ≤
        c.weeks.lastBeginning (c.weeks.weekStart x.dayNumber)
    · exact ⟨_, isWeekOf_same h hx hs hclamped hlast hbegun (Int.not_le.mp hrolls)⟩
    · have hlate := Int.not_le.mp hbegun
      rcases Int.lt_or_eq_of_le (hx.one_le_year h) with hlater | hfirst
      · exact ⟨_, isWeekOf_previous h hx hs hclamped hlast hlater hlate⟩
      · exact ⟨_, isWeekOf_first h hx hs hclamped hlast hfirst.symm hlate⟩

/-- A calendar with the weeks of the ISO calendar whose first era ends on a Monday, a day before
the year does. -/
def shortWeek : Spec :=
  Spec.gregorian.withEra ⟨"Late", some (Gregorian.since 2024 12 31), none, "", by decide⟩

/-- This Monday begins week 1 of 2025, but in its era it is counted to week 52. -/
theorem weekOfYear_shortWeek :
    ∃ c x s, ofSpec? shortWeek = .ok c ∧ c.date? (.name "CE") 2024 12 30 0 = .ok x ∧
      c.yearSpan x.era x.year = .ok s ∧ s.clamped = false ∧
      ∃ last latest first, c.table.maxYear x.era = .ok last ∧
        x.era.IsLatestYear (c.weeks.lastBeginning (c.weeks.weekStart x.dayNumber)) latest ∧
        IsLeast (c.weeks.weeksFrom (x.era.yearStart (x.era.countedYear last latest))) first ∧
        max 1 ((x.era.countedWeek c.weeks last (c.weeks.weekStart x.dayNumber) - first) / 7 + 1) =
          52 := by
  refine ⟨_, _, _, rfl, rfl, rfl, rfl, ?_⟩
  obtain ⟨last, latest, first, hlast, hlatest, hfirst, hvalue⟩ :=
    @weekOfYear_counts _ _ _ shortWeek rfl ⟨.name "CE", 2024, 12, 30, 0, rfl⟩ rfl rfl
  exact ⟨last, latest, first, hlast, hlatest, hfirst, (Except.ok.inj hvalue).symm⟩

end Calendar

end EraChronology
