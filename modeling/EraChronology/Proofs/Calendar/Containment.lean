import EraChronology.Proofs.Calendar.Extremes
import EraChronology.Proofs.Calendar.Limits

set_option autoImplicit false

/-! # Ranges within ranges

The actual range of a field at a date lies within the range of the uncut period (`isNested`), since
the span of a period lies within the period and its days are counted from no earlier day. Where the
representable range does not cut it, it reaches the limits that the field has over the calendar
(`limit_bounds`). The range is given out with these bounds or not at all (`fieldRange_isNested`).
-/

namespace EraChronology

/-- The actual range is not empty and lies within the range of the uncut period. -/
def Extent.IsNested (r : Extent) : Prop :=
  r.minimum ≤ r.actualMinimum ∧ r.actualMinimum ≤ r.actualMaximum ∧ r.actualMaximum ≤ r.maximum

/-- A span with the day `j` that lies within its uncut period. -/
structure Span.Holds (s : Span) (j : Int) : Prop where
  naturalFirst_le : s.naturalFirst ≤ s.anchor
  anchor_le : s.anchor ≤ s.first
  first_le : s.first ≤ j
  le_last : j ≤ s.last
  last_le : s.last ≤ s.naturalLast

namespace WeekRule

variable (w : WeekRule) {s : Span} {j : Int}

/-! ## Weeks of a span and of its uncut period -/

theorem maxWeekOfYear_le_natural (hs : s.Holds j) :
    w.maxWeekOfYear s ≤ w.maxWeekOfYear s.natural := by
  have hanchor := hs.naturalFirst_le
  have hlast := hs.last_le
  unfold maxWeekOfYear Span.natural Span.whole
  simp only
  cases w.rolledTail s.naturalLast with
  | none =>
      have hle := w.weekNumber_le_weekNumber hanchor hlast
      simp only
      omega
  | some tail =>
      have hcounted : (if tail ≤ s.last then tail - 1 else s.last) ≤
          (if tail ≤ s.naturalLast then tail - 1 else s.naturalLast) := by
        split <;> split <;> omega
      have hle := w.weekNumber_le_weekNumber hanchor hcounted
      simp only
      omega

theorem natural_weekOfMonth (s : Span) (j : Int) :
    w.weekOfMonth s.natural j = w.weekNumber s.naturalFirst j :=
  w.weekOfMonth_whole _ _ j

/-- The first day of an uncut month is in week 1 or in none. -/
theorem weekNumber_self_le_one (a : Int) : w.weekNumber a a ≤ 1 := by
  have hfirst := w.firstWeek_mem a
  unfold weekNumber
  omega

theorem minWeekOfMonth_natural_le (hs : s.Holds j) :
    w.minWeekOfMonth s.natural ≤ w.minWeekOfMonth s := by
  have hone := w.weekNumber_self_le_one s.naturalFirst
  unfold minWeekOfMonth
  rw [w.natural_weekOfMonth]
  show w.weekNumber s.naturalFirst s.naturalFirst ≤ w.weekOfMonth s s.first
  simp only [weekOfMonth, Span.truncatedStart, decide_eq_true_eq]
  split
  next => omega
  next huncut =>
    have hfirst : s.first = s.naturalFirst := by
      have := hs.naturalFirst_le
      have := hs.anchor_le
      omega
    have hanchor : s.anchor = s.naturalFirst := by
      have := hs.naturalFirst_le
      have := hs.anchor_le
      omega
    rw [hfirst, hanchor]

theorem maxWeekOfMonth_le_natural (hs : s.Holds j) (hlong : s.naturalFirst + 6 ≤ s.naturalLast) :
    w.maxWeekOfMonth s ≤ w.maxWeekOfMonth s.natural := by
  have hle := w.weekNumber_le_weekNumber hs.naturalFirst_le hs.last_le
  have hone : 1 ≤ w.weekNumber s.naturalFirst s.naturalLast := by
    have hfirst := w.firstWeek_mem s.naturalFirst
    unfold weekNumber
    omega
  unfold maxWeekOfMonth
  rw [w.natural_weekOfMonth]
  show w.weekOfMonth s s.last ≤ w.weekNumber s.naturalFirst s.naturalLast
  simp only [weekOfMonth]
  split <;> omega

end WeekRule

namespace Calendar

variable {c : Calendar} {f : Field} {x : EraDate} {r : Extent}

/-! ## The span of the period of a date -/

theorem holds_cut {e : Era} {eraLast : Option Int} {lo hi j : Int}
    (hj : j ∈ (c.cut e eraLast lo hi).days) : (c.cut e eraLast lo hi).Holds j := by
  obtain ⟨hlo, hanchor, hhi⟩ := c.cut_within e eraLast lo hi
  exact ⟨hlo, hanchor, hj.1, hj.2, hhi⟩

theorem exists_yearSpan_holds (h : c.table.IsOrdered) (hx : c.IsDate x) :
    ∃ s, c.yearSpan x.era x.year = .ok s ∧ s.Holds x.dayNumber ∧
      c.InYear s.first x.era x.year ∧ c.InYear s.last x.era x.year := by
  have he := hx.era_mem h
  obtain ⟨last, hlast⟩ := h.exists_lastDay he
  have hday := (mem_days_year_iff h he hlast).mpr (hx.inMonth h).inYear
  have hle := Int.le_trans hday.1 hday.2
  exact ⟨_, yearSpan_eq hlast x.year, holds_cut hday,
    (mem_days_year_iff h he hlast).mp ⟨Int.le_refl _, hle⟩,
    (mem_days_year_iff h he hlast).mp ⟨hle, Int.le_refl _⟩⟩

theorem exists_monthSpan_holds (h : c.table.IsOrdered) (hx : c.IsDate x) :
    ∃ s, c.monthSpan x.era x.year x.month = .ok s ∧ s.Holds x.dayNumber ∧
      c.InMonth s.first x.era x.year x.month ∧ c.InMonth s.last x.era x.year x.month := by
  have he := hx.era_mem h
  have hm := hx.month_mem h
  obtain ⟨last, hlast⟩ := h.exists_lastDay he
  have hday := (mem_days_month_iff h he hlast hm).mpr (hx.inMonth h)
  have hle := Int.le_trans hday.1 hday.2
  exact ⟨_, monthSpan_eq hlast hm, holds_cut hday,
    (mem_days_month_iff h he hlast hm).mp ⟨Int.le_refl _, hle⟩,
    (mem_days_month_iff h he hlast hm).mp ⟨hle, Int.le_refl _⟩⟩

/-- The first and the last day that are left of a month, by their day of the month. -/
theorem days_of_monthSpan {s : Span} {e : Era} {n m j : Int} (hs : s.Holds j)
    (hfirst : c.InMonth s.first e n m) (hlast : c.InMonth s.last e n m) :
    1 ≤ (Gregorian.ofDayNumber s.first).day ∧
      (Gregorian.ofDayNumber s.first).day ≤ (Gregorian.ofDayNumber s.last).day ∧
      (Gregorian.ofDayNumber s.last).day ≤ Gregorian.monthLength (e.absoluteYear n) m := by
  have hle := day_le_of_inMonth hfirst hlast (Int.le_trans hs.first_le hs.le_last)
  have hvalid := (Gregorian.isValid_ofDayNumber s.last).2.2
  have hyear := (year_dateOfDay_eq_iff hlast.2.1).mp hlast.2.2.1
  have hmonth : (Gregorian.ofDayNumber s.last).month = m := hlast.2.2.2
  rw [hyear, hmonth] at hvalid
  exact ⟨(Gregorian.isValid_ofDayNumber s.first).2.1, hle, hvalid⟩

/-! ## The fields -/

theorem lastIndex_nonneg (c : Calendar) : 0 ≤ c.lastIndex := by
  have hpos := List.length_pos_iff.mpr c.table.eras_ne_nil
  unfold lastIndex EraTable.size
  omega

section

variable (h : c.table.IsOrdered) (hx : c.IsDate x)
include h hx

theorem isNested_year (hr : c.extent .year x.era x.year x.month = .ok r) : r.IsNested := by
  obtain ⟨greatest, hgreatest, hextent⟩ := bind_eq_ok_iff.mp hr
  obtain ⟨highest, hhighest, hextent⟩ := bind_eq_ok_iff.mp hextent
  rw [pure_eq_ok_iff] at hextent
  subst hextent
  have hpos := hx.one_le_year h
  have hle := hx.year_le h hhighest
  exact ⟨Int.le_refl 1, Int.le_trans hpos hle,
    EraTable.le_greatestYear (hx.era_mem h) hhighest hgreatest⟩

theorem isNested_month (hr : c.extent .month x.era x.year x.month = .ok r) : r.IsNested := by
  obtain ⟨s, hs, hholds, hfirst, hlast⟩ := exists_yearSpan_holds h hx
  simp only [extent, hs] at hr
  cases hr
  exact ⟨(Gregorian.isValid_ofDayNumber _).1.1,
    Gregorian.month_ofDayNumber_le (Int.le_trans hholds.first_le hholds.le_last)
      (hfirst.year_eq hlast), (Gregorian.isValid_ofDayNumber _).1.2⟩

theorem isNested_dayOfMonth (hr : c.extent .dayOfMonth x.era x.year x.month = .ok r) :
    r.IsNested := by
  obtain ⟨s, hs, hholds, hfirst, hlast⟩ := exists_monthSpan_holds h hx
  simp only [extent, hs, monthLengthOf_eq (hx.month_mem h)] at hr
  cases hr
  exact days_of_monthSpan hholds hfirst hlast

theorem isNested_dayOfYear (hr : c.extent .dayOfYear x.era x.year x.month = .ok r) :
    r.IsNested := by
  obtain ⟨s, hs, hholds, -, -⟩ := exists_yearSpan_holds h hx
  obtain ⟨hnew, heve⟩ := natural_yearSpan h (hx.era_mem h) hs
  have hday := Gregorian.newYearsEve_eq (x.era.absoluteYear x.year)
  have hadd := Gregorian.newYear_add_one (x.era.absoluteYear x.year)
  simp only [extent, hs] at hr
  cases hr
  obtain ⟨h1, h2, h3, h4, h5⟩ := hholds
  refine ⟨?_, ?_, ?_⟩ <;> simp only <;> omega

theorem isNested_dayOfWeekInMonth
    (hr : c.extent .dayOfWeekInMonth x.era x.year x.month = .ok r) : r.IsNested := by
  obtain ⟨s, hs, hholds, hfirst, hlast⟩ := exists_monthSpan_holds h hx
  obtain ⟨hone, hle, hlength⟩ := days_of_monthSpan hholds hfirst hlast
  simp only [extent, hs, monthLengthOf_eq (hx.month_mem h)] at hr
  cases hr
  exact ⟨Gregorian.sevenDayStep_le hone, Gregorian.sevenDayStep_le hle,
    Gregorian.sevenDayStep_le hlength⟩

theorem isNested_weekOfYear (hr : c.extent .weekOfYear x.era x.year x.month = .ok r) :
    r.IsNested := by
  obtain ⟨s, hs, hholds, -, -⟩ := exists_yearSpan_holds h hx
  simp only [extent, hs] at hr
  cases hr
  exact ⟨Int.le_refl 1, Int.le_max_right _ _, c.weeks.maxWeekOfYear_le_natural hholds⟩

theorem isNested_weekOfMonth (hr : c.extent .weekOfMonth x.era x.year x.month = .ok r) :
    r.IsNested := by
  have hm := hx.month_mem h
  obtain ⟨s, hs, hholds, -, -⟩ := exists_monthSpan_holds h hx
  obtain ⟨hstart, hend⟩ := natural_monthSpan h (hx.era_mem h) hm hs
  have hlength := Gregorian.monthLength_mem (x.era.absoluteYear x.year) x.month
  have hlong : s.naturalFirst + 6 ≤ s.naturalLast := by
    rw [hstart, hend, Gregorian.dayNumber_eq_add _ _ (Gregorian.monthLength _ _)]
    omega
  simp only [extent, hs] at hr
  cases hr
  exact ⟨c.weeks.minWeekOfMonth_natural_le hholds,
    c.weeks.weekOfMonth_le s (Int.le_trans hholds.first_le hholds.le_last),
    c.weeks.maxWeekOfMonth_le_natural hholds hlong⟩

theorem isNested (hr : c.extent f x.era x.year x.month = .ok r) : r.IsNested := by
  cases f with
  | era =>
      cases hr
      exact ⟨Int.le_refl 0, c.lastIndex_nonneg, Int.le_refl _⟩
  | year => exact isNested_year h hx hr
  | month => exact isNested_month h hx hr
  | dayOfMonth => exact isNested_dayOfMonth h hx hr
  | dayOfYear => exact isNested_dayOfYear h hx hr
  | dayOfWeekInMonth => exact isNested_dayOfWeekInMonth h hx hr
  | weekOfYear => exact isNested_weekOfYear h hx hr
  | weekOfMonth => exact isNested_weekOfMonth h hx hr

end

/-! ## The range of a field -/

/-- The range of a field at a date: the actual range is not empty, lies within the range of the
uncut period and, where the representable range does not cut it, reaches the limits of the field. A
date has this range unless the representable range cuts it and the year of the date is too long to
be written: then there is an error in its place. -/
theorem fieldRange_isNested {spec : Spec} (hc : ofSpec? spec = .ok c) (hx : c.IsDate x)
    (f : Field) :
    ∃ r l, c.extent f x.era x.year x.month = .ok r ∧ c.limit f = .ok l ∧
      (r.minimum ≤ r.actualMinimum ∧ r.actualMinimum ≤ r.actualMaximum ∧
        r.actualMaximum ≤ r.maximum) ∧
      (r.clamped = false →
        r.actualMinimum ≤ l.greatestMinimum ∧ l.leastMaximum ≤ r.actualMaximum) ∧
      c.fieldRange x f =
        if r.clamped ∧ ¬ Text.isWritable x.year then .error (.input .longNumber)
        else .ok { field := f, minimum := r.minimum, greatestMinimum := l.greatestMinimum,
                   leastMaximum := l.leastMaximum, maximum := r.maximum,
                   actualMinimum := r.actualMinimum, actualMaximum := r.actualMaximum,
                   clamped := r.clamped } := by
  have h := isOrdered_of_ofSpec? hc
  obtain ⟨r, l, hr, hl, hrange⟩ := fieldRange_eq h hx f
  exact ⟨r, l, hr, hl, isNested h hx hr, limit_bounds h hx hl hr, hrange⟩

/-- Year 64 of Showa has a single week, so no higher is the least maximum of the weeks of a year. -/
theorem fieldRange_isNested_showa :
    ∃ c x, ofSpec? Spec.japanese = .ok c ∧ c.date? (.name "Showa") 64 1 3 0 = .ok x ∧
      ∃ l, c.limit .weekOfYear = .ok l ∧ l.leastMaximum ≤ 1 ∧
        c.fieldRange x .weekOfYear =
          .ok ⟨.weekOfYear, 1, l.greatestMinimum, l.leastMaximum, 52, 1, 1, false⟩ := by
  refine ⟨_, _, rfl, rfl, ?_⟩
  obtain ⟨r, l, hr, hl, -, hbounds, hrange⟩ := @fieldRange_isNested _ _ Spec.japanese rfl
    ⟨.name "Showa", 64, 1, 3, 0, rfl⟩ .weekOfYear
  cases hr
  exact ⟨l, hl, (hbounds rfl).2, hrange⟩

/-- The weeks of a year that is too long to be written have no range where the ceiling cuts the
year. -/
theorem fieldRange_weekOfYear_longYears :
    ∃ c x, ofSpec? longYears = .ok c ∧ c.IsDate x ∧
      ∀ range, c.fieldRange x .weekOfYear ≠ .ok range := by
  have h := @isOrdered_of_ofSpec? _ longYears rfl
  refine ⟨_, _, rfl, @isDate_dateOfDay _ 0 2452076 h (by decide +kernel) (by decide), ?_⟩
  intro range
  refine Eq.trans_ne (b := .error (.input .longNumber)) ?_ (by rintro ⟨⟩)
  decide +kernel

end Calendar

end EraChronology
