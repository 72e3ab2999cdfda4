import EraChronology.Proofs.Calendar.Agreement
import EraChronology.Proofs.Calendar.Limits

set_option autoImplicit false

/-! # Uncut years

A year of an era is uncut when its span begins and ends with the Gregorian year, that is, when all
days of the Gregorian year are representable and dated in the era (`isUncut_iff`). In such a year
every field has its full range, in the months of the year no less than in the year itself
(`extent_isFull`). It does not matter whether the era starts or ends with the year.

Of the days of the year the converse holds as well: they number as many as in the Gregorian year
only if none of them is cut off (`isUncut_of_dayOfYear`). All fields together are in
`fieldRange_isFull_of_isUncut`.
-/

namespace EraChronology

/-- A span that begins and ends with its uncut period. -/
def Span.IsUncut (s : Span) : Prop := s.first = s.naturalFirst ∧ s.last = s.naturalLast

/-- The actual range is the range of the uncut period. -/
def Extent.IsFull (r : Extent) : Prop :=
  r.actualMinimum = r.minimum ∧ r.actualMaximum = r.maximum

/-- A year has begun when a period of it begins. -/
theorem Field.le_period (f : Field) (y : Int) {m : Int} (hm : 1 ≤ m ∧ m ≤ 12) :
    Gregorian.dayNumber y 1 1 ≤ (f.period y m).1 := by
  have hle := Gregorian.firstOfMonth_le y 1 m (by omega)
  cases f <;> simp only [period] <;> omega

namespace Calendar

variable {c : Calendar} {e : Era} {f : Field} {x : EraDate} {r : Extent} {s : Span}
  {eraLast : Option Int} {n m lo hi lo' hi' : Int}

/-! ## Cutting nothing off -/

/-- A period is left as it is when neither the era nor the representable range starts after its
first day or ends before its last. -/
theorem isUncut_cut_iff :
    (c.cut e eraLast lo hi).IsUncut ↔
      (e.firstDay ≤ lo ∧ c.table.floorDay ≤ lo) ∧
        hi ≤ c.table.ceilingDay ∧ ∀ day, eraLast = some day → hi ≤ day := by
  unfold Span.IsUncut
  cases eraLast with
  | none =>
      simp only [cut, Option.map_none, Option.getD_none, reduceCtorEq, false_implies, implies_true,
        and_true]
      omega
  | some day =>
      simp only [cut, Option.map_some, Option.getD_some, Option.some.injEq, forall_eq']
      omega

/-- Nothing is cut off a part of an uncut period. -/
theorem isUncut_cut_of_subset (h : (c.cut e eraLast lo hi).IsUncut) (hlo : lo ≤ lo')
    (hhi : hi' ≤ hi) : (c.cut e eraLast lo' hi').IsUncut := by
  rw [isUncut_cut_iff] at h ⊢
  obtain ⟨⟨hbegun, hfloor⟩, hceiling, hend⟩ := h
  exact ⟨⟨by omega, by omega⟩, by omega, fun day hday => Int.le_trans hhi (hend day hday)⟩

theorem isWhole_of_isUncut (h : (c.cut e eraLast lo hi).IsUncut) :
    (c.cut e eraLast lo hi).IsWhole := by
  obtain ⟨hfirst, hlast⟩ := h
  obtain ⟨hlo, hanchor, -⟩ := c.cut_within e eraLast lo hi
  exact ⟨hfirst, hlast, Int.le_antisymm (Int.le_trans hanchor (Int.le_of_eq hfirst)) hlo⟩

theorem not_clamped_of_isUncut (h : (c.cut e eraLast lo hi).IsUncut) :
    (c.cut e eraLast lo hi).clamped = false := by
  obtain ⟨⟨-, hfloor⟩, hceiling, -⟩ := isUncut_cut_iff.mp h
  exact not_clamped_cut hfloor hceiling

/-- A year of an era is uncut exactly when all days of the Gregorian year are dated in it. -/
theorem isUncut_iff (h : c.table.IsOrdered) (hx : c.IsDate x)
    (hs : c.yearSpan x.era x.year = .ok s) :
    s.IsUncut ↔
      ∀ j, (Gregorian.ofDayNumber j).year = x.absoluteYear → c.InYear j x.era x.year := by
  have he := hx.era_mem h
  obtain ⟨s', hs', -, hmem⟩ := exists_yearSpan h he x.year
  cases hs.symm.trans hs'
  obtain ⟨hfirst, hlast⟩ := natural_yearSpan h he hs
  obtain ⟨hanchor, hbegin, hend⟩ := within_yearSpan h he hs
  have hyear : ∀ j, (Gregorian.ofDayNumber j).year = x.absoluteYear ↔
      s.naturalFirst ≤ j ∧ j ≤ s.naturalLast := by
    rw [hfirst, hlast]
    exact fun j => Gregorian.year_ofDayNumber_eq_iff j _
  simp only [← hmem, hyear]
  constructor
  · rintro ⟨hcutFirst, hcutLast⟩ j ⟨hbegun, hover⟩
    exact ⟨Int.le_trans (Int.le_of_eq hcutFirst) hbegun,
      Int.le_trans hover (Int.le_of_eq hcutLast.symm)⟩
  · intro hall
    -- New Year and the last day of the year are among the days of the span.
    have hyearLong : s.naturalFirst ≤ s.naturalLast := by
      rw [hfirst, hlast]
      exact Gregorian.newYear_le_newYearsEve _
    have hnew := hall s.naturalFirst ⟨Int.le_refl _, hyearLong⟩
    have hold := hall s.naturalLast ⟨hyearLong, Int.le_refl _⟩
    exact ⟨Int.le_antisymm hnew.1 (Int.le_trans hanchor hbegin), Int.le_antisymm hend hold.2⟩

/-! ## Fields in an uncut period -/

/-- In an uncut period a field has its full range. -/
theorem extent_isFull_of_isWhole (h : c.table.IsOrdered) (he : e ∈ c.table.eras)
    (hm : 1 ≤ m ∧ m ≤ 12) (hera : f ≠ .era) (hyear : f ≠ .year)
    (hs : c.spanOf f e n m = .ok s) (hwhole : s.IsWhole) (hr : c.extent f e n m = .ok r) :
    r.IsFull := by
  have hlength := monthLengthOf_eq (e := e) (n := n) hm
  cases f
  case era => exact absurd rfl hera
  case year => exact absurd rfl hyear
  case month =>
    obtain ⟨hfirst, hlast⟩ := dates_of_isWhole_year h he hs hwhole
    simp only [extent, show c.yearSpan e n = .ok s from hs] at hr
    cases hr
    simp [Extent.IsFull, hfirst, hlast]
  case dayOfMonth =>
    obtain ⟨hfirst, hlast⟩ := dates_of_isWhole_month h he hm hs hwhole
    simp only [extent, show c.monthSpan e n m = .ok s from hs, hlength] at hr
    cases hr
    simp [Extent.IsFull, hfirst, hlast]
  case dayOfYear =>
    obtain ⟨hfirst, hlast⟩ := natural_yearSpan h he hs
    have heve := Gregorian.newYearsEve_eq (e.absoluteYear n)
    have hadd := Gregorian.newYear_add_one (e.absoluteYear n)
    simp only [extent, show c.yearSpan e n = .ok s from hs] at hr
    cases hr
    simp only [Extent.IsFull, hwhole.first_eq, hwhole.last_eq, hwhole.anchor_eq, hfirst, hlast]
    omega
  case dayOfWeekInMonth =>
    obtain ⟨hfirst, hlast⟩ := dates_of_isWhole_month h he hm hs hwhole
    simp only [extent, show c.monthSpan e n m = .ok s from hs, hlength] at hr
    cases hr
    simp [Extent.IsFull, hfirst, hlast, Gregorian.sevenDayStep]
  case weekOfYear =>
    simp only [extent, show c.yearSpan e n = .ok s from hs] at hr
    cases hr
    exact ⟨rfl, c.weeks.maxWeekOfYear_of_isWhole hwhole⟩
  case weekOfMonth =>
    simp only [extent, show c.monthSpan e n m = .ok s from hs] at hr
    cases hr
    exact ⟨c.weeks.minWeekOfMonth_of_isWhole hwhole, c.weeks.maxWeekOfMonth_of_isWhole hwhole⟩

/-- In an uncut year, and in each of its months, every field has its full range. -/
theorem extent_isFull (h : c.table.IsOrdered) (hx : c.IsDate x) (hera : f ≠ .era)
    (hyear : f ≠ .year) (hs : c.yearSpan x.era x.year = .ok s) (huncut : s.IsUncut)
    (hr : c.extent f x.era x.year x.month = .ok r) : r.IsFull ∧ r.clamped = false := by
  have he := hx.era_mem h
  have hm := hx.month_mem h
  obtain ⟨eraLast, hlast⟩ := h.exists_lastDay he
  rw [yearSpan_eq hlast] at hs
  cases hs
  -- The period of the field is a part of the year.
  have hperiod := isUncut_cut_of_subset huncut (f.le_period (x.era.absoluteYear x.year) hm)
    (f.period_le (x.era.absoluteYear x.year) hm)
  have hspan := spanOf_eq hlast hm f x.year
  obtain ⟨s, hs, hclamped⟩ := exists_spanOf_of_extent hera hyear hr
  rw [hspan] at hs
  cases hs
  rw [← hclamped]
  exact ⟨extent_isFull_of_isWhole h he hm hera hyear hspan (isWhole_of_isUncut hperiod) hr,
    not_clamped_of_isUncut hperiod⟩

/-- A year that is cut has fewer days, or does not count them from 1. -/
theorem isUncut_of_dayOfYear (h : c.table.IsOrdered) (hx : c.IsDate x)
    (hs : c.yearSpan x.era x.year = .ok s)
    (hr : c.extent .dayOfYear x.era x.year x.month = .ok r) (hfull : r.IsFull) : s.IsUncut := by
  have he := hx.era_mem h
  obtain ⟨hfirst, hlast⟩ := natural_yearSpan h he hs
  obtain ⟨hanchor, -, hend⟩ := within_yearSpan h he hs
  have heve := Gregorian.newYearsEve_eq (x.era.absoluteYear x.year)
  have hadd := Gregorian.newYear_add_one (x.era.absoluteYear x.year)
  simp only [extent, hs] at hr
  cases hr
  obtain ⟨hmin, hmax⟩ := hfull
  simp only at hmin hmax
  unfold Span.IsUncut
  omega

/-! ## The ranges of an uncut year -/

/-- At a date in an uncut year, one of which all days are representable and belong to the era, every
field but the era and the year has its full range, wherever the era starts and ends. Day 1 and the
last day of the full range of the days of the year are both there in an uncut year only. -/
theorem fieldRange_isFull_of_isUncut {spec : Spec} (hc : ofSpec? spec = .ok c) (hx : c.IsDate x) :
    ∃ s r, c.yearSpan x.era x.year = .ok s ∧
      (s.first = s.naturalFirst ∧ s.last = s.naturalLast ↔
        ∀ j, (Gregorian.ofDayNumber j).year = x.absoluteYear → c.InYear j x.era x.year) ∧
      (s.first = s.naturalFirst ∧ s.last = s.naturalLast → ∀ f, f ≠ .era → f ≠ .year →
        ∃ range, c.fieldRange x f = .ok range ∧ range.actualMinimum = range.minimum ∧
          range.actualMaximum = range.maximum) ∧
      ((∃ range, c.fieldRange x .dayOfYear = .ok range ∧ range.actualMinimum = range.minimum ∧
          range.actualMaximum = range.maximum) →
        s.first = s.naturalFirst ∧ s.last = s.naturalLast) ∧
      c.extent .dayOfYear x.era x.year x.month = .ok r ∧
      (r.actualMinimum = r.minimum ∧ r.actualMaximum = r.maximum ↔
        s.first = s.naturalFirst ∧ s.last = s.naturalLast) := by
  have h := isOrdered_of_ofSpec? hc
  have he := hx.era_mem h
  obtain ⟨s, hs, -⟩ := exists_yearSpan h he x.year
  obtain ⟨r, hr⟩ := exists_extent_eq_ok h he (hx.month_mem h) .dayOfYear x.year
  refine ⟨s, r, hs, isUncut_iff h hx hs, ?_, ?_, hr, ?_, ?_⟩
  · intro huncut f hera hyear
    obtain ⟨r, l, hr, -, hrange⟩ := fieldRange_eq h hx f
    obtain ⟨⟨hmin, hmax⟩, hclamped⟩ := extent_isFull h hx hera hyear hs huncut hr
    rw [if_neg (by simp [hclamped])] at hrange
    exact ⟨_, hrange, hmin, hmax⟩
  · rintro ⟨range, hrange, hfull⟩
    exact isUncut_of_dayOfYear h hx hs (extent_of_fieldRange hrange) hfull
  · exact isUncut_of_dayOfYear h hx hs hr
  · intro huncut
    exact (extent_isFull h hx (by decide) (by decide) hs huncut hr).1

/-- Year 1 of Meiji starts with the era on New Year 1868, and nothing of it is cut off. -/
theorem fieldRange_isFull_meiji :
    ∃ c x s, ofSpec? Spec.japanese = .ok c ∧ c.date? (.name "Meiji") 1 9 8 0 = .ok x ∧
      c.yearSpan x.era x.year = .ok s ∧ s.startsEra = true ∧ s.first = s.naturalFirst ∧
      s.last = s.naturalLast ∧
      ∃ range, c.fieldRange x .weekOfMonth = .ok range ∧
        range.actualMinimum = range.minimum ∧ range.actualMaximum = range.maximum := by
  refine ⟨_, _, _, rfl, rfl, rfl, by decide, by decide, by decide, ?_⟩
  obtain ⟨s, r, hs, -, hfull, -⟩ := @fieldRange_isFull_of_isUncut _ _ Spec.japanese rfl
    ⟨.name "Meiji", 1, 9, 8, 0, rfl⟩
  cases hs
  exact hfull ⟨by decide, by decide⟩ .weekOfMonth (by decide) (by decide)

end Calendar

end EraChronology
