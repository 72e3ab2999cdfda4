import EraChronology.Proofs.Calendar.Containment
import EraChronology.Proofs.Calendar.WeekOfYear

set_option autoImplicit false

/-! # The largest week of a year

The week of a day is counted in three ways and the number of weeks of a year in a fourth one. They
agree: a day that is counted in its own year is in one of the weeks of the year
(`weekOfYear_le_maxWeekOfYear`), and unless the floor cuts the year the last of these weeks has a
day (`isGreatest_maxWeekOfYear`). The other days are in week 0. They come before week 1 of a year
that is not the first of its era, and are read as days of the last week of the year before
(`weekOfYear_le_maximum`).

All of this goes back to one day, the last that is counted from the anchor (`lastCounted`): the days
up to it are counted themselves, and the weeks of the year are counted on it.
-/

namespace EraChronology

namespace WeekRule

variable (w : WeekRule) {s : Span} {i j : Int}

/-! ## Weeks of a span -/

/-- The last day of a span that does not lie in the week that rolls into the next year. -/
def lastCounted (s : Span) : Int :=
  match w.rolledTail s.naturalLast with
  | none => s.last
  | some tail => if tail ≤ s.last then tail - 1 else s.last

theorem lastCounted_le (s : Span) : w.lastCounted s ≤ s.last := by
  unfold lastCounted
  cases w.rolledTail s.naturalLast with
  | none => exact Int.le_refl _
  | some tail =>
      simp only
      split <;> omega

/-- The weeks are counted on the last of these days. -/
theorem maxWeekOfYear_eq (s : Span) :
    w.maxWeekOfYear s = max (w.weekNumber s.anchor (w.lastCounted s)) 1 :=
  rfl

/-- The days up to it are counted from the anchor. Those after it are counted as it is where the
next year belongs to another era, and else are in week 1. -/
theorem weekOfYear_eq (hj : j ≤ s.last) :
    w.weekOfYear s j =
      if j ≤ w.lastCounted s then w.weekFromAnchor s j
      else if s.endsEra then w.weekFromAnchor s (w.lastCounted s)
      else 1 := by
  unfold weekOfYear lastCounted
  cases w.rolledTail s.naturalLast with
  | none =>
      simp only
      rw [if_pos hj]
  | some tail =>
      simp only
      by_cases hbefore : j < tail
      · have hcounted : j ≤ if tail ≤ s.last then tail - 1 else s.last := by
          split <;> omega
        rw [if_pos hbefore, if_pos hcounted]
      · have hrolls : tail ≤ s.last := by omega
        rw [if_neg hbefore, if_pos hrolls, if_neg (show ¬ j ≤ tail - 1 by omega)]

/-- A day that is counted from the anchor at all is in a week of its number, or in week 1 if it
comes earlier. -/
theorem weekFromAnchor_eq_max (hj : w.weekFromAnchor s j ≠ 0) :
    w.weekFromAnchor s j = max (w.weekNumber s.anchor j) 1 := by
  unfold weekFromAnchor at hj ⊢
  simp only at hj ⊢
  split at hj
  next hearly =>
    split at hj
    next hstarts =>
      rw [if_pos hearly, if_pos hstarts]
      omega
    next => exact absurd rfl hj
  next hlate =>
    rw [if_neg hlate]
    omega

theorem weekFromAnchor_nonneg (s : Span) (j : Int) : 0 ≤ w.weekFromAnchor s j := by
  by_cases hzero : w.weekFromAnchor s j = 0
  · omega
  · have := w.weekFromAnchor_eq_max hzero
    omega

theorem weekFromAnchor_le (s : Span) (j : Int) :
    w.weekFromAnchor s j ≤ max (w.weekNumber s.anchor j) 1 := by
  by_cases hzero : w.weekFromAnchor s j = 0
  · omega
  · have := w.weekFromAnchor_eq_max hzero
    omega

theorem weekOfYear_nonneg (hj : j ≤ s.last) : 0 ≤ w.weekOfYear s j := by
  have hday := w.weekFromAnchor_nonneg s j
  have hlast := w.weekFromAnchor_nonneg s (w.lastCounted s)
  rw [w.weekOfYear_eq hj]
  split
  · exact hday
  · split
    · exact hlast
    · decide

theorem weekOfYear_le_maxWeekOfYear (hj : j ≤ s.last) :
    w.weekOfYear s j ≤ w.maxWeekOfYear s := by
  rw [w.weekOfYear_eq hj, w.maxWeekOfYear_eq]
  split
  next hcounted =>
    calc w.weekFromAnchor s j
        ≤ max (w.weekNumber s.anchor j) 1 := w.weekFromAnchor_le s j
      _ ≤ max (w.weekNumber s.anchor (w.lastCounted s)) 1 := by
          have := w.weekNumber_le_weekNumber (Int.le_refl s.anchor) hcounted
          omega
  next =>
    split
    · exact w.weekFromAnchor_le s _
    · exact Int.le_max_right _ _

/-- In a span that starts its era no day is left to the year before. -/
theorem weekOfYear_ne_zero (hj : j ≤ s.last) (hstarts : s.startsEra = true) :
    w.weekOfYear s j ≠ 0 := by
  have hcounted : ∀ k, w.weekFromAnchor s k ≠ 0 := by
    intro k
    unfold weekFromAnchor
    simp only [hstarts, if_true]
    split <;> omega
  rw [w.weekOfYear_eq hj]
  split
  · exact hcounted _
  · split
    · exact hcounted _
    · decide

/-- The weeks of a span in which it has days of its own year. -/
def ownWeeks (s : Span) : Set Int :=
  {n | ∃ j ∈ s.days, w.weekOfYear s j ≠ 0 ∧ w.weekOfYear s j = n}

/-- Of a span that the floor does not cut some day is in the last week, if any day is counted in the
year at all. -/
theorem isGreatest_maxWeekOfYear (hfirst : s.first = s.anchor) (hi : i ∈ s.days)
    (hown : w.weekOfYear s i ≠ 0) : IsGreatest (w.ownWeeks s) (w.maxWeekOfYear s) := by
  have hupper : w.maxWeekOfYear s ∈ upperBounds (w.ownWeeks s) := by
    rintro n ⟨j, hj, -, rfl⟩
    exact w.weekOfYear_le_maxWeekOfYear hj.2
  refine ⟨?_, hupper⟩
  have hmax := w.maxWeekOfYear_eq s
  by_cases hone : w.weekNumber s.anchor (w.lastCounted s) ≤ 1
  · -- A single week: the day that is counted in the year is in it.
    have hnonneg := w.weekOfYear_nonneg hi.2
    have hle := w.weekOfYear_le_maxWeekOfYear hi.2
    exact ⟨i, hi, hown, by omega⟩
  · -- More than one: the last day that is counted comes after the first of the span.
    have hself := w.weekNumber_self_le_one s.anchor
    have hbegun : s.first ≤ w.lastCounted s := by
      by_contra hbefore
      have := w.weekNumber_le_weekNumber (i := w.lastCounted s) (j := s.anchor)
        (Int.le_refl s.anchor) (by omega)
      omega
    have hvalue : w.weekOfYear s (w.lastCounted s) = w.weekNumber s.anchor (w.lastCounted s) := by
      rw [w.weekOfYear_eq (w.lastCounted_le s), if_pos (Int.le_refl _)]
      exact if_neg (by omega)
    exact ⟨w.lastCounted s, ⟨hbegun, w.lastCounted_le s⟩, by omega, by omega⟩

end WeekRule

namespace Calendar

variable {c : Calendar} {e : Era} {x : EraDate} {s : Span} {v : Int}

/-! ## Weeks of dates -/

theorem startsEra_of_year_one (h : c.table.IsOrdered) (he : e ∈ c.table.eras)
    (hs : c.yearSpan e 1 = .ok s) : s.startsEra = true := by
  obtain ⟨eraLast, hlast⟩ := h.exists_lastDay he
  have hbegin := h.yearStart_eq he (Int.le_refl 1)
  rw [show e.yearStart 1 = e.firstDay from if_pos rfl] at hbegin
  rw [yearSpan_eq hlast] at hs
  cases hs
  simp only [cut, ← hbegin, decide_true, Bool.true_or]

theorem get_weekOfYear_of_zero (hs : c.yearSpan x.era x.year = .ok s)
    (hzero : c.weeks.weekOfYear s x.dayNumber = 0) {p : Span}
    (hp : c.yearSpan x.era (x.year - 1) = .ok p) :
    c.get x .weekOfYear = .ok (c.weeks.maxWeekOfYear p) := by
  simp only [get, weekOfYear, hs, hp, hzero, bind, Except.bind, if_true]
  rfl

/-- The weeks that dates of the year of `x` are in, of those that are counted in this year. -/
def ownWeeksOfYear (c : Calendar) (x : EraDate) (s : Span) : Set Int :=
  {v | ∃ y, c.IsDate y ∧ Field.SharesPeriod .weekOfYear x y ∧
    c.weeks.weekOfYear s y.dayNumber ≠ 0 ∧ c.get y .weekOfYear = .ok v}

/-- They are those of the days of the year. -/
theorem ownWeeksOfYear_eq (h : c.table.IsOrdered) (he : x.era ∈ c.table.eras)
    (hs : c.yearSpan x.era x.year = .ok s) : c.ownWeeksOfYear x s = c.weeks.ownWeeks s := by
  obtain ⟨s', hs', -, hdays⟩ := exists_yearSpan h he x.year
  rw [hs] at hs'
  cases hs'
  have hget : ∀ y, Field.SharesPeriod .weekOfYear x y → y.dayNumber ∈ s.days →
      c.weeks.weekOfYear s y.dayNumber ≠ 0 →
      c.get y .weekOfYear = .ok (c.weeks.weekOfYear s y.dayNumber) := by
    rintro y ⟨hera, hyear⟩ hy hown
    have hnonneg := c.weeks.weekOfYear_nonneg hy.2
    rw [← hera, ← hyear] at hs
    exact get_weekOfYear hs (by omega)
  ext v
  constructor
  · -- A date of the year has its day in the span, and a day of the span has a date, at midnight.
    rintro ⟨y, hy, hshare, hown, hv⟩
    have hmem : y.dayNumber ∈ s.days := by
      rw [hdays, ← hshare.1, ← hshare.2]
      exact (hy.inMonth h).inYear
    rw [hget y hshare hmem hown] at hv
    exact ⟨y.dayNumber, hmem, hown, Except.ok.inj hv⟩
  · rintro ⟨j, hj, hown, rfl⟩
    obtain ⟨hrep, hera, hyear⟩ := (hdays j).mp hj
    have hday : (c.dateOfDay j 0).dayNumber = j := dayNumber_dateOfDay c j 0
    refine ⟨c.dateOfDay j 0, isDate_dateOfDay h hrep (by decide), ⟨hera, hyear⟩, ?_, ?_⟩
    · rw [hday]
      exact hown
    · rw [hget _ ⟨hera, hyear⟩ (by rw [hday]; exact hj) (by rw [hday]; exact hown), hday]

/-- A date that is counted in its own year is in a week from 1 to the actual maximum. Any other date
is in week 0 of its year, which is not the first of its era, and the week that is read is the last
of the year before. Where the floor does not cut the year and some date is counted in it, the
maximum is the greatest week of these dates. The range that holds the maximum is given out unless it
is cut and the year is too long to be written. -/
theorem weekOfYear_le_maximum {spec : Spec} (hc : ofSpec? spec = .ok c) (hx : c.IsDate x) :
    ∃ s r v, c.yearSpan x.era x.year = .ok s ∧
      c.extent .weekOfYear x.era x.year x.month = .ok r ∧ c.get x .weekOfYear = .ok v ∧
      (c.weeks.weekOfYear s x.dayNumber ≠ 0 → 1 ≤ v ∧ v ≤ r.actualMaximum) ∧
      (c.weeks.weekOfYear s x.dayNumber = 0 → 2 ≤ x.year ∧
        ∃ p, c.yearSpan x.era (x.year - 1) = .ok p ∧ v = c.weeks.maxWeekOfYear p) ∧
      (s.first = s.anchor → (c.ownWeeksOfYear x s).Nonempty →
        IsGreatest (c.ownWeeksOfYear x s) r.actualMaximum) ∧
      (r.clamped = true ∧ ¬ Text.isWritable x.year = true →
        c.fieldRange x .weekOfYear = .error (.input .longNumber)) ∧
      (¬ (r.clamped = true ∧ ¬ Text.isWritable x.year = true) →
        ∃ range, c.fieldRange x .weekOfYear = .ok range ∧
          range.actualMaximum = r.actualMaximum) := by
  have h := isOrdered_of_ofSpec? hc
  have he := hx.era_mem h
  obtain ⟨s, hs, hholds, -, -⟩ := exists_yearSpan_holds h hx
  obtain ⟨p, hp, -⟩ := exists_yearSpan h he (x.year - 1)
  obtain ⟨v, hv⟩ := exists_get_eq_ok h hx .weekOfYear
  obtain ⟨r, l, hr, -, hrange⟩ := fieldRange_eq h hx .weekOfYear
  have hmax : r.actualMaximum = c.weeks.maxWeekOfYear s := by
    simp only [extent, hs] at hr
    cases hr
    rfl
  refine ⟨s, r, v, hs, hr, hv, ?_, ?_, ?_, ?_, ?_⟩
  · intro hown
    have hnonneg := c.weeks.weekOfYear_nonneg hholds.le_last
    have hle := c.weeks.weekOfYear_le_maxWeekOfYear hholds.le_last
    rw [get_weekOfYear hs (by omega)] at hv
    cases hv
    exact ⟨by omega, by omega⟩
  · -- Year 1 starts with its era, and there week 0 does not occur.
    intro hzero
    have hpos := hx.one_le_year h
    have hfirst : x.year ≠ 1 := by
      intro hone
      rw [hone] at hs
      exact c.weeks.weekOfYear_ne_zero hholds.le_last (startsEra_of_year_one h he hs) hzero
    rw [get_weekOfYear_of_zero hs hzero hp] at hv
    exact ⟨by omega, p, hp, (Except.ok.inj hv).symm⟩
  · rintro hfirst ⟨n, hn⟩
    rw [ownWeeksOfYear_eq h he hs] at hn ⊢
    obtain ⟨j, hj, hown, -⟩ := hn
    rw [hmax]
    exact c.weeks.isGreatest_maxWeekOfYear hfirst hj hown
  · intro hlong
    rw [hrange, if_pos hlong]
  · intro hshort
    rw [if_neg hshort] at hrange
    exact ⟨_, hrange, rfl⟩

/-- By the weeks of the ISO calendar New Year 2021 is in week 53, of the year before. The greatest
week of 2021 itself is week 52. -/
theorem weekOfYear_le_maximum_newYear :
    ∃ c x s, ofSpec? Spec.gregorian = .ok c ∧ c.date? (.name "CE") 2021 1 1 0 = .ok x ∧
      c.yearSpan x.era x.year = .ok s ∧ c.weeks.weekOfYear s x.dayNumber = 0 ∧
      (∃ p, c.yearSpan x.era (x.year - 1) = .ok p ∧ c.weeks.maxWeekOfYear p = 53) ∧
      c.get x .weekOfYear = .ok 53 ∧ IsGreatest (c.ownWeeksOfYear x s) 52 := by
  refine ⟨_, _, _, rfl, rfl, rfl, by decide, ?_⟩
  obtain ⟨s, r, v, hs, hr, hv, -, hzero, hgreatest, -⟩ :=
    @weekOfYear_le_maximum _ _ Spec.gregorian rfl ⟨.name "CE", 2021, 1, 1, 0, rfl⟩
  cases hs
  cases hr
  cases hv
  obtain ⟨-, p, hp, hmax⟩ := hzero (by decide)
  refine ⟨⟨p, hp, hmax.symm⟩, rfl, hgreatest (by decide) ?_⟩
  -- The first Monday of the year is in its week 1.
  exact ⟨1, _, ⟨.name "CE", 2021, 1, 4, 0, rfl⟩, ⟨rfl, rfl⟩, by decide, rfl⟩

/-- New Year of a year that is too long to be written is in week 1, but where the ceiling cuts the
year there is no maximum for it to lie below. -/
theorem weekOfYear_unbounded_longYears :
    ∃ c x s, ofSpec? longYears = .ok c ∧ c.IsDate x ∧ c.yearSpan x.era x.year = .ok s ∧
      c.weeks.weekOfYear s x.dayNumber = 1 ∧ ∀ range, c.fieldRange x .weekOfYear ≠ .ok range := by
  have h := @isOrdered_of_ofSpec? _ longYears rfl
  refine ⟨_, _, _, rfl, @isDate_dateOfDay _ 0 2451911 h (by decide +kernel) (by decide), rfl,
    by decide +kernel, ?_⟩
  intro range
  refine Eq.trans_ne (b := .error (.input .longNumber)) ?_ (by rintro ⟨⟩)
  decide +kernel

end Calendar

end EraChronology
