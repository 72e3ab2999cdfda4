import EraChronology.Calendar.Fields
import EraChronology.Proofs.Calendar.FieldRange
import EraChronology.Proofs.WeekRule
import Mathlib.Order.Bounds.Image

set_option autoImplicit false

/-! # The extremes of a field

The actual bounds of a field are computed from the first and the last day of a span. They are the
least and the greatest value the field takes at the dates of its period, because

* the days of the span are the days of these dates, and
* the value of the field does not fall from one day of the span to a later one
  (`extremes_of_monotone`).

The period of a field is the one its values are told apart in: the month for the fields within
a month, the year for those within a year, the era for the year (`Field.SharesPeriod`).
-/

namespace EraChronology

/-- The date `y` lies in the period of `x` that the field counts in. -/
def Field.SharesPeriod (f : Field) (x y : EraDate) : Prop :=
  match f with
  | .era => True
  | .year => y.era = x.era
  | .month | .dayOfYear | .weekOfYear => y.era = x.era ∧ y.year = x.year
  | .dayOfMonth | .dayOfWeekInMonth | .weekOfMonth =>
    y.era = x.era ∧ y.year = x.year ∧ y.month = x.month

theorem Field.sharesPeriod_self (f : Field) (x : EraDate) : f.SharesPeriod x x := by
  cases f <;> simp [SharesPeriod]

namespace Calendar

variable {c : Calendar} {e : Era} {f : Field} {n m first last : Int} {value : Int → Int}
  {x : EraDate}

/-- The representable days that are dated in the period of `x`. -/
def periodDays (c : Calendar) (f : Field) (x : EraDate) : Set Int :=
  {j | c.table.RepresentsDay j ∧ f.SharesPeriod x (c.dateOfDay j 0)}

/-- The values a field takes at the dates of the calendar in the period of `x`. -/
def values (c : Calendar) (f : Field) (x : EraDate) : Set Int :=
  {v | ∃ y, c.IsDate y ∧ f.SharesPeriod x y ∧ c.get y f = .ok v}

/-! ## Values by days -/

theorem exists_mem_periodDays (h : c.table.IsOrdered) {y : EraDate} (hy : c.IsDate y)
    (hshare : f.SharesPeriod x y) :
    ∃ j millis, j ∈ c.periodDays f x ∧ c.dateOfDay j millis = y := by
  obtain ⟨-, hrep, hdate⟩ := (isDate_iff h).mp hy
  refine ⟨y.dayNumber, y.millis, ⟨hrep, ?_⟩, hdate⟩
  rw [← hdate] at hshare
  -- The time of day does not matter.
  cases f <;> exact hshare

theorem values_eq_image (h : c.table.IsOrdered)
    (hget : ∀ j ∈ c.periodDays f x, ∀ millis, c.get (c.dateOfDay j millis) f = .ok (value j)) :
    c.values f x = value '' c.periodDays f x := by
  ext v
  constructor
  · rintro ⟨y, hy, hshare, hv⟩
    obtain ⟨j, millis, hj, rfl⟩ := exists_mem_periodDays h hy hshare
    rw [hget j hj millis] at hv
    exact ⟨j, hj, Except.ok.inj hv⟩
  · rintro ⟨j, hj, rfl⟩
    exact ⟨c.dateOfDay j 0, isDate_dateOfDay h hj.1 (by decide), hj.2, hget j hj 0⟩

/-- A field whose value follows from the day, and does not fall from a day to a later one, has its
extremes on the first and the last day of its period. -/
theorem extremes_of_monotone (h : c.table.IsOrdered) (hx : c.IsDate x)
    (hdays : ∀ j, first ≤ j ∧ j ≤ last ↔ j ∈ c.periodDays f x)
    (hget : ∀ j ∈ c.periodDays f x, ∀ millis, c.get (c.dateOfDay j millis) f = .ok (value j))
    (hmono : ∀ j ∈ c.periodDays f x, ∀ k ∈ c.periodDays f x, j ≤ k → value j ≤ value k) :
    IsLeast (c.values f x) (value first) ∧ IsGreatest (c.values f x) (value last) := by
  -- The day of `x` itself is one of the days, so the first is not past the last.
  obtain ⟨j, -, hj, -⟩ := exists_mem_periodDays h hx (f.sharesPeriod_self x)
  have hle := (hdays j).mpr hj
  have hfirst : IsLeast (c.periodDays f x) first :=
    ⟨(hdays first).mp (by omega), fun k hk => ((hdays k).mpr hk).1⟩
  have hlast : IsGreatest (c.periodDays f x) last :=
    ⟨(hdays last).mp (by omega), fun k hk => ((hdays k).mpr hk).2⟩
  have hmonoOn : MonotoneOn value (c.periodDays f x) := fun _ hj _ hk hjk => hmono _ hj _ hk hjk
  rw [values_eq_image h hget]
  exact ⟨hmonoOn.map_isLeast hfirst, hmonoOn.map_isGreatest hlast⟩

theorem InYear.year_eq {j k : Int} (hj : c.InYear j e n) (hk : c.InYear k e n) :
    (Gregorian.ofDayNumber j).year = (Gregorian.ofDayNumber k).year := by
  rw [(year_dateOfDay_eq_iff hj.2.1).mp hj.2.2, (year_dateOfDay_eq_iff hk.2.1).mp hk.2.2]

/-- The days of a month are numbered from its first, whether the era has that day or not. -/
theorem day_of_inMonth {j : Int} (hj : c.InMonth j e n m) :
    (Gregorian.ofDayNumber j).day = j - Gregorian.dayNumber (e.absoluteYear n) m 1 + 1 := by
  obtain ⟨-, hera, hyear, hmonth⟩ := hj
  rw [← (year_dateOfDay_eq_iff hera).mp hyear, ← hmonth]
  exact Gregorian.day_ofDayNumber j

theorem day_le_of_inMonth {j k : Int} (hj : c.InMonth j e n m) (hk : c.InMonth k e n m)
    (hjk : j ≤ k) : (Gregorian.ofDayNumber j).day ≤ (Gregorian.ofDayNumber k).day := by
  rw [day_of_inMonth hj, day_of_inMonth hk]
  omega

/-! ## The bounds of each field -/

/-- The bounds of `r` are the extremes of the values at `x`; of the year only the greatest. -/
def BoundsValues (c : Calendar) (f : Field) (x : EraDate) (r : Extent) : Prop :=
  (f ≠ .year → IsLeast (c.values f x) r.actualMinimum) ∧
    IsGreatest (c.values f x) r.actualMaximum

theorem extent_year (h : c.table.IsOrdered) (hx : c.IsDate x) :
    ∃ r, c.extent .year x.era x.year x.month = .ok r ∧ c.BoundsValues .year x r := by
  obtain ⟨highest, hhighest⟩ := exists_greatestYear h
  obtain ⟨first, last, hmax, hdays⟩ := exists_daysOfEra h (hx.era_mem h)
  have hget : ∀ j ∈ c.periodDays .year x, ∀ millis, c.get (c.dateOfDay j millis) .year =
      .ok (x.era.eraYear (Gregorian.ofDayNumber j).year) := by
    intro j hj millis
    rw [← show (c.dateOfDay j 0).era = x.era from hj.2]
    rfl
  have hmono : ∀ j ∈ c.periodDays .year x, ∀ k ∈ c.periodDays .year x, j ≤ k →
      x.era.eraYear (Gregorian.ofDayNumber j).year ≤
        x.era.eraYear (Gregorian.ofDayNumber k).year := by
    intro j _ k _ hjk
    have hle := Gregorian.year_ofDayNumber_le hjk
    simp only [Era.eraYear]
    omega
  obtain ⟨-, hgreatest⟩ := extremes_of_monotone (f := .year) h hx hdays hget hmono
  exact ⟨_, by simp only [extent, hhighest, hmax]; rfl, fun hyear => absurd rfl hyear, hgreatest⟩

theorem extent_month (h : c.table.IsOrdered) (hx : c.IsDate x) :
    ∃ r, c.extent .month x.era x.year x.month = .ok r ∧ c.BoundsValues .month x r := by
  obtain ⟨s, hs, -, hdays⟩ := exists_yearSpan h (hx.era_mem h) x.year
  have hmono : ∀ j ∈ c.periodDays .month x, ∀ k ∈ c.periodDays .month x, j ≤ k →
      (Gregorian.ofDayNumber j).month ≤ (Gregorian.ofDayNumber k).month := by
    intro j hj k hk hjk
    exact Gregorian.month_ofDayNumber_le hjk (InYear.year_eq hj hk)
  obtain ⟨hleast, hgreatest⟩ :=
    extremes_of_monotone (f := .month) h hx hdays (fun _ _ _ => rfl) hmono
  exact ⟨_, by simp only [extent, hs]; rfl, fun _ => hleast, hgreatest⟩

theorem extent_dayOfYear (h : c.table.IsOrdered) (hx : c.IsDate x) :
    ∃ r, c.extent .dayOfYear x.era x.year x.month = .ok r ∧ c.BoundsValues .dayOfYear x r := by
  obtain ⟨s, hs, hanchor, hdays⟩ := exists_yearSpan h (hx.era_mem h) x.year
  have hget : ∀ j ∈ c.periodDays .dayOfYear x, ∀ millis,
      c.get (c.dateOfDay j millis) .dayOfYear = .ok (j - s.anchor + 1) := by
    intro j hj millis
    rw [hanchor, ← dayOfYear_dateOfDay h (hx.era_mem h) hj millis]
    rfl
  have hmono : ∀ j ∈ c.periodDays .dayOfYear x, ∀ k ∈ c.periodDays .dayOfYear x, j ≤ k →
      j - s.anchor + 1 ≤ k - s.anchor + 1 := by
    intro j _ k _ hjk
    omega
  obtain ⟨hleast, hgreatest⟩ := extremes_of_monotone (f := .dayOfYear) h hx hdays hget hmono
  exact ⟨_, by simp only [extent, hs]; rfl, fun _ => hleast, hgreatest⟩

theorem extent_dayOfMonth (h : c.table.IsOrdered) (hx : c.IsDate x) :
    ∃ r, c.extent .dayOfMonth x.era x.year x.month = .ok r ∧ c.BoundsValues .dayOfMonth x r := by
  have hm := hx.month_mem h
  obtain ⟨s, hs, hdays⟩ := exists_monthSpan h (hx.era_mem h) x.year hm
  have hmono : ∀ j ∈ c.periodDays .dayOfMonth x, ∀ k ∈ c.periodDays .dayOfMonth x, j ≤ k →
      (Gregorian.ofDayNumber j).day ≤ (Gregorian.ofDayNumber k).day := by
    intro j hj k hk hjk
    exact day_le_of_inMonth hj hk hjk
  obtain ⟨hleast, hgreatest⟩ :=
    extremes_of_monotone (f := .dayOfMonth) h hx hdays (fun _ _ _ => rfl) hmono
  exact ⟨_, by simp only [extent, hs, monthLengthOf_eq hm]; rfl, fun _ => hleast, hgreatest⟩

theorem extent_dayOfWeekInMonth (h : c.table.IsOrdered) (hx : c.IsDate x) :
    ∃ r, c.extent .dayOfWeekInMonth x.era x.year x.month = .ok r ∧
      c.BoundsValues .dayOfWeekInMonth x r := by
  have hm := hx.month_mem h
  obtain ⟨s, hs, hdays⟩ := exists_monthSpan h (hx.era_mem h) x.year hm
  have hmono : ∀ j ∈ c.periodDays .dayOfWeekInMonth x,
      ∀ k ∈ c.periodDays .dayOfWeekInMonth x, j ≤ k →
        Gregorian.sevenDayStep (Gregorian.ofDayNumber j).day ≤
          Gregorian.sevenDayStep (Gregorian.ofDayNumber k).day := by
    intro j hj k hk hjk
    apply Gregorian.sevenDayStep_le
    exact day_le_of_inMonth hj hk hjk
  obtain ⟨hleast, hgreatest⟩ :=
    extremes_of_monotone (f := .dayOfWeekInMonth) h hx hdays (fun _ _ _ => rfl) hmono
  exact ⟨_, by simp only [extent, hs, monthLengthOf_eq hm]; rfl, fun _ => hleast, hgreatest⟩

theorem extent_weekOfMonth (h : c.table.IsOrdered) (hx : c.IsDate x) :
    ∃ r, c.extent .weekOfMonth x.era x.year x.month = .ok r ∧
      c.BoundsValues .weekOfMonth x r := by
  obtain ⟨s, hs, hdays⟩ := exists_monthSpan h (hx.era_mem h) x.year (hx.month_mem h)
  have hget : ∀ j ∈ c.periodDays .weekOfMonth x, ∀ millis,
      c.get (c.dateOfDay j millis) .weekOfMonth = .ok (c.weeks.weekOfMonth s j) := by
    intro j hj millis
    -- A date of the month counts its weeks in the same span.
    obtain ⟨-, hera, hyear, hmonth⟩ := hj
    have hspan : c.monthSpan (c.dateOfDay j millis).era (c.dateOfDay j millis).year
        (c.dateOfDay j millis).month = .ok s := by
      rw [← hs, ← hera, ← hyear, ← hmonth]
      rfl
    simp only [get, weekOfMonth, hspan, dayNumber_dateOfDay]
    rfl
  have hmono : ∀ j ∈ c.periodDays .weekOfMonth x, ∀ k ∈ c.periodDays .weekOfMonth x, j ≤ k →
      c.weeks.weekOfMonth s j ≤ c.weeks.weekOfMonth s k := by
    intro j _ k _ hjk
    exact c.weeks.weekOfMonth_le s hjk
  obtain ⟨hleast, hgreatest⟩ := extremes_of_monotone (f := .weekOfMonth) h hx hdays hget hmono
  exact ⟨_, by simp only [extent, hs]; rfl, fun _ => hleast, hgreatest⟩

/-! ## The range of a field -/

theorem exists_get_eq_ok (h : c.table.IsOrdered) (hx : c.IsDate x) (f : Field) :
    ∃ v, c.get x f = .ok v := by
  have he := hx.era_mem h
  obtain ⟨s, hs, -⟩ := exists_yearSpan h he x.year
  -- A day before week 1 is looked up in the year before, whether the era has that year or not.
  obtain ⟨previous, hprevious, -⟩ := exists_yearSpan h he (x.year - 1)
  obtain ⟨month, hmonth, -⟩ := exists_monthSpan h he x.year (hx.month_mem h)
  cases f <;> simp only [get, weekOfYear, weekOfMonth, hs, hprevious, hmonth]
  case weekOfYear =>
    simp only [bind, Except.bind]
    split <;> exact ⟨_, rfl⟩
  all_goals exact ⟨_, rfl⟩

theorem exists_boundsValues (h : c.table.IsOrdered) (hx : c.IsDate x) (hera : f ≠ .era)
    (hweek : f ≠ .weekOfYear) :
    ∃ r, c.extent f x.era x.year x.month = .ok r ∧ c.BoundsValues f x r := by
  cases f with
  | era => exact absurd rfl hera
  | year => exact extent_year h hx
  | month => exact extent_month h hx
  | dayOfMonth => exact extent_dayOfMonth h hx
  | dayOfYear => exact extent_dayOfYear h hx
  | dayOfWeekInMonth => exact extent_dayOfWeekInMonth h hx
  | weekOfYear => exact absurd rfl hweek
  | weekOfMonth => exact extent_weekOfMonth h hx

/-- The actual bounds at a date are the extremes of the values of the field in the period of the
date. They are given out unless the representable range cuts the period and the year of the date
is too long to be written: then there is an error in their place. -/
theorem fieldRange_extremes {spec : Spec} (hc : ofSpec? spec = .ok c) (hx : c.IsDate x)
    (hera : f ≠ .era) (hweek : f ≠ .weekOfYear) :
    (∀ y, c.IsDate y → ∃ v, c.get y f = .ok v) ∧
    ∃ r, c.extent f x.era x.year x.month = .ok r ∧ c.BoundsValues f x r ∧
      (r.clamped = true ∧ ¬ Text.isWritable x.year = true →
        c.fieldRange x f = .error (.input .longNumber)) ∧
      (¬ (r.clamped = true ∧ ¬ Text.isWritable x.year = true) →
        ∃ range, c.fieldRange x f = .ok range ∧ range.actualMinimum = r.actualMinimum ∧
          range.actualMaximum = r.actualMaximum ∧ range.clamped = r.clamped) := by
  have h := isOrdered_of_ofSpec? hc
  obtain ⟨r, hr, hbounds⟩ := exists_boundsValues h hx hera hweek
  obtain ⟨r', l, hr', -, hrange⟩ := fieldRange_eq h hx f
  have heq : r' = r := Except.ok.inj (hr'.symm.trans hr)
  subst heq
  refine ⟨fun y hy => exists_get_eq_ok h hy f, r', hr, hbounds, ?_, ?_⟩
  · intro hlong
    rw [hrange, if_pos hlong]
  · intro hshort
    rw [if_neg hshort] at hrange
    exact ⟨_, hrange, rfl, rfl, rfl⟩

/-- Year 64 of Showa has seven days. -/
theorem fieldRange_last_of_showa :
    ∃ c x range, ofSpec? Spec.japanese = .ok c ∧ c.date? (.name "Showa") 64 1 3 0 = .ok x ∧
      c.fieldRange x .dayOfYear = .ok range ∧ range.actualMinimum = 1 ∧
      range.actualMaximum = 7 ∧ IsGreatest (c.values .dayOfYear x) 7 := by
  refine ⟨_, _, _, rfl, rfl, rfl, rfl, rfl, ?_⟩
  obtain ⟨-, r, hr, hbounds, -⟩ := @fieldRange_extremes _ .dayOfYear _ Spec.japanese rfl
    ⟨.name "Showa", 64, 1, 3, 0, rfl⟩ (by decide) (by decide)
  cases hr
  exact hbounds.2

/-- A calendar of two and a half years, numbered from far before them. -/
def longYears : Spec where
  id := ⟨"", "long", ""⟩
  eras := [⟨"Long", none, some (1 - Int.pow 10 Text.digitLimit), "", by decide⟩]
  firstDayOfWeek := 1
  minimalDays := 1
  bound := ⟨915148800000, 992563200005, by decide⟩

/-- The months of its last year have no range, though the calendar accepts the year. -/
theorem fieldRange_longYears :
    ∃ c x, ofSpec? longYears = .ok c ∧ c.IsDate x ∧
      c.fieldRange x .month = .error (.input .longNumber) := by
  have h := @isOrdered_of_ofSpec? _ longYears rfl
  refine ⟨_, _, rfl, @isDate_dateOfDay _ 0 2452076 h (by decide +kernel) (by decide), ?_⟩
  decide +kernel

end Calendar

end EraChronology
