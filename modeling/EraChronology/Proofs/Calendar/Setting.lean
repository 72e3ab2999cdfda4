import EraChronology.Proofs.Calendar.Changes
import EraChronology.Proofs.Calendar.Containment

set_option autoImplicit false

/-! # Setting fields

Setting a field moves a date to a day, and the outcome is the date of that day if its instant is
representable (`set_eq_of_dayWith`). This is the date with its era, its year or its month replaced,
if there is such a date (`Replaces.dayWith_eq`). The day of the year and the day of the month number
the days of their period one by one: the numbers within the actual bounds are those of the days of
the period, and every other number runs over into another period (`NumbersDays.sharesPeriod_iff`).

`set_sharesPeriod_iff` puts these together for the dates of a calendar. Only eras are not set by any
number, but by the positions of the table.
-/

namespace EraChronology.Calendar

variable {c : Calendar} {f : Field} {r : Extent} {x y : EraDate} {v j one : Int}

/-! ## Setting by the day -/

/-- A date is what a field is set to if setting moves to its day. -/
theorem set_eq_of_dayWith (h : c.table.IsOrdered) (hy : c.IsDate y)
    (hmillis : y.millis = x.millis) (hday : c.dayWith x f v = .ok y.dayNumber)
    (hrep : c.table.Represents y.localInstant) : c.set x f v = .ok y := by
  obtain ⟨htime, -, hdate⟩ := (isDate_iff h).mp hy
  rw [set_eq_ok_iff]
  refine ⟨y.dayNumber, hday, ?_⟩
  rw [← hmillis, renormalize_eq_ok_iff htime]
  exact ⟨hrep, hdate⟩

/-! ## Parts that are replaced -/

inductive Replaces (c : Calendar) (x : EraDate) : Field → Int → EraDate → Prop where
  | era (v : Int) (e : Era) (hv : 0 ≤ v) (he : c.table.at? v = .ok e) :
      Replaces c x .era v { x with era := e }
  | year (v : Int) : Replaces c x .year v { x with year := v }
  | month (v : Int) : Replaces c x .month v { x with month := v }

theorem Replaces.millis_eq (hy : c.Replaces x f v y) : y.millis = x.millis := by
  cases hy <;> rfl

/-- The day that setting moves to is the one the replaced parts name. -/
theorem Replaces.dayWith_eq (hy : c.Replaces x f v y) : c.dayWith x f v = .ok y.dayNumber := by
  cases hy with
  | era v e hv he =>
      have hlt : v < c.table.size := by
        have hget := (EraTable.at?_eq_ok_iff hv).mp he
        have := (List.getElem?_eq_some_iff.mp hget).1
        unfold EraTable.size
        omega
      simp only [dayWith, if_pos (And.intro hv hlt), he, Except.map, Gregorian.lenientDayNumber_eq]
      rfl
  | year v =>
      simp only [dayWith, Gregorian.lenientDayNumber_eq]
      rfl
  | month v =>
      simp only [dayWith, Gregorian.lenientDayNumber_eq]
      rfl

/-! ## Days that are numbered -/

/-- The field numbers the days of the period of `x` one by one, and `one` is the day that has the
number 1, in the period or before it. The numbers of the days are those within the bounds of `r`. -/
structure NumbersDays (c : Calendar) (x : EraDate) (f : Field) (r : Extent) (one : Int) : Prop where
  dayWith_eq : ∀ v, c.dayWith x f v = .ok (one + v - 1)
  get_eq : ∀ j ∈ c.periodDays f x, ∀ millis, c.get (c.dateOfDay j millis) f = .ok (j - one + 1)
  mem_iff : ∀ j, j ∈ c.periodDays f x ↔
    r.actualMinimum ≤ j - one + 1 ∧ j - one + 1 ≤ r.actualMaximum

section

variable (h : c.table.IsOrdered) (hx : c.IsDate x)
include h hx

theorem exists_numbersDays_dayOfYear :
    ∃ r one, c.extent .dayOfYear x.era x.year x.month = .ok r ∧
      c.NumbersDays x .dayOfYear r one := by
  obtain ⟨s, hs, hanchor, hdays⟩ := exists_yearSpan h (hx.era_mem h) x.year
  refine ⟨_, s.anchor, by simp only [extent, hs]; rfl, ?_, ?_, ?_⟩
  · intro v
    simp only [dayWith, hs]
    rfl
  · intro j hj millis
    rw [hanchor, ← dayOfYear_dateOfDay h (hx.era_mem h) hj millis]
    rfl
  · intro j
    have hmem : j ∈ c.periodDays .dayOfYear x ↔ s.first ≤ j ∧ j ≤ s.last := (hdays j).symm
    rw [hmem]
    simp only
    omega

theorem exists_numbersDays_dayOfMonth :
    ∃ r one, c.extent .dayOfMonth x.era x.year x.month = .ok r ∧
      c.NumbersDays x .dayOfMonth r one := by
  have hm := hx.month_mem h
  obtain ⟨s, hs, hdays⟩ := exists_monthSpan h (hx.era_mem h) x.year hm
  obtain ⟨s', hs', -, hfirst, hlast⟩ := exists_monthSpan_holds h hx
  rw [hs] at hs'
  cases hs'
  have hlo := day_of_inMonth hfirst
  have hhi := day_of_inMonth hlast
  refine ⟨_, Gregorian.dayNumber x.absoluteYear x.month 1,
    by simp only [extent, hs, monthLengthOf_eq hm]; rfl, fun _ => rfl, ?_, ?_⟩
  · intro j hj millis
    exact congrArg Except.ok (day_of_inMonth hj)
  · intro j
    have hmem : j ∈ c.periodDays .dayOfMonth x ↔ s.first ≤ j ∧ j ≤ s.last := (hdays j).symm
    rw [hmem]
    simp only [EraDate.absoluteYear]
    omega

end

namespace NumbersDays

variable (hnum : c.NumbersDays x f r one)
include hnum

/-- A number within the bounds leads to the day of the period that has it. Any other leads out of
the period. -/
theorem sharesPeriod_iff (hx : IsTimeOfDay x.millis) (hset : c.set x f v = .ok y) :
    (f.SharesPeriod x y ↔ r.actualMinimum ≤ v ∧ v ≤ r.actualMaximum) ∧
      (f.SharesPeriod x y → c.get y f = .ok v) := by
  obtain ⟨j, hday, hset⟩ := set_eq_ok_iff.mp hset
  obtain ⟨hrep, rfl⟩ := (renormalize_eq_ok_iff hx).mp hset
  rw [hnum.dayWith_eq] at hday
  have hj : one + v - 1 = j := Except.ok.inj hday
  have hrepresents : c.table.RepresentsDay j := by
    rw [← dayOfInstant_midnight_add j hx]
    exact EraTable.representsDay_dayOfInstant hrep
  -- The time of day does not matter to the period.
  have hshare : f.SharesPeriod x (c.dateOfDay j x.millis) ↔ j ∈ c.periodDays f x := by
    refine Iff.trans ?_ (and_iff_right hrepresents).symm
    cases f <;> exact Iff.rfl
  have hv : j - one + 1 = v := by omega
  rw [hshare]
  constructor
  · rw [hnum.mem_iff, hv]
  · intro hmem
    rw [hnum.get_eq j hmem, hv]

/-- A day of a period comes as many days later as its number is greater. -/
theorem dayWith_eq_add (h : c.table.IsOrdered) (hx : c.IsDate x) {g : Int}
    (hg : c.get x f = .ok g) : c.dayWith x f v = .ok (x.dayNumber + (v - g)) := by
  obtain ⟨j, millis, hj, rfl⟩ := exists_mem_periodDays h hx (f.sharesPeriod_self x)
  rw [hnum.get_eq j hj millis] at hg
  cases hg
  rw [hnum.dayWith_eq, dayNumber_dateOfDay]
  congr 1
  omega

end NumbersDays

/-! ## The value a field has -/

/-- Setting a field to the value it has at a date does not move the date. -/
theorem dayWith_get (h : c.table.IsOrdered) (hx : c.IsDate x) (hweek : f ≠ .weekOfYear)
    (hmonth : f ≠ .weekOfMonth) :
    ∃ v, c.get x f = .ok v ∧ c.dayWith x f v = .ok x.dayNumber := by
  cases f with
  | era =>
      have he := hx.era_mem h
      exact ⟨x.era.index, rfl, (Replaces.era x.era.index x.era (h.index_nonneg he)
        (h.at?_index he)).dayWith_eq⟩
  | year => exact ⟨x.year, rfl, (Replaces.year x.year).dayWith_eq⟩
  | month => exact ⟨x.month, rfl, (Replaces.month x.month).dayWith_eq⟩
  | dayOfMonth =>
      obtain ⟨r, one, -, hnum⟩ := exists_numbersDays_dayOfMonth h hx
      refine ⟨x.day, rfl, ?_⟩
      rw [hnum.dayWith_eq_add h hx rfl, Int.sub_self, Int.add_zero]
  | dayOfYear =>
      obtain ⟨r, one, -, hnum⟩ := exists_numbersDays_dayOfYear h hx
      refine ⟨x.dayOfYear, rfl, ?_⟩
      rw [hnum.dayWith_eq_add h hx rfl, Int.sub_self, Int.add_zero]
  | dayOfWeekInMonth =>
      refine ⟨x.dayOfWeekInMonth, rfl, ?_⟩
      simp only [dayWith, Int.sub_self, Int.mul_zero, Int.add_zero]
  | weekOfYear => exact absurd rfl hweek
  | weekOfMonth => exact absurd rfl hmonth

/-! ## All fields that can be set -/

/-- What setting a field of a date leads to. The day of the year and the day of the month lead to a
date of the same period exactly when they are within the actual bounds, which are given out unless
the representable range cuts the period and the year is too long to be written; the field then has
the value it was set to. A replaced era, year or month gives the date with this part, if the
calendar accepts it and its instant is representable; an era by a position from 0 to the last, for
any other is refused. A field that is set to the value it has gives the date itself. -/
theorem set_sharesPeriod_iff {spec : Spec} (hc : ofSpec? spec = .ok c) (hx : c.IsDate x) :
    (∀ f, f = .dayOfYear ∨ f = .dayOfMonth →
      ∃ r, c.extent f x.era x.year x.month = .ok r ∧
        (∀ v y, c.set x f v = .ok y →
          (f.SharesPeriod x y ↔ r.actualMinimum ≤ v ∧ v ≤ r.actualMaximum) ∧
          (f.SharesPeriod x y → c.get y f = .ok v)) ∧
        (¬ (r.clamped = true ∧ ¬ Text.isWritable x.year = true) →
          ∃ range, c.fieldRange x f = .ok range ∧
            ∀ v, range.contains v = true ↔ r.actualMinimum ≤ v ∧ v ≤ r.actualMaximum)) ∧
    (∀ f v y, c.Replaces x f v y → c.IsDate y → c.table.Represents y.localInstant →
      c.set x f v = .ok y) ∧
    (∀ v : Int, ¬ (0 ≤ v ∧ v < c.table.size) →
      c.set x .era v = .error (.era (.index v c.id.name))) ∧
    (∀ f, f ≠ .weekOfYear → f ≠ .weekOfMonth → c.table.Represents x.localInstant →
      ∃ v, c.get x f = .ok v ∧ c.set x f v = .ok x) := by
  have h := isOrdered_of_ofSpec? hc
  have htime := ((isDate_iff h).mp hx).1
  refine ⟨?_, ?_, ?_, ?_⟩
  · intro f hf
    -- Both fields number the days of their period one by one.
    have hnum : ∃ r one, c.extent f x.era x.year x.month = .ok r ∧ c.NumbersDays x f r one := by
      rcases hf with rfl | rfl
      · exact exists_numbersDays_dayOfYear h hx
      · exact exists_numbersDays_dayOfMonth h hx
    obtain ⟨r, one, hr, hnum⟩ := hnum
    obtain ⟨r', l, hr', -, hrange⟩ := fieldRange_eq h hx f
    rw [hr] at hr'
    cases hr'
    refine ⟨r, hr, fun v y hset => hnum.sharesPeriod_iff htime hset, ?_⟩
    intro hshort
    rw [if_neg hshort] at hrange
    exact ⟨_, hrange, fun v => decide_eq_true_iff⟩
  · intro f v y hy hdate hrep
    exact set_eq_of_dayWith h hdate hy.millis_eq hy.dayWith_eq hrep
  · intro v hv
    simp only [set, dayWith, if_neg hv]
    rfl
  · intro f hweek hmonth hrep
    obtain ⟨v, hget, hday⟩ := dayWith_get h hx hweek hmonth
    exact ⟨v, hget, set_eq_of_dayWith h hx rfl hday hrep⟩

/-- Year 64 of Showa has seven days. Day 8 is the first of Heisei 1. -/
theorem set_sharesPeriod_showa :
    ∃ c x y z, ofSpec? Spec.japanese = .ok c ∧ c.date? (.name "Showa") 64 1 7 0 = .ok x ∧
      c.set x .dayOfYear 8 = .ok y ∧ y.key = [4, 1, 1, 8, 0] ∧
      ¬ Field.SharesPeriod .dayOfYear x y ∧ c.date? (.name "Showa") 63 1 7 0 = .ok z ∧
      c.set x .year 63 = .ok z ∧ c.set x .dayOfYear 7 = .ok x := by
  refine ⟨_, _, _, _, rfl, rfl, rfl, rfl, ?_, rfl, ?_⟩
  · obtain ⟨hdays, -⟩ :=
      @set_sharesPeriod_iff _ _ Spec.japanese rfl ⟨.name "Showa", 64, 1, 7, 0, rfl⟩
    obtain ⟨r, hr, hset, -⟩ := hdays .dayOfYear (Or.inl rfl)
    cases hr
    rw [(hset 8 _ rfl).1]
    decide
  · obtain ⟨-, hparts, -, hself⟩ :=
      @set_sharesPeriod_iff _ _ Spec.japanese rfl ⟨.name "Showa", 64, 1, 7, 0, rfl⟩
    obtain ⟨v, hv, hset⟩ := hself .dayOfYear (by decide) (by decide) (by decide)
    cases hv
    exact ⟨hparts .year 63 _ (Replaces.year 63) ⟨.name "Showa", 63, 1, 7, 0, rfl⟩ (by decide), hset⟩

/-- Position -1 is that of the open era, and the date of Reiwa 45 exists, but no era is set by this
position. -/
theorem set_era_negative :
    ∃ c x reiwa, ofSpec? Spec.japanese = .ok c ∧ c.date? (.name "Showa") 45 1 1 0 = .ok x ∧
      c.table.at? (-1) = .ok reiwa ∧
      c.date? (.era reiwa) 45 1 1 0 = .ok { x with era := reiwa } ∧
      c.table.Represents { x with era := reiwa }.localInstant ∧
      c.set x .era (-1) = .error (.era (.index (-1) "japanese")) :=
  ⟨_, _, _, rfl, rfl, rfl, rfl, by decide, rfl⟩

end EraChronology.Calendar
