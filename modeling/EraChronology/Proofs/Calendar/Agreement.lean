import EraChronology.Calendar.Fields
import EraChronology.Proofs.Calendar.FieldRange
import EraChronology.Proofs.EraTable.Appended

set_option autoImplicit false

/-! # Two calendars side by side

What a calendar says of a field at a date it works out from one or two spans: the one the field is
counted in (`spanOf`), and for a day before week 1 also that of the year before. So two calendars
with the same weeks agree on the range of a field where they agree on the span (`extent_congr`), and
on its value where they also agree on the number of weeks of the year before (`get_congr`).

The dates that are compared are the same, but for one thing: an era that is open in one of the
calendars may have an end in the other. `EraDate.closed` is what such dates have in common.
-/

namespace EraChronology

/-- The date in its era as it is once another one follows. -/
def EraDate.closed (x : EraDate) : EraDate := { x with era := x.era.closed }

/-- The first and the last day of the uncut period that a field is counted in: the month for the
fields within a month, else the year. -/
def Field.period (f : Field) (y m : Int) : Int × Int :=
  match f with
  | .dayOfMonth | .dayOfWeekInMonth | .weekOfMonth =>
    (Gregorian.dayNumber y m 1, Gregorian.dayNumber y m 1 + Gregorian.monthLength y m - 1)
  | _ => (Gregorian.dayNumber y 1 1, Gregorian.dayNumber y 12 31)

theorem Field.period_le (f : Field) (y : Int) {m : Int} (hm : 1 ≤ m ∧ m ≤ 12) :
    (f.period y m).2 ≤ Gregorian.dayNumber y 12 31 := by
  have hadd := Gregorian.dayNumber_month_add_one y m hm
  have hle := Gregorian.firstOfMonth_le y (m + 1) 13 (by omega)
  have hnext := Gregorian.dayNumber_add_twelve y 1 1
  have heve := Gregorian.newYearsEve_eq y
  simp only [Int.reduceAdd] at hnext
  cases f <;> simp only [period] <;> omega

/-- The range of the period of a date, without the limits over the calendar. -/
def FieldRange.extent (r : FieldRange) : Extent :=
  ⟨r.minimum, r.actualMinimum, r.maximum, r.actualMaximum, r.clamped⟩

namespace Calendar

variable {a b c : Calendar} {e e' : Era} {f : Field} {n m : Int} {last : Option Int} {x y : EraDate}
  {r : Extent} {range : FieldRange}

theorem ofSpec?_eq_ok_iff {spec : Spec} :
    ofSpec? spec = .ok c ↔
      EraTable.ofDefs? spec.bound spec.eras = .ok c.table ∧
        WeekRule.ofSettings? spec.firstDayOfWeek spec.minimalDays = .ok c.weeks ∧
        c.id = spec.id := by
  unfold ofSpec?
  simp only [bind_eq_ok_iff, pure_eq_ok_iff]
  constructor
  · rintro ⟨table, htable, weeks, hweeks, rfl⟩
    exact ⟨htable, hweeks, rfl⟩
  · rintro ⟨htable, hweeks, hid⟩
    exact ⟨c.table, htable, c.weeks, hweeks, by rw [← hid]⟩

/-! ## The span of a field -/

def spanOf (c : Calendar) (f : Field) (e : Era) (n m : Int) : Except Error Span :=
  match f with
  | .dayOfMonth | .dayOfWeekInMonth | .weekOfMonth => c.monthSpan e n m
  | _ => c.yearSpan e n

def weeksOfYear (c : Calendar) (e : Era) (n : Int) : Except Error Int :=
  (c.yearSpan e n).map c.weeks.maxWeekOfYear

theorem spanOf_eq (hlast : c.table.lastDay e = .ok last) (hm : 1 ≤ m ∧ m ≤ 12) (f : Field)
    (n : Int) :
    c.spanOf f e n m = .ok (c.cut e last (f.period (e.absoluteYear n) m).1
      (f.period (e.absoluteYear n) m).2) := by
  cases f
  case dayOfMonth | dayOfWeekInMonth | weekOfMonth => exact monthSpan_eq hlast hm
  all_goals exact yearSpan_eq hlast n

/-- The range of a field is that of a span, and it is cut when the span is. -/
theorem exists_spanOf_of_extent (hera : f ≠ .era) (hyear : f ≠ .year)
    (hr : c.extent f e n m = .ok r) :
    ∃ s, c.spanOf f e n m = .ok s ∧ s.clamped = r.clamped := by
  cases f
  case era => exact absurd rfl hera
  case year => exact absurd rfl hyear
  case dayOfMonth | dayOfWeekInMonth =>
    obtain ⟨s, hs, hr⟩ := bind_eq_ok_iff.mp hr
    obtain ⟨length, -, hr⟩ := bind_eq_ok_iff.mp hr
    rw [pure_eq_ok_iff] at hr
    exact ⟨s, hs, congrArg Extent.clamped hr⟩
  all_goals
    obtain ⟨s, hs, hr⟩ := bind_eq_ok_iff.mp hr
    rw [pure_eq_ok_iff] at hr
    exact ⟨s, hs, congrArg Extent.clamped hr⟩

/-! ## Ranges -/

theorem extent_congr (hweeks : a.weeks = b.weeks) (horigin : e.yearOrigin = e'.yearOrigin)
    (hspan : a.spanOf f e n m = b.spanOf f e' n m) (hera : f ≠ .era) (hyear : f ≠ .year) :
    a.extent f e n m = b.extent f e' n m := by
  have habsolute : e.absoluteYear n = e'.absoluteYear n := by
    unfold Era.absoluteYear
    rw [horigin]
  have hlength : monthLengthOf e n m = monthLengthOf e' n m := by
    unfold monthLengthOf
    rw [habsolute]
  cases f
  case era => exact absurd rfl hera
  case year => exact absurd rfl hyear
  all_goals
    simp only [spanOf] at hspan
    simp only [extent, hspan, hweeks, hlength, habsolute]

theorem extent_of_fieldRange (hrange : c.fieldRange x f = .ok range) :
    c.extent f x.era x.year x.month = .ok range.extent := by
  obtain ⟨r, hr, hrange⟩ := bind_eq_ok_iff.mp hrange
  obtain ⟨l, -, hrange⟩ := bind_eq_ok_iff.mp hrange
  obtain ⟨-, -, hrange⟩ := bind_eq_ok_iff.mp hrange
  rw [pure_eq_ok_iff] at hrange
  subst hrange
  exact hr

/-- The bounds of a field at a date of either calendar are the same, and both calendars give them
out or, for a cut period of a year that is too long to be written, neither does. -/
def SameRange (a b : Calendar) (x y : EraDate) (f : Field) : Prop :=
  ∃ r, a.extent f x.era x.year x.month = .ok r ∧ b.extent f y.era y.year y.month = .ok r ∧
    (r.clamped = true ∧ ¬ Text.isWritable x.year = true →
      a.fieldRange x f = .error (.input .longNumber) ∧
        b.fieldRange y f = .error (.input .longNumber)) ∧
    (¬ (r.clamped = true ∧ ¬ Text.isWritable x.year = true) →
      ∃ range range', a.fieldRange x f = .ok range ∧ b.fieldRange y f = .ok range' ∧
        range.extent = r ∧ range'.extent = r)

theorem sameRange_of_extent_eq (ha : a.table.IsOrdered) (hb : b.table.IsOrdered) (hx : a.IsDate x)
    (hy : b.IsDate y) (hyear : x.year = y.year)
    (hextent : a.extent f x.era x.year x.month = b.extent f y.era y.year y.month) :
    a.SameRange b x y f := by
  obtain ⟨r, l, hr, -, hrange⟩ := fieldRange_eq ha hx f
  obtain ⟨r', l', hr', -, hrange'⟩ := fieldRange_eq hb hy f
  have hsame : r = r' := by
    rw [hr, hr'] at hextent
    exact Except.ok.inj hextent
  subst hsame
  rw [← hyear] at hrange'
  refine ⟨r, hr, hr', ?_, ?_⟩
  · intro hlong
    rw [if_pos hlong] at hrange hrange'
    exact ⟨hrange, hrange'⟩
  · intro hshort
    rw [if_neg hshort] at hrange hrange'
    exact ⟨_, _, hrange, hrange', rfl, rfl⟩

/-! ## Values -/

theorem weekOfYear_eq_bind (c : Calendar) (x : EraDate) :
    c.weekOfYear x = (c.yearSpan x.era x.year).bind fun s =>
      if c.weeks.weekOfYear s x.dayNumber = 0 then c.weeksOfYear x.era (x.year - 1)
      else .ok (c.weeks.weekOfYear s x.dayNumber) := by
  unfold weekOfYear weeksOfYear
  cases c.yearSpan x.era (x.year - 1) <;> rfl

theorem get_congr (hweeks : a.weeks = b.weeks) (hxy : x.closed = y.closed)
    (hspan : a.spanOf f x.era x.year x.month = b.spanOf f y.era y.year y.month)
    (hprevious : f = .weekOfYear →
      a.weeksOfYear x.era (x.year - 1) = b.weeksOfYear y.era (y.year - 1)) :
    a.get x f = b.get y f := by
  -- No value of a date depends on whether its era is open.
  have hvalue : ∀ value : EraDate → Int, value x.closed = value y.closed :=
    fun value => congrArg value hxy
  have hday : x.dayNumber = y.dayNumber := hvalue EraDate.dayNumber
  cases f
  case era => exact congrArg Except.ok (hvalue fun z => z.era.index)
  case year => exact congrArg Except.ok (hvalue EraDate.year)
  case month => exact congrArg Except.ok (hvalue EraDate.month)
  case dayOfMonth => exact congrArg Except.ok (hvalue EraDate.day)
  case dayOfYear => exact congrArg Except.ok (hvalue EraDate.dayOfYear)
  case dayOfWeekInMonth => exact congrArg Except.ok (hvalue EraDate.dayOfWeekInMonth)
  case weekOfYear =>
    simp only [spanOf] at hspan
    simp only [get, weekOfYear_eq_bind, hspan, hprevious rfl, hweeks, hday]
  case weekOfMonth =>
    simp only [spanOf] at hspan
    simp only [get, weekOfMonth, hspan, hweeks, hday]

end Calendar

end EraChronology
