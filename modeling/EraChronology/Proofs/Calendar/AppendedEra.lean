import EraChronology.Proofs.Calendar.Agreement
import EraChronology.Proofs.Calendar.Extremes
import EraChronology.Proofs.Calendar.RoundTrip

set_option autoImplicit false

/-! # A calendar with an era appended

An era that is appended to a calendar takes the wall clocks from its start on; those before it show
the same dates as in the shorter calendar (`resolve_of_lt`, `era_of_resolve`). The era that was open
now has an end, and this end reaches the spans of the year it lies in and of no year before
(`spanOf_closed`). So all fields have the values and the ranges they had in the years before that of
the day on which the era ends (`resolve_withEra`).
-/

namespace EraChronology.Calendar

variable {b c : Calendar} {e last : Era} {f : Field} {n m j start t offset : Int}
  {x y : EraDate}

/-- The calendar `c` is the calendar `b` with the era `last` after its eras. -/
structure Extends (b c : Calendar) (last : Era) : Prop where
  id_eq : c.id = b.id
  weeks_eq : c.weeks = b.weeks
  table : b.table.Extends c.table last

theorem exists_extends_of_ofSpec? {spec : Spec} {d : EraDef} (hb : ofSpec? spec = .ok b)
    (hc : ofSpec? (spec.withEra d) = .ok c) : ∃ last, b.Extends c last ∧ last.IsOf d := by
  obtain ⟨htable, hweeks, hid⟩ := ofSpec?_eq_ok_iff.mp hb
  obtain ⟨htable', hweeks', hid'⟩ := ofSpec?_eq_ok_iff.mp hc
  obtain ⟨last, hextends, hlast⟩ := EraTable.exists_extends_of_ofDefs? htable htable'
  refine ⟨last, ⟨hid'.trans hid.symm, ?_, hextends⟩, hlast⟩
  have hsame : WeekRule.ofSettings? spec.firstDayOfWeek spec.minimalDays = .ok c.weeks := hweeks'
  rw [hweeks] at hsame
  exact (Except.ok.inj hsame).symm

namespace Extends

/-! ## Dates -/

theorem start_mod (h : b.Extends c last) (hc : c.table.IsOrdered)
    (hstart : last.since = some start) : start % msPerDay = 0 :=
  (hc.startsWithin last h.table.last_mem start hstart).1

theorem dateOfDay_of_lt (h : b.Extends c last) (hc : c.table.IsOrdered) (hj : j < last.firstDay)
    (millis : Int) : c.dateOfDay j millis = (b.dateOfDay j millis).closed := by
  obtain ⟨start, hstart⟩ := h.table.exists_start hc
  have hfirst := Era.firstDay_of_since hstart
  have hera : c.table.eraOfDay j = (b.table.eraOfDay j).closed := by
    apply h.table.eraAt_of_lt hstart
    rw [← Int.not_le, le_midnight_iff (h.start_mod hc hstart)]
    omega
  simp only [dateOfDay, hera, h.id_eq]
  rfl

/-- Before the new era wall clocks show the dates they showed, or none for the same reason. -/
theorem resolve_of_lt (h : b.Extends c last) (hc : c.table.IsOrdered)
    (hstart : last.since = some start) (hlt : t + offset < start) :
    c.resolve t offset = (b.resolve t offset).map EraDate.closed := by
  have hday : dayOfInstant (t + offset) < last.firstDay := by
    rw [Era.firstDay_of_since hstart]
    exact dayOfInstant_lt (h.start_mod hc hstart) hlt
  unfold resolve
  simp only [h.table.checkInstant_eq, h.table.floorDay_eq, h.table.first_eq,
    h.dateOfDay_of_lt hc hday]
  cases b.table.checkInstant t with
  | error fault => rfl
  | ok t' =>
      simp only [bind, Except.bind]
      split <;> rfl

theorem era_of_resolve (h : b.Extends c last) (hc : c.table.IsOrdered)
    (hstart : last.since = some start) (hle : start ≤ t + offset)
    (hy : c.resolve t offset = .ok y) : y.era = last := by
  obtain ⟨-, -, rfl⟩ := resolve_eq_ok_iff.mp hy
  apply h.table.eraAt_of_le hstart
  rw [le_midnight_iff (h.start_mod hc hstart)]
  exact dayOfInstant_le hle

theorem representsDay_iff (h : b.Extends c last) (j : Int) :
    c.table.RepresentsDay j ↔ b.table.RepresentsDay j := by
  unfold EraTable.RepresentsDay
  rw [h.table.floorDay_eq, h.table.ceilingDay_eq]

/-- The years before the one of the last day without the new era are over before that day. -/
theorem newYearsEve_lt (h : b.Extends c last) (hc : c.table.IsOrdered)
    (hstart : last.since = some start) {y : Int} (hy : y < EraTable.yearOfInstant (start - 1)) :
    Gregorian.dayNumber y 12 31 < last.firstDay - 1 := by
  unfold EraTable.yearOfInstant at hy
  rw [dayOfInstant_sub_one (h.start_mod hc hstart)] at hy
  rw [Era.firstDay_of_since hstart]
  exact Gregorian.newYearsEve_lt hy

section

variable (h : b.Extends c last) (hb : b.table.IsOrdered) (hc : c.table.IsOrdered)
include h hb hc

theorem isDate_closed (hx : b.IsDate x) (hlt : x.dayNumber < last.firstDay) :
    c.IsDate x.closed := by
  obtain ⟨htime, hrep, hdate⟩ := (isDate_iff hb).mp hx
  rw [← hdate, ← h.dateOfDay_of_lt hc hlt]
  exact isDate_dateOfDay hc ((h.representsDay_iff _).mpr hrep) htime

theorem exists_isDate_closed_eq (hy : c.IsDate y) (hlt : y.dayNumber < last.firstDay) :
    ∃ x, b.IsDate x ∧ x.closed = y := by
  obtain ⟨htime, hrep, hdate⟩ := (isDate_iff hc).mp hy
  rw [h.dateOfDay_of_lt hc hlt] at hdate
  exact ⟨_, isDate_dateOfDay hb ((h.representsDay_iff _).mp hrep) htime, hdate⟩

/-! ## The years before the one in which the open era ends -/

/-- A period that is over before the day on which the open era ends is cut as before. -/
theorem exists_cut_closed (he : e ∈ b.table.eras) :
    ∃ day day', b.table.lastDay e = .ok day ∧ c.table.lastDay e.closed = .ok day' ∧
      ∀ lo hi, hi < last.firstDay - 1 → c.cut e.closed day' lo hi = b.cut e day lo hi := by
  rcases h.table.lastDay_closed hb hc he with ⟨hopen, hend⟩ | ⟨day, hday, hday'⟩
  · -- The open era now ends, but after the period: its end neither cuts the period nor is its last
    -- day, so `endsEra` stays as it was.
    refine ⟨none, _, hopen, hend, ?_⟩
    intro lo hi hlt
    have hmin : min hi (last.firstDay - 1) = hi := Int.min_eq_left (Int.le_of_lt hlt)
    have hne : ¬ last.firstDay - 1 = hi := by omega
    simp only [cut, h.table.floorDay_eq, h.table.ceilingDay_eq, Option.map_some, Option.map_none,
      Option.getD_some, Option.getD_none, hmin, Option.some.injEq, hne, reduceCtorEq]
    rfl
  · refine ⟨_, _, hday, hday', ?_⟩
    intro lo hi _
    simp only [cut, h.table.floorDay_eq, h.table.ceilingDay_eq]
    rfl

theorem spanOf_closed (he : e ∈ b.table.eras) (hm : 1 ≤ m ∧ m ≤ 12)
    (hover : Gregorian.dayNumber (e.absoluteYear n) 12 31 < last.firstDay - 1) (f : Field) :
    c.spanOf f e.closed n m = b.spanOf f e n m := by
  obtain ⟨day, day', hday, hday', hcut⟩ := h.exists_cut_closed hb hc he
  have hle := f.period_le (e.absoluteYear n) hm
  rw [spanOf_eq hday hm, spanOf_eq hday' hm, ← hcut _ _ (by omega)]
  rfl

theorem weeksOfYear_closed (he : e ∈ b.table.eras)
    (hover : Gregorian.dayNumber (e.absoluteYear n) 12 31 < last.firstDay - 1) :
    c.weeksOfYear e.closed n = b.weeksOfYear e n := by
  have hspan := h.spanOf_closed hb hc he (m := 1) (by decide) hover .year
  simp only [spanOf] at hspan
  rw [weeksOfYear, weeksOfYear, hspan, h.weeks_eq]

variable (hx : b.IsDate x)
  (hover : Gregorian.dayNumber x.absoluteYear 12 31 < last.firstDay - 1)
include hx hover

theorem get_closed (f : Field) : c.get x.closed f = b.get x f := by
  have he := hx.era_mem hb
  -- A day before week 1 is looked up in the year before, which is over even earlier.
  have hearlier : x.era.absoluteYear (x.year - 1) ≤ x.absoluteYear := by
    unfold EraDate.absoluteYear Era.absoluteYear
    omega
  have hprevious : Gregorian.dayNumber (x.era.absoluteYear (x.year - 1)) 12 31 <
      last.firstDay - 1 :=
    calc Gregorian.dayNumber (x.era.absoluteYear (x.year - 1)) 12 31
        ≤ Gregorian.dayNumber x.absoluteYear 12 31 := Gregorian.newYearsEve_le hearlier
      _ < last.firstDay - 1 := hover
  exact get_congr h.weeks_eq rfl (h.spanOf_closed hb hc he (hx.month_mem hb) hover f)
    fun _ => h.weeksOfYear_closed hb hc he hprevious

theorem extent_closed (hera : f ≠ .era) (hyear : f ≠ .year) :
    c.extent f x.closed.era x.closed.year x.closed.month = b.extent f x.era x.year x.month :=
  extent_congr h.weeks_eq rfl
    (h.spanOf_closed hb hc (hx.era_mem hb) (hx.month_mem hb) hover f) hera hyear

end

end Extends

/-- An era that is appended has the wall clocks from its start on. Those before it show the same
dates or none, but for the era that was open: it is not any more. The dates of the years before
the one in which this era ends are the same too, and so are their values of all fields and their
ranges of all but those that number eras and years. -/
theorem resolve_withEra {spec : Spec} {d : EraDef} (hb : ofSpec? spec = .ok b)
    (hc : ofSpec? (spec.withEra d) = .ok c) :
    ∃ start, d.since = some start ∧
      (∀ t offset, t + offset < start →
        c.resolve t offset = (b.resolve t offset).map EraDate.closed) ∧
      (∀ e ∈ b.table.eras, e ≠ b.table.openEra → e.closed = e) ∧
      (∀ t offset y, start ≤ t + offset → c.resolve t offset = .ok y →
        y.era = c.table.openEra ∧ y.era.IsOf d) ∧
      (∀ y, c.IsDate y → y.absoluteYear < EraTable.yearOfInstant (start - 1) →
        ∃ x, b.IsDate x ∧ x.closed = y) ∧
      ∀ x, b.IsDate x → x.absoluteYear < EraTable.yearOfInstant (start - 1) →
        c.IsDate x.closed ∧ (∀ f, ∃ v, b.get x f = .ok v ∧ c.get x.closed f = .ok v) ∧
        ∀ f, f ≠ .era → f ≠ .year → b.SameRange c x x.closed f := by
  have hb' := isOrdered_of_ofSpec? hb
  have hc' := isOrdered_of_ofSpec? hc
  obtain ⟨last, h, hlast⟩ := exists_extends_of_ofSpec? hb hc
  obtain ⟨start, hstart⟩ := h.table.exists_start hc'
  refine ⟨start, hlast.2.2.1.symm.trans hstart, ?_, ?_, ?_, ?_, ?_⟩
  · intro t offset hlt
    exact h.resolve_of_lt hc' hstart hlt
  · intro e he hne
    have hclosed : e.isOpen ≠ true := fun hopen => hne (hb'.eq_openEra he hopen)
    unfold Era.closed
    rw [← Bool.eq_false_iff.mpr hclosed]
  · intro t offset y hle hy
    have hera := h.era_of_resolve hc' hstart hle hy
    exact ⟨hera.trans h.table.openEra_eq.symm, by rw [hera]; exact hlast⟩
  · intro y hy hbefore
    have hover := h.newYearsEve_lt hc' hstart hbefore
    have hday := hy.dayNumber_le hc'
    exact h.exists_isDate_closed_eq hb' hc' hy (by omega)
  · -- The year is over before the new era begins, so its periods are cut as before.
    intro x hx hbefore
    have hover := h.newYearsEve_lt hc' hstart hbefore
    have hday := hx.dayNumber_le hb'
    have hx' := h.isDate_closed hb' hc' hx (by omega)
    refine ⟨hx', ?_, ?_⟩
    · intro f
      obtain ⟨v, hv⟩ := exists_get_eq_ok hb' hx f
      exact ⟨v, hv, (h.get_closed hb' hc' hx hover f).trans hv⟩
    · intro f hera hyear
      have hextent := (h.extent_closed hb' hc' hx hover hera hyear).symm
      exact sameRange_of_extent_eq hb' hc' hx hx' rfl hextent

/-- A new era from 11 February 9999. Year 7980 of Reiwa is the one before its last. -/
theorem resolve_withEra_reiwa :
    ∃ b c x y, ofSpec? Spec.japanese = .ok b ∧
      ofSpec? (Spec.japanese.withEra ⟨"NewEra", some 253374307200000, none, "N", by decide⟩) =
        .ok c ∧
      c.resolve 253374307199999 0 = (b.resolve 253374307199999 0).map EraDate.closed ∧
      c.resolve 253374307200000 0 = .ok y ∧ y.era = c.table.openEra ∧
      b.date? (.name "Reiwa") 7980 12 31 0 = .ok x ∧
      x.absoluteYear < EraTable.yearOfInstant (253374307200000 - 1) ∧
      (∃ v, b.get x .weekOfYear = .ok v ∧ c.get x.closed .weekOfYear = .ok v) ∧
      ∃ range range', b.fieldRange x .dayOfYear = .ok range ∧
        c.fieldRange x.closed .dayOfYear = .ok range' ∧ range.extent = range'.extent := by
  refine ⟨_, _, _, _, rfl, rfl, ?_, rfl, ?_, rfl, by decide, ?_, ?_⟩
  all_goals
    obtain ⟨start, hstart, hbefore, -, hfrom, -, hdates⟩ := @resolve_withEra _ _ Spec.japanese
      ⟨"NewEra", some 253374307200000, none, "N", by decide⟩ rfl rfl
    cases hstart
  · exact hbefore _ _ (by decide)
  · exact (hfrom 253374307200000 0 _ (by decide) rfl).1
  · exact (hdates _ ⟨.name "Reiwa", 7980, 12, 31, 0, rfl⟩ (by decide)).2.1 .weekOfYear
  · obtain ⟨r, hr, -, -, hranges⟩ := (hdates _ ⟨.name "Reiwa", 7980, 12, 31, 0, rfl⟩
      (by decide)).2.2 .dayOfYear (by decide) (by decide)
    cases hr
    obtain ⟨range, range', hrange, hrange', heq, heq'⟩ := hranges fun hlong => nomatch hlong.1
    exact ⟨range, range', hrange, hrange', heq.trans heq'.symm⟩

end EraChronology.Calendar
