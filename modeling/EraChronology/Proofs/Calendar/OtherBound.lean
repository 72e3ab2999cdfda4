import EraChronology.Proofs.Calendar.Agreement
import EraChronology.Proofs.Calendar.Extremes
import EraChronology.Proofs.Calendar.WeekOfYear

set_option autoImplicit false

/-! # The same calendar with another bound

A bound decides which definitions of eras are accepted, but not which eras they give
(`erasFrom?_eq_of_bounds`). Two calendars that differ in their bounds only (`SameButBound`) have the
same eras with the same ends. A date that both accept is the same in both (`SameButBound.date?_eq`),
and of a period that neither bound cuts they have the same span (`SameButBound.spanOf_eq`). So they
agree on fields and ranges wherever neither of them reports a cut (`get_otherBound`).

For the week of the year the year before counts too, and this year may well be cut without a report.
But its weeks are counted from its own first day, which does not depend on the bound, up to its last
day, which comes before a date of the calendar and is therefore not past the ceiling
(`SameButBound.weeksOfYear_eq`).
-/

namespace EraChronology

/-! ## The eras -/

namespace EraTable

variable {bound bound' : Bound} {before rest : List EraDef} {d : EraDef} {eras eras' : List Era}
  {n n' : Int}

theorem origin?_eq_of_bounds (h : origin? bound before d = .ok n)
    (h' : origin? bound' before d = .ok n') : n = n' := by
  -- The bound is only asked whether it contains the start, not what the year of the start is.
  obtain ⟨-, ⟨hsince, -, rfl⟩ | ⟨t, hsince, -, rfl⟩⟩ :=
      (origin?_eq_ok_iff bound before d n).mp h <;>
    obtain ⟨-, ⟨hsince', -, rfl⟩ | ⟨t', hsince', -, rfl⟩⟩ :=
      (origin?_eq_ok_iff bound' before d n').mp h'
  · rfl
  · simp [hsince] at hsince'
  · simp [hsince] at hsince'
  · rw [hsince, Option.some.injEq] at hsince'
    rw [hsince']

theorem erasFrom?_eq_of_bounds (h : erasFrom? bound before rest = .ok eras)
    (h' : erasFrom? bound' before rest = .ok eras') : eras = eras' := by
  induction rest generalizing before eras eras' with
  | nil =>
      cases h
      cases h'
      rfl
  | cons d rest ih =>
      obtain ⟨n, later, hn, hlater, rfl⟩ := (erasFrom?_cons_eq_ok_iff bound before d rest _).mp h
      obtain ⟨n', later', hn', hlater', rfl⟩ :=
        (erasFrom?_cons_eq_ok_iff bound' before d rest _).mp h'
      rw [origin?_eq_of_bounds hn hn', ih hlater hlater']

section

variable {s t : EraTable} (h : s.eras = t.eras)
include h

theorem lastDay_congr (e : Era) : s.lastDay e = t.lastDay e := by
  unfold lastDay lastInstant nextStart at? size
  rw [h]

theorem byName?_congr (name : String) : s.byName? name = t.byName? name := by
  unfold byName? names
  rw [h]

end

end EraTable

/-- The number of weeks of a year depends on its first and its last day only. -/
theorem WeekRule.maxWeekOfYear_congr (w : WeekRule) {s s' : Span} (hanchor : s.anchor = s'.anchor)
    (hlast : s.last = s'.last) (hnatural : s.naturalLast = s'.naturalLast) :
    w.maxWeekOfYear s = w.maxWeekOfYear s' := by
  simp only [maxWeekOfYear, hanchor, hlast, hnatural]

namespace Calendar

variable {a b : Calendar} {e e' : Era} {f : Field} {n m d millis : Int} {s s' : Span}
  {x y : EraDate} {ref : EraRef} {ra rb : FieldRange}

/-- Two calendars with the same name, the same eras and the same weeks. -/
structure SameButBound (a b : Calendar) : Prop where
  id_eq : a.id = b.id
  eras_eq : a.table.eras = b.table.eras
  weeks_eq : a.weeks = b.weeks

theorem sameButBound_of_ofSpec? {spec : Spec} {bound : Bound} (ha : ofSpec? spec = .ok a)
    (hb : ofSpec? { spec with bound := bound } = .ok b) : a.SameButBound b := by
  obtain ⟨htable, hweeks, hid⟩ := ofSpec?_eq_ok_iff.mp ha
  obtain ⟨htable', hweeks', hid'⟩ := ofSpec?_eq_ok_iff.mp hb
  obtain ⟨-, -, heras⟩ := EraTable.ofDefs?_eq_ok_iff.mp htable
  obtain ⟨-, -, heras'⟩ := EraTable.ofDefs?_eq_ok_iff.mp htable'
  exact ⟨hid.trans hid'.symm, EraTable.erasFrom?_eq_of_bounds heras heras',
    Except.ok.inj (hweeks.symm.trans hweeks')⟩

namespace SameButBound

/-! ## The dates -/

theorem eraOf?_eq (h : a.SameButBound b) (ha : a.table.IsOrdered) (hb : b.table.IsOrdered)
    (he : a.eraOf? ref = .ok e) (he' : b.eraOf? ref = .ok e') : e = e' := by
  cases ref with
  | name name =>
      have hsame : a.table.byName? name = b.table.byName? name :=
        EraTable.byName?_congr h.eras_eq name
      exact Except.ok.inj (he.symm.trans (hsame.trans he'))
  | era own =>
      obtain ⟨rfl, -⟩ := (ownEra?_eq_ok_iff ha).mp he
      obtain ⟨rfl, -⟩ := (ownEra?_eq_ok_iff hb).mp he'
      rfl

theorem date?_eq (h : a.SameButBound b) (ha : a.table.IsOrdered) (hb : b.table.IsOrdered)
    (hx : a.date? ref n m d millis = .ok x) (hy : b.date? ref n m d millis = .ok y) : x = y := by
  obtain ⟨e, he, -, -, rfl⟩ := date?_eq_ok_iff.mp hx
  obtain ⟨e', he', -, -, rfl⟩ := date?_eq_ok_iff.mp hy
  rw [h.id_eq, h.eraOf?_eq ha hb he he']

/-! ## The spans -/

theorem spanOf_eq (h : a.SameButBound b) (ha : a.table.IsOrdered) (he : e ∈ a.table.eras)
    (hm : 1 ≤ m ∧ m ≤ 12) (hs : a.spanOf f e n m = .ok s) (hs' : b.spanOf f e n m = .ok s')
    (hclamped : s.clamped = false) (hclamped' : s'.clamped = false) : s = s' := by
  obtain ⟨last, hlast⟩ := ha.exists_lastDay he
  have hlast' : b.table.lastDay e = .ok last := by
    rw [← hlast, EraTable.lastDay_congr h.eras_eq]
  rw [Calendar.spanOf_eq hlast hm] at hs
  rw [Calendar.spanOf_eq hlast' hm] at hs'
  cases hs
  cases hs'
  rw [cut_of_not_clamped hclamped, cut_of_not_clamped hclamped']

theorem weeksOfYear_eq (h : a.SameButBound b) (ha : a.table.IsOrdered) (hb : b.table.IsOrdered)
    (hx : a.IsDate x) (hx' : b.IsDate x) :
    a.weeksOfYear x.era (x.year - 1) = b.weeksOfYear x.era (x.year - 1) := by
  -- The year before is over before the date, which both ceilings let pass.
  have hday := hx.hasDay ha
  have hday' := hx'.hasDay hb
  have hover : Gregorian.dayNumber (x.era.absoluteYear (x.year - 1)) 12 31 < x.dayNumber := by
    apply Gregorian.newYearsEve_lt
    rw [hx.year_ofDayNumber ha]
    unfold Era.absoluteYear
    omega
  obtain ⟨last, hlast⟩ := ha.exists_lastDay (hx.era_mem ha)
  have hlast' : b.table.lastDay x.era = .ok last := by
    rw [← hlast, EraTable.lastDay_congr h.eras_eq]
  rw [weeksOfYear, weeksOfYear, yearSpan_eq hlast, yearSpan_eq hlast', h.weeks_eq]
  refine congrArg Except.ok (b.weeks.maxWeekOfYear_congr rfl ?_ rfl)
  rw [last_cut_of_lt hlast hday.2 hday.1.2 hover, last_cut_of_lt hlast' hday'.2 hday'.1.2 hover]

end SameButBound

/-! ## Fields and ranges -/

/-- The bound changes no value and no range of a field without a report. The date that both
calendars accept under the same parts is the same, and where neither of them says that the range of
a field is cut, both the range and the value are the same too. -/
theorem get_otherBound {spec : Spec} {bound : Bound} (ha : ofSpec? spec = .ok a)
    (hb : ofSpec? { spec with bound := bound } = .ok b) (hx : a.date? ref n m d millis = .ok x)
    (hy : b.date? ref n m d millis = .ok y) (hera : f ≠ .era) (hyear : f ≠ .year)
    (hra : a.fieldRange x f = .ok ra) (hrb : b.fieldRange y f = .ok rb)
    (hclamped : ra.clamped = false) (hclamped' : rb.clamped = false) :
    x = y ∧ (∃ v, a.get x f = .ok v ∧ b.get y f = .ok v) ∧ ra.extent = rb.extent := by
  have h := sameButBound_of_ofSpec? ha hb
  have ha' := isOrdered_of_ofSpec? ha
  have hb' := isOrdered_of_ofSpec? hb
  have hxy := h.date?_eq ha' hb' hx hy
  subst hxy
  have hx' : a.IsDate x := ⟨ref, n, m, d, millis, hx⟩
  have hy' : b.IsDate x := ⟨ref, n, m, d, millis, hy⟩
  have hextent := extent_of_fieldRange hra
  have hextent' := extent_of_fieldRange hrb
  obtain ⟨s, hs, hcut⟩ := exists_spanOf_of_extent hera hyear hextent
  obtain ⟨s', hs', hcut'⟩ := exists_spanOf_of_extent hera hyear hextent'
  -- A period that neither bound cuts is cut by the era alone, which is the same in both.
  have hspan : a.spanOf f x.era x.year x.month = b.spanOf f x.era x.year x.month := by
    rw [hs, hs', h.spanOf_eq ha' (hx'.era_mem ha') (hx'.month_mem ha') hs hs'
      (hcut.trans hclamped) (hcut'.trans hclamped')]
  refine ⟨rfl, ?_, ?_⟩
  · obtain ⟨v, hv⟩ := exists_get_eq_ok ha' hx' f
    have hget := get_congr h.weeks_eq rfl hspan fun _ => h.weeksOfYear_eq ha' hb' hx' hy'
    exact ⟨v, hv, hget.symm.trans hv⟩
  · have hsame := extent_congr h.weeks_eq rfl hspan hera hyear
    rw [hextent, hextent'] at hsame
    exact Except.ok.inj hsame

/-- New Year 2005 is in week 53 of 2004, also in a calendar that begins in July 2004. -/
theorem get_weekOfYear_otherBound :
    ∃ a b x ra rb, ofSpec? Spec.gregorian = .ok a ∧
      ofSpec? { Spec.gregorian with bound := ⟨1088640000000, Bound.highest, by decide⟩ } = .ok b ∧
      a.date? (.name "CE") 2005 1 1 0 = .ok x ∧ b.date? (.name "CE") 2005 1 1 0 = .ok x ∧
      a.fieldRange x .weekOfYear = .ok ra ∧ b.fieldRange x .weekOfYear = .ok rb ∧
      ra.clamped = false ∧ rb.clamped = false ∧ a.get x .weekOfYear = .ok 53 ∧
      b.get x .weekOfYear = .ok 53 ∧ ra.extent = rb.extent := by
  refine ⟨_, _, _, _, _, rfl, rfl, rfl, rfl, rfl, rfl, rfl, rfl, rfl, ?_⟩
  obtain ⟨-, ⟨v, hv, hv'⟩, hextent⟩ := @get_otherBound _ _ .weekOfYear _ _ _ _ _ _ _ _ _
    Spec.gregorian ⟨1088640000000, Bound.highest, by decide⟩ rfl rfl
    (show Calendar.date? _ (.name "CE") 2005 1 1 0 = _ from rfl) rfl (by decide) (by decide)
    rfl rfl rfl rfl
  cases hv
  exact ⟨hv', hextent⟩

end Calendar

end EraChronology
