import EraChronology.Calendar.Conversion
import EraChronology.Proofs.EraTable.Ownership
import Mathlib.Data.List.Nodup
import Mathlib.Data.Set.Function

set_option autoImplicit false

/-! # The dates of a calendar

A calendar accepts a date when it names a representable day of its era and a time of day. The
checks on the way from a date to its day (`dayOf?_eq_ok_iff`) are the conditions under which
that day is given the same era, year, month and day on the way back (`dayOf?_eq_ok_iff_isNamed`),
so the two ways are inverse to each other (`accepts_iff_isNamed`).

What the calendar accepts is `Calendar.IsDate`, in terms of days `isDate_iff`.
-/

namespace EraChronology

@[simp] theorem Era.eraYear_absoluteYear (e : Era) (n : Int) :
    e.eraYear (e.absoluteYear n) = n := by
  unfold Era.eraYear Era.absoluteYear
  omega

@[simp] theorem Era.absoluteYear_eraYear (e : Era) (y : Int) :
    e.absoluteYear (e.eraYear y) = y := by
  unfold Era.eraYear Era.absoluteYear
  omega

/-- The year, the month and the day of a date without the era. -/
def EraDate.gregorian (x : EraDate) : Gregorian.Date := ⟨x.absoluteYear, x.month, x.day⟩

theorem EraTable.firstDay_first_le_floorDay (table : EraTable) :
    table.first.firstDay ≤ table.floorDay := by
  unfold EraTable.floorDay EraTable.minInstant
  rw [← midnight_le_iff]
  exact Int.le_max_right _ _

theorem EraTable.representsDay_dayOfInstant {table : EraTable} {t : Int}
    (h : table.Represents t) : table.RepresentsDay (dayOfInstant t) :=
  ⟨dayOfInstant_le h.1, dayOfInstant_le h.2⟩

namespace Calendar

variable {c : Calendar} {e : Era} {n m d millis j : Int}

/-- The day `j` is day `d` of month `m` of year `n` of the era `e`. -/
def IsNamed (c : Calendar) (j : Int) (e : Era) (n m d : Int) : Prop :=
  (c.dateOfDay j 0).era = e ∧ (c.dateOfDay j 0).year = n ∧ (c.dateOfDay j 0).month = m ∧
    (c.dateOfDay j 0).day = d

def IsDate (c : Calendar) (x : EraDate) : Prop :=
  ∃ ref n m d millis, c.date? ref n m d millis = .ok x

theorem isOrdered_of_ofSpec? {spec : Spec} (h : ofSpec? spec = .ok c) : c.table.IsOrdered := by
  unfold ofSpec? at h
  obtain ⟨table, htable, h⟩ := bind_eq_ok_iff.mp h
  obtain ⟨weeks, -, h⟩ := bind_eq_ok_iff.mp h
  cases h
  exact (EraTable.isOrdered_of_ofDefs? htable).1

/-! ## The date of a day -/

@[simp] theorem absoluteYear_dateOfDay (c : Calendar) (j millis : Int) :
    (c.dateOfDay j millis).absoluteYear = (Gregorian.ofDayNumber j).year :=
  Era.absoluteYear_eraYear _ _

@[simp] theorem dayNumber_dateOfDay (c : Calendar) (j millis : Int) :
    (c.dateOfDay j millis).dayNumber = j := by
  unfold EraDate.dayNumber
  rw [absoluteYear_dateOfDay]
  exact Gregorian.dayNumber_ofDayNumber j

theorem gregorian_dateOfDay (c : Calendar) (j millis : Int) :
    (c.dateOfDay j millis).gregorian = Gregorian.ofDayNumber j := by
  unfold EraDate.gregorian
  rw [absoluteYear_dateOfDay]
  rfl

/-- From the first representable day on, a day is dated in the era that has it. -/
theorem era_dateOfDay_eq_iff (h : c.table.IsOrdered) (he : e ∈ c.table.eras)
    (hj : c.table.floorDay ≤ j) (millis : Int) :
    (c.dateOfDay j millis).era = e ↔ c.table.HasDay e j :=
  h.eraOfDay_eq_iff he (Int.le_trans c.table.firstDay_first_le_floorDay hj)

theorem one_le_year_dateOfDay (h : c.table.IsOrdered) (hj : c.table.floorDay ≤ j)
    (millis : Int) : 1 ≤ (c.dateOfDay j millis).year := by
  have hday := (era_dateOfDay_eq_iff h (c.table.eraOfDay_mem j) hj millis).mp rfl
  have horigin := h.year_firstDay (c.table.eraOfDay_mem j)
  have hle := Gregorian.year_ofDayNumber_le hday.1
  simp only [dateOfDay, Era.eraYear]
  omega

/-! ## Own eras -/

theorem byName?_mem {table : EraTable} {name : String} (h : table.byName? name = .ok e) :
    e ∈ table.eras := by
  unfold EraTable.byName? at h
  cases hname : table.eras.find? fun e => e.name = name with
  | some found =>
      rw [hname] at h
      cases h
      exact List.mem_of_find?_eq_some hname
  | none =>
      rw [hname] at h
      cases habbr : (table.eras.filter fun e => e.abbr ≠ "" ∧ e.abbr = name).getLast? with
      | some found =>
          rw [habbr] at h
          cases h
          exact (List.mem_filter.mp (List.mem_of_getLast? habbr)).1
      | none =>
          rw [habbr] at h
          cases h

theorem byName?_name {table : EraTable} (h : table.IsOrdered) (he : e ∈ table.eras) :
    table.byName? e.name = .ok e := by
  unfold EraTable.byName?
  cases hfound : table.eras.find? fun e' => e'.name = e.name with
  | none =>
      have := List.find?_eq_none.mp hfound e he
      simp at this
  | some found =>
      -- Names differ, so the era found under the name of `e` is `e`.
      have hname : found.name = e.name := by simpa using List.find?_some hfound
      have hmem := List.mem_of_find?_eq_some hfound
      have := List.inj_on_of_nodup_map h.names_nodup hmem he hname
      rw [this]

theorem ownEra?_eq_ok_iff (h : c.table.IsOrdered) {found : Era} :
    c.ownEra? e = .ok found ↔ found = e ∧ e ∈ c.table.eras := by
  unfold ownEra?
  rw [bind_eq_ok_iff]
  constructor
  · rintro ⟨found', hfound, hsame⟩
    by_cases heq : found' = e
    · rw [if_pos heq, pure_eq_ok_iff] at hsame
      subst hsame
      exact ⟨heq, heq ▸ byName?_mem hfound⟩
    · rw [if_neg heq] at hsame
      exact absurd hsame throw_ne_ok
  · rintro ⟨rfl, he⟩
    exact ⟨found, byName?_name h he, by rw [if_pos rfl]; rfl⟩

theorem eraOf?_mem (h : c.table.IsOrdered) {ref : EraRef} (he : c.eraOf? ref = .ok e) :
    e ∈ c.table.eras := by
  cases ref with
  | name name => exact byName?_mem he
  | era e' =>
      obtain ⟨rfl, hmem⟩ := (ownEra?_eq_ok_iff h).mp he
      exact hmem

/-! ## The day of a date -/

/-- A date has a day when year, month and day exist and the day is representable and one of the
era. -/
theorem dayOf?_eq_ok_iff (h : c.table.IsOrdered) (he : e ∈ c.table.eras) :
    c.dayOf? e n m d = .ok j ↔
      1 ≤ n ∧ Gregorian.Date.IsValid ⟨e.absoluteYear n, m, d⟩ ∧
        Gregorian.dayNumber (e.absoluteYear n) m d = j ∧ c.table.RepresentsDay j ∧
        c.table.HasDay e j := by
  obtain ⟨last, hlast⟩ := h.exists_lastDay he
  unfold dayOf? Gregorian.Date.IsValid EraTable.HasDay
  -- The open era has no last day, and the check against it is left out.
  cases last with
  | none =>
      simp only [hlast, ite_error_eq_ok_iff, Except.ok.injEq, Classical.not_not, Int.not_lt]
      constructor
      · rintro ⟨hyear, hmonth, hday, hrep, hbegun, rfl⟩
        exact ⟨hyear, ⟨hmonth, hday⟩, rfl, hrep, hbegun, by simp⟩
      · rintro ⟨hyear, ⟨hmonth, hday⟩, rfl, hrep, hbegun, -⟩
        exact ⟨hyear, hmonth, hday, hrep, hbegun, rfl⟩
  | some last =>
      simp only [hlast, ite_error_eq_ok_iff, Except.ok.injEq, Option.some.injEq, forall_eq',
        Classical.not_not, Int.not_lt]
      constructor
      · rintro ⟨hyear, hmonth, hday, hrep, hbegun, hended, rfl⟩
        exact ⟨hyear, ⟨hmonth, hday⟩, rfl, hrep, hbegun, hended⟩
      · rintro ⟨hyear, ⟨hmonth, hday⟩, rfl, hrep, hbegun, hended⟩
        exact ⟨hyear, hmonth, hday, hrep, hbegun, hended, rfl⟩

/-- The day of a date is the day whose date it is. -/
theorem dayOf?_eq_ok_iff_isNamed (h : c.table.IsOrdered) (he : e ∈ c.table.eras) :
    c.dayOf? e n m d = .ok j ↔ c.table.RepresentsDay j ∧ c.IsNamed j e n m d := by
  rw [dayOf?_eq_ok_iff h he]
  constructor
  · rintro ⟨-, hvalid, rfl, hrep, hday⟩
    have hera : c.table.eraOfDay _ = e := (era_dateOfDay_eq_iff h he hrep.1 0).mpr hday
    have hdate := Gregorian.ofDayNumber_dayNumber hvalid
    refine ⟨hrep, hera, ?_, ?_, ?_⟩
    · show (c.table.eraOfDay _).eraYear (Gregorian.ofDayNumber _).year = n
      rw [hera, hdate, Era.eraYear_absoluteYear]
    · simp only [dateOfDay, hdate]
    · simp only [dateOfDay, hdate]
  · -- The year is at least 1 without a check: no day of an era comes before its year 1.
    rintro ⟨hrep, rfl, rfl, rfl, rfl⟩
    have hday := (era_dateOfDay_eq_iff h he hrep.1 0).mp rfl
    have hyear : (c.dateOfDay j 0).era.absoluteYear (c.dateOfDay j 0).year =
        (Gregorian.ofDayNumber j).year := absoluteYear_dateOfDay c j 0
    refine ⟨one_le_year_dateOfDay h hrep.1 0, ?_, ?_, hrep, hday⟩
    · rw [hyear]
      exact Gregorian.isValid_ofDayNumber j
    · rw [hyear]
      exact Gregorian.dayNumber_ofDayNumber j

/-! ## Accepted dates -/

theorem localInstantOf?_eq_ok_iff {t : Int} :
    c.localInstantOf? e n m d millis = .ok t ↔
      IsTimeOfDay millis ∧ ∃ j, c.dayOf? e n m d = .ok j ∧ midnight j + millis = t := by
  unfold localInstantOf? IsTimeOfDay
  rw [ite_error_eq_ok_iff, Classical.not_not, map_eq_ok_iff]

theorem date?_eq_ok_iff {ref : EraRef} {x : EraDate} :
    c.date? ref n m d millis = .ok x ↔
      ∃ e, c.eraOf? ref = .ok e ∧ IsTimeOfDay millis ∧ (∃ j, c.dayOf? e n m d = .ok j) ∧
        x = ⟨c.id, e, n, m, d, millis⟩ := by
  unfold date?
  simp only [bind_eq_ok_iff, pure_eq_ok_iff, localInstantOf?_eq_ok_iff]
  constructor
  · rintro ⟨e, he, t, ⟨htime, j, hj, -⟩, rfl⟩
    exact ⟨e, he, htime, ⟨j, hj⟩, rfl⟩
  · rintro ⟨e, he, htime, ⟨j, hj⟩, rfl⟩
    exact ⟨e, he, _, ⟨htime, j, hj, rfl⟩, rfl⟩

/-- The calendar accepts the dates of the representable days, with any time of day. -/
theorem isDate_iff (h : c.table.IsOrdered) {x : EraDate} :
    c.IsDate x ↔ IsTimeOfDay x.millis ∧ c.table.RepresentsDay x.dayNumber ∧
      c.dateOfDay x.dayNumber x.millis = x := by
  constructor
  · rintro ⟨ref, n, m, d, millis, hx⟩
    obtain ⟨e, he, htime, ⟨j, hj⟩, rfl⟩ := date?_eq_ok_iff.mp hx
    obtain ⟨hrep, hera, hyear, hmonth, hday⟩ :=
      (dayOf?_eq_ok_iff_isNamed h (eraOf?_mem h he)).mp hj
    have hdate : c.dateOfDay j millis = ⟨c.id, e, n, m, d, millis⟩ := by
      rw [← hera, ← hyear, ← hmonth, ← hday]
      rfl
    rw [← hdate, dayNumber_dateOfDay]
    exact ⟨htime, hrep, rfl⟩
  · rintro ⟨htime, hrep, hx⟩
    have hmem := c.table.eraOfDay_mem x.dayNumber
    have hday := (dayOf?_eq_ok_iff_isNamed h hmem).mpr ⟨hrep, rfl, rfl, rfl, rfl⟩
    have hown := (ownEra?_eq_ok_iff h).mpr ⟨rfl, hmem⟩
    exact ⟨.era (c.table.eraOfDay x.dayNumber), _, _, _, x.millis,
      date?_eq_ok_iff.mpr ⟨_, hown, htime, ⟨_, hday⟩, hx.symm⟩⟩

theorem isDate_dateOfDay (h : c.table.IsOrdered) (hj : c.table.RepresentsDay j)
    (hmillis : IsTimeOfDay millis) : c.IsDate (c.dateOfDay j millis) := by
  rw [isDate_iff h, dayNumber_dateOfDay]
  exact ⟨hmillis, hj, rfl⟩

/-! ## Parts of an accepted date -/

section

variable {x : EraDate} (h : c.table.IsOrdered) (hx : c.IsDate x)
include h hx

theorem IsDate.era_mem : x.era ∈ c.table.eras := by
  obtain ⟨-, -, hdate⟩ := (isDate_iff h).mp hx
  rw [← hdate]
  exact c.table.eraOfDay_mem _

theorem IsDate.ofDayNumber_eq : Gregorian.ofDayNumber x.dayNumber = x.gregorian := by
  obtain ⟨-, -, hdate⟩ := (isDate_iff h).mp hx
  rw [← gregorian_dateOfDay c x.dayNumber x.millis, hdate]

theorem IsDate.isValid : x.gregorian.IsValid := by
  rw [← hx.ofDayNumber_eq h]
  exact Gregorian.isValid_ofDayNumber _

theorem IsDate.month_mem : 1 ≤ x.month ∧ x.month ≤ 12 := (hx.isValid h).1

theorem IsDate.hasDay :
    c.table.RepresentsDay x.dayNumber ∧ c.table.HasDay x.era x.dayNumber := by
  obtain ⟨-, hrep, hdate⟩ := (isDate_iff h).mp hx
  have hera : (c.dateOfDay x.dayNumber x.millis).era = x.era := by rw [hdate]
  exact ⟨hrep, (era_dateOfDay_eq_iff h (hx.era_mem h) hrep.1 _).mp hera⟩

theorem IsDate.one_le_year : 1 ≤ x.year := by
  obtain ⟨-, hrep, hdate⟩ := (isDate_iff h).mp hx
  rw [← hdate]
  exact one_le_year_dateOfDay h hrep.1 x.millis

theorem IsDate.year_ofDayNumber :
    (Gregorian.ofDayNumber x.dayNumber).year = x.era.absoluteYear x.year :=
  congrArg Gregorian.Date.year (hx.ofDayNumber_eq h)

theorem IsDate.dayNumber_le :
    x.dayNumber ≤ Gregorian.dayNumber x.absoluteYear 12 31 :=
  ((Gregorian.year_ofDayNumber_eq_iff _ _).mp (hx.year_ofDayNumber h)).2

end

/-! ## The correspondence of days and dates -/

/-- The calendar accepts a date of one of its eras exactly when some representable day is named
so, and that day is the day of the date: the representable days and the dates they are given at
midnight correspond one to one. -/
theorem accepts_iff_isNamed {spec : Spec} (hc : ofSpec? spec = .ok c) :
    (∀ e ∈ c.table.eras, ∀ n m d millis : Int,
      (∃ x, c.date? (.era e) n m d millis = .ok x) ↔
        IsTimeOfDay millis ∧ ∃ j, c.table.RepresentsDay j ∧ c.IsNamed j e n m d) ∧
    (∀ e ∈ c.table.eras, ∀ n m d j : Int,
      c.dayOf? e n m d = .ok j ↔ c.table.RepresentsDay j ∧ c.IsNamed j e n m d) ∧
    Set.BijOn (fun j => c.dateOfDay j 0) {j | c.table.RepresentsDay j}
      {x | c.IsDate x ∧ x.millis = 0} := by
  have h := isOrdered_of_ofSpec? hc
  refine ⟨?_, ?_, ?_, ?_, ?_⟩
  · intro e he n m d millis
    constructor
    · rintro ⟨x, hx⟩
      obtain ⟨e', he', htime, ⟨j, hj⟩, -⟩ := date?_eq_ok_iff.mp hx
      obtain ⟨rfl, -⟩ := (ownEra?_eq_ok_iff h).mp he'
      exact ⟨htime, j, (dayOf?_eq_ok_iff_isNamed h he).mp hj⟩
    · rintro ⟨htime, j, hj⟩
      have hday := (dayOf?_eq_ok_iff_isNamed h he).mpr hj
      have hown := (ownEra?_eq_ok_iff h).mpr ⟨rfl, he⟩
      exact ⟨_, date?_eq_ok_iff.mpr ⟨e, hown, htime, ⟨j, hday⟩, rfl⟩⟩
  · intro e he n m d j
    exact dayOf?_eq_ok_iff_isNamed h he
  · intro j hj
    exact ⟨isDate_dateOfDay h hj (by decide), rfl⟩
  · intro j _ k _ hjk
    have hday := congrArg EraDate.dayNumber hjk
    simpa only [dayNumber_dateOfDay] using hday
  · rintro x ⟨hx, hmidnight⟩
    obtain ⟨-, hrep, hdate⟩ := (isDate_iff h).mp hx
    rw [hmidnight] at hdate
    exact ⟨x.dayNumber, hrep, hdate⟩

/-- 7 January of Showa 64 is a day of that era, the last one. -/
theorem isNamed_last_of_showa :
    ∃ c showa, ofSpec? Spec.japanese = .ok c ∧ c.table.eras[3]? = some showa ∧
      c.dayOf? showa 64 1 7 = .ok 2447534 ∧ c.IsNamed 2447534 showa 64 1 7 := by
  refine ⟨_, _, rfl, rfl, rfl, ?_⟩
  have hnamed := (@accepts_iff_isNamed _ Spec.japanese rfl).2.1
  exact ((hnamed _ (@List.mem_of_getElem? _ _ 3 _ rfl) 64 1 7 2447534).mp rfl).2

end Calendar

end EraChronology
