import EraChronology.Calendar.Period
import EraChronology.Proofs.Calendar.Dates
import EraChronology.Proofs.EraTable.LastYear

set_option autoImplicit false

/-! # The days of a year, of a month and of an era

A span is the Gregorian period cut to the era and to the representable days. Its days are
exactly the representable days that are dated in the year or the month
(`exists_yearSpan`, `exists_monthSpan`), whichever of the four cuts meets it. The days of a whole
era stand between two days as well (`exists_daysOfEra`), though no span is made of them.
-/

namespace EraChronology

def Span.days (s : Span) : Set Int := {j | s.first ≤ j ∧ j ≤ s.last}

namespace Calendar

variable {c : Calendar} {e : Era} {last : Option Int} {n m j lo hi : Int}

/-- A representable day that is dated in year `n` of the era `e`. -/
def InYear (c : Calendar) (j : Int) (e : Era) (n : Int) : Prop :=
  c.table.RepresentsDay j ∧ (c.dateOfDay j 0).era = e ∧ (c.dateOfDay j 0).year = n

/-- A representable day that is dated in month `m` of year `n` of the era `e`. -/
def InMonth (c : Calendar) (j : Int) (e : Era) (n m : Int) : Prop :=
  c.table.RepresentsDay j ∧ (c.dateOfDay j 0).era = e ∧ (c.dateOfDay j 0).year = n ∧
    (c.dateOfDay j 0).month = m

theorem InMonth.inYear (hj : c.InMonth j e n m) : c.InYear j e n :=
  ⟨hj.1, hj.2.1, hj.2.2.1⟩

theorem IsDate.inMonth {x : EraDate} (h : c.table.IsOrdered) (hx : c.IsDate x) :
    c.InMonth x.dayNumber x.era x.year x.month := by
  obtain ⟨-, hrep, hdate⟩ := (isDate_iff h).mp hx
  -- The time of day does not matter.
  have hera : (c.dateOfDay x.dayNumber x.millis).era = x.era := by rw [hdate]
  have hyear : (c.dateOfDay x.dayNumber x.millis).year = x.year := by rw [hdate]
  have hmonth : (c.dateOfDay x.dayNumber x.millis).month = x.month := by rw [hdate]
  exact ⟨hrep, hera, hyear, hmonth⟩

theorem IsDate.year_le {x : EraDate} {highest : Int} (h : c.table.IsOrdered) (hx : c.IsDate x)
    (hlast : c.table.maxYear x.era = .ok highest) : x.year ≤ highest := by
  obtain ⟨hrep, hday⟩ := hx.hasDay h
  have hyear := hx.year_ofDayNumber h
  obtain ⟨day, hmax, hdays⟩ := h.exists_last (hx.era_mem h)
  have hle := Gregorian.year_ofDayNumber_le ((hdays _).mp ⟨hrep.2, hday.2⟩)
  rw [hmax] at hlast
  cases hlast
  rw [hyear] at hle
  unfold Era.absoluteYear at hle
  unfold Era.eraYear
  omega

/-- The four cuts of a period leave its representable days that are dated in the era. -/
theorem mem_days_cut_iff (h : c.table.IsOrdered) (he : e ∈ c.table.eras)
    (hlast : c.table.lastDay e = .ok last) :
    j ∈ (c.cut e last lo hi).days ↔
      (c.table.RepresentsDay j ∧ (c.dateOfDay j 0).era = e) ∧ lo ≤ j ∧ j ≤ hi := by
  have hcuts : j ∈ (c.cut e last lo hi).days ↔
      (c.table.RepresentsDay j ∧ c.table.HasDay e j) ∧ lo ≤ j ∧ j ≤ hi := by
    -- The maximum of three days is not past `j`, and the minimum of two or three not before it.
    unfold Span.days EraTable.RepresentsDay EraTable.HasDay
    rw [Set.mem_ofPred_eq, hlast]
    cases last with
    | none =>
        simp only [cut, Option.map_none, Option.getD_none, Except.ok.injEq, reduceCtorEq,
          false_implies, implies_true, and_true]
        omega
    | some last =>
        simp only [cut, Option.map_some, Option.getD_some, Except.ok.injEq, Option.some.injEq,
          forall_eq']
        omega
  rw [hcuts]
  refine and_congr_left fun _ => and_congr_right fun hrep => ?_
  exact (era_dateOfDay_eq_iff h he hrep.1 0).symm

/-- The day numbered 1 and the days of a period stay within the uncut period. -/
theorem cut_within (c : Calendar) (e : Era) (last : Option Int) (lo hi : Int) :
    lo ≤ (c.cut e last lo hi).anchor ∧
      (c.cut e last lo hi).anchor ≤ (c.cut e last lo hi).first ∧
      (c.cut e last lo hi).last ≤ hi := by
  refine ⟨Int.le_max_left _ _, Int.le_max_left _ _, ?_⟩
  cases last with
  | none => exact Int.min_le_left _ _
  | some last =>
      simp only [cut, Option.map_some, Option.getD_some]
      omega

theorem not_clamped_cut (hlo : c.table.floorDay ≤ lo) (hhi : hi ≤ c.table.ceilingDay) :
    (c.cut e last lo hi).clamped = false := by
  simp only [cut, Bool.or_eq_false_iff, decide_eq_false_iff_not]
  constructor
  · omega
  · cases last with
    | none => simpa using hhi
    | some last =>
        simp only [Option.map_some, Option.getD_some]
        omega

/-- Where the representable range does not cut a period, only the era does. -/
theorem cut_of_not_clamped (hclamped : (c.cut e last lo hi).clamped = false) :
    c.cut e last lo hi =
      { first := max lo e.firstDay
        last := (last.map (min hi)).getD hi
        naturalFirst := lo
        naturalLast := hi
        anchor := max lo e.firstDay
        startsEra := max lo e.firstDay = e.firstDay
        endsEra := last = some ((last.map (min hi)).getD hi)
        clamped := false } := by
  simp only [cut, Bool.or_eq_false_iff, decide_eq_false_iff_not, Int.not_lt] at hclamped ⊢
  obtain ⟨hfloor, hceiling⟩ := hclamped
  simp only [Int.not_lt.mpr hfloor, Int.not_lt.mpr hceiling, decide_false, Bool.or_false,
    Span.mk.injEq, and_true]
  exact ⟨Int.le_antisymm hfloor (Int.le_max_left _ _), Int.min_eq_left hceiling⟩

theorem yearSpan_eq (hlast : c.table.lastDay e = .ok last) (n : Int) :
    c.yearSpan e n = .ok (c.cut e last (Gregorian.dayNumber (e.absoluteYear n) 1 1)
      (Gregorian.dayNumber (e.absoluteYear n) 12 31)) := by
  unfold yearSpan
  rw [hlast]
  rfl

theorem year_dateOfDay_eq_iff (he : (c.dateOfDay j 0).era = e) :
    (c.dateOfDay j 0).year = n ↔ (Gregorian.ofDayNumber j).year = e.absoluteYear n := by
  subst he
  simp only [dateOfDay, Era.eraYear, Era.absoluteYear]
  omega

theorem mem_days_year_iff (h : c.table.IsOrdered) (he : e ∈ c.table.eras)
    (hlast : c.table.lastDay e = .ok last) :
    j ∈ (c.cut e last (Gregorian.dayNumber (e.absoluteYear n) 1 1)
      (Gregorian.dayNumber (e.absoluteYear n) 12 31)).days ↔ c.InYear j e n := by
  rw [mem_days_cut_iff h he hlast, ← Gregorian.year_ofDayNumber_eq_iff, and_assoc]
  exact and_congr_right fun _ => and_congr_right fun hera => (year_dateOfDay_eq_iff hera).symm

/-- A year of an era has a span: day 1 is the later of New Year and the first day of the era, and
the days are those dated in the year. -/
theorem exists_yearSpan (h : c.table.IsOrdered) (he : e ∈ c.table.eras) (n : Int) :
    ∃ s, c.yearSpan e n = .ok s ∧
      s.anchor = max (Gregorian.dayNumber (e.absoluteYear n) 1 1) e.firstDay ∧
      ∀ j, j ∈ s.days ↔ c.InYear j e n := by
  obtain ⟨last, hlast⟩ := h.exists_lastDay he
  exact ⟨_, yearSpan_eq hlast n, rfl, fun _ => mem_days_year_iff h he hlast⟩

theorem monthLengthOf_eq (hm : 1 ≤ m ∧ m ≤ 12) :
    monthLengthOf e n m = .ok (Gregorian.monthLength (e.absoluteYear n) m) := by
  unfold monthLengthOf Gregorian.monthLength?
  rw [if_pos hm]

theorem monthSpan_eq (hlast : c.table.lastDay e = .ok last) (hm : 1 ≤ m ∧ m ≤ 12) :
    c.monthSpan e n m = .ok (c.cut e last (Gregorian.dayNumber (e.absoluteYear n) m 1)
      (Gregorian.dayNumber (e.absoluteYear n) m 1 +
        Gregorian.monthLength (e.absoluteYear n) m - 1)) := by
  unfold monthSpan
  rw [monthLengthOf_eq hm, hlast]
  rfl

theorem mem_days_month_iff (h : c.table.IsOrdered) (he : e ∈ c.table.eras)
    (hlast : c.table.lastDay e = .ok last) (hm : 1 ≤ m ∧ m ≤ 12) :
    j ∈ (c.cut e last (Gregorian.dayNumber (e.absoluteYear n) m 1)
      (Gregorian.dayNumber (e.absoluteYear n) m 1 +
        Gregorian.monthLength (e.absoluteYear n) m - 1)).days ↔ c.InMonth j e n m := by
  rw [mem_days_cut_iff h he hlast, ← Gregorian.month_ofDayNumber_eq_iff j _ m hm]
  unfold InMonth
  rw [and_assoc]
  refine and_congr_right fun _ => and_congr_right fun hera => ?_
  rw [year_dateOfDay_eq_iff hera]
  rfl

theorem exists_monthSpan (h : c.table.IsOrdered) (he : e ∈ c.table.eras) (n : Int)
    (hm : 1 ≤ m ∧ m ≤ 12) :
    ∃ s, c.monthSpan e n m = .ok s ∧ ∀ j, j ∈ s.days ↔ c.InMonth j e n m := by
  obtain ⟨last, hlast⟩ := h.exists_lastDay he
  exact ⟨_, monthSpan_eq hlast hm, fun _ => mem_days_month_iff h he hlast hm⟩

/-- The representable days of an era are those from a first one to a last one, which lies in the
last year of the era. -/
theorem exists_daysOfEra (h : c.table.IsOrdered) (he : e ∈ c.table.eras) :
    ∃ first last, c.table.maxYear e = .ok (e.eraYear (Gregorian.ofDayNumber last).year) ∧
      ∀ j, first ≤ j ∧ j ≤ last ↔ c.table.RepresentsDay j ∧ (c.dateOfDay j 0).era = e := by
  obtain ⟨last, hmax, hlast⟩ := h.exists_last he
  refine ⟨max e.firstDay c.table.floorDay, last, hmax, ?_⟩
  intro j
  rw [← hlast]
  constructor
  · rintro ⟨hlo, hceiling, hend⟩
    have hfloor : c.table.floorDay ≤ j := by omega
    refine ⟨⟨hfloor, hceiling⟩, (era_dateOfDay_eq_iff h he hfloor 0).mpr ⟨?_, hend⟩⟩
    omega
  · rintro ⟨hrep, hera⟩
    obtain ⟨hbegun, hend⟩ := (era_dateOfDay_eq_iff h he hrep.1 0).mp hera
    exact ⟨Int.max_le.mpr ⟨hbegun, hrep.1⟩, hrep.2, hend⟩

/-! ## The day that is numbered 1 -/

/-- The days of a year are counted from the anchor of its span, though only year 1 is told to
start with the era: an era has begun by New Year of its later years. -/
theorem dayOfYear_dateOfDay (h : c.table.IsOrdered) (he : e ∈ c.table.eras)
    (hj : c.InYear j e n) (millis : Int) :
    (c.dateOfDay j millis).dayOfYear =
      j - max (Gregorian.dayNumber (e.absoluteYear n) 1 1) e.firstDay + 1 := by
  obtain ⟨hrep, hera, hyear⟩ := hj
  have hpos := one_le_year_dateOfDay h hrep.1 0
  rw [hyear] at hpos
  have hera' : (c.dateOfDay j millis).era = e := hera
  have hyear' : (c.dateOfDay j millis).year = n := hyear
  simp only [EraDate.dayOfYear, dayNumber_dateOfDay, EraDate.absoluteYear, hera', hyear']
  by_cases hfirst : n = 1
  · rw [if_pos hfirst]
  · have hbegun : e.firstDay ≤ Gregorian.dayNumber (e.absoluteYear n) 1 1 := by
      apply h.firstDay_le_newYear he
      unfold Era.absoluteYear
      omega
    rw [if_neg hfirst, Int.max_eq_left hbegun]

end Calendar

end EraChronology
