import EraChronology.Proofs.Calendar.NextDay
import EraChronology.Proofs.Calendar.Resolving
import EraChronology.Proofs.EraTable.LastYear

set_option autoImplicit false

/-! # Eras without days

The last year of an era is at least 1 exactly when the era has its own first day, and that is not
past the ceiling (`IsOrdered.one_le_maxYear_iff`). An era with a start always has. Only a first era
without a start may be empty: year 1 is stated for it, and the table does not compare this year with
the start of the next era. All dates before that year 1 are then out of range, also those of the
eras that start there (`beginsAt_iff`).

So of a table with several eras none is empty exactly when year 1 of the first begins before the
second era does (`noEraEmpty_iff`).
-/

namespace EraChronology

namespace EraTable.IsOrdered

variable {table : EraTable} (h : table.IsOrdered) {e : Era} {n : Int}
include h

theorem one_le_maxYear_iff (he : e ∈ table.eras) (hn : table.maxYear e = .ok n) :
    1 ≤ n ↔ e.firstDay ≤ table.ceilingDay ∧ table.HasDay e e.firstDay := by
  obtain ⟨last, hmax, hlast⟩ := h.exists_last he
  rw [hmax, Except.ok.injEq] at hn
  subst hn
  have hown : e.firstDay ≤ table.ceilingDay ∧ table.HasDay e e.firstDay ↔ e.firstDay ≤ last := by
    rw [← hlast e.firstDay]
    unfold HasDay
    simp only [Int.le_refl, true_and]
  have horigin := h.year_firstDay he
  unfold Era.eraYear
  rw [hown]
  constructor
  · intro hyear
    cases hstart : e.since with
    | none =>
        -- The era begins with a New Year, so a day of its year 1 or later is not before.
        have hnewYear : e.firstDay = Gregorian.dayNumber e.yearOrigin 1 1 := by
          unfold Era.firstDay
          rw [hstart]
        have hnot := mt (Gregorian.year_ofDayNumber_lt_iff last e.yearOrigin).mpr (by omega)
        omega
    | some t =>
        have hne : e.since ≠ none := by
          rw [hstart]
          exact Option.some_ne_none t
        exact hown.mp ⟨h.firstDay_le_ceilingDay he hne, h.hasDay_firstDay he hne⟩
  · intro hle
    have hyear := Gregorian.year_ofDayNumber_le hle
    omega

theorem one_le_maxYear (he : e ∈ table.eras) (hstart : e.since ≠ none) :
    ∃ n, table.maxYear e = .ok n ∧ 1 ≤ n := by
  obtain ⟨n, hn⟩ := h.exists_maxYear he
  have hown := And.intro (h.firstDay_le_ceilingDay he hstart) (h.hasDay_firstDay he hstart)
  exact ⟨n, hn, (h.one_le_maxYear_iff he hn).mpr hown⟩

end EraTable.IsOrdered

namespace Calendar

variable {c : Calendar} {e : Era} {t : Int}

/-- The instant `t` has a date, and this is day 1 of year 1 of the era `e`. -/
def BeginsAt (c : Calendar) (e : Era) (t : Int) : Prop :=
  ∃ x, c.resolve t 0 = .ok x ∧ c.IsDate x ∧ x.era = e ∧ x.year = 1 ∧ x.dayOfYear = 1

/-- All eras have a year, and those with a start begin there. -/
structure NoEraEmpty (c : Calendar) : Prop where
  one_le_maxYear : ∀ e ∈ c.table.eras, ∃ n, c.table.maxYear e = .ok n ∧ 1 ≤ n
  beginsAt : ∀ e ∈ c.table.eras, ∀ t, e.since = some t → c.BeginsAt e t

/-! ## The start of an era -/

section

variable (h : c.table.IsOrdered) (he : e ∈ c.table.eras) (ht : e.since = some t)
include h he ht

/-- A start lies within the bound, so it is in range when the first era has begun. -/
theorem represents_since_iff :
    c.table.Represents t ↔ c.table.first.firstDay ≤ e.firstDay := by
  have hbound := (h.startsWithin e he t ht).2.1
  rw [Era.firstDay_of_since ht, ← midnight_le_iff]
  constructor
  · rintro ⟨hmin, -⟩
    exact Int.le_trans (Int.le_max_right _ _) hmin
  · intro hfirst
    exact ⟨Int.max_le.mpr ⟨hbound.1, hfirst⟩, hbound.2⟩

theorem resolve_since_of_lt (hlt : e.firstDay < c.table.first.firstDay) :
    c.resolve t 0 = .error (.range (.instant t c.table.minInstant c.table.maxInstant)) := by
  have hnot : ¬ c.table.Represents t := by
    rw [represents_since_iff h he ht]
    omega
  exact resolve_of_not_represents hnot

theorem beginsAt_iff : c.BeginsAt e t ↔ c.table.first.firstDay ≤ e.firstDay := by
  rw [← represents_since_iff h he ht]
  constructor
  · rintro ⟨x, hx, -⟩
    exact (resolve_eq_ok_iff.mp hx).1
  · intro hrep
    have hday := EraTable.representsDay_dayOfInstant hrep
    have hmidnight : timeOfDay t = 0 := (h.startsWithin e he t ht).1
    have hne : e.since ≠ none := by
      rw [ht]
      exact Option.some_ne_none t
    rw [← Era.firstDay_of_since ht] at hday
    have hera : (c.dateOfDay e.firstDay 0).era = e :=
      (era_dateOfDay_eq_iff h he hday.1 0).mpr (h.hasDay_firstDay he hne)
    obtain ⟨hyear, hdayOfYear⟩ := first_of_era h hera rfl
    refine ⟨c.dateOfDay e.firstDay 0, ?_, isDate_dateOfDay h hday (by decide), hera, hyear,
      hdayOfYear⟩
    rw [resolve_zero_eq_ok_iff, hmidnight, ← Era.firstDay_of_since ht]
    exact ⟨hrep, rfl⟩

end

/-! ## All eras -/

/-- If year 1 of the first era begins before the second era, no era is empty. -/
theorem noEraEmpty_of_firstDay_lt (h : c.table.IsOrdered) (hsize : 2 ≤ c.table.size)
    (hbefore : ∀ e ∈ c.table.eras, e.index = 1 → c.table.first.firstDay < e.firstDay) :
    c.NoEraEmpty := by
  have hfirst := EraTable.first_mem c.table
  have hzero := h.first_index
  -- The first of several eras is closed by the second.
  obtain ⟨hopen, -⟩ | ⟨-, second, hsecond, hindex, hstart, hlast⟩ := h.lastDay_eq hfirst
  · have := (h.isOpen_iff 0 _ (EraTable.getElem?_first c.table)).mp hopen
    unfold EraTable.size at hsize
    omega
  have hlt := hbefore second hsecond (by omega)
  have hceiling := h.firstDay_le_ceilingDay hsecond hstart
  refine ⟨?_, ?_⟩
  · intro e he
    by_cases hnone : e.since = none
    · rw [h.eq_first_of_since_eq_none he hnone]
      obtain ⟨n, hn⟩ := h.exists_maxYear hfirst
      refine ⟨n, hn, (h.one_le_maxYear_iff hfirst hn).mpr ⟨by omega, Int.le_refl _, ?_⟩⟩
      intro last hlast'
      rw [hlast, Except.ok.injEq, Option.some.injEq] at hlast'
      omega
    · exact h.one_le_maxYear he hnone
  · intro e he t ht
    rw [beginsAt_iff h he ht]
    rcases Int.lt_or_eq_of_le (h.index_nonneg he) with hpos | hsame
    · have := h.firstDay_le hsecond he hstart (by omega)
      omega
    · rw [h.eq_of_index_eq he hfirst (by omega)]

/-- In a calendar with several eras none is empty exactly when the first day of year 1 of the first
era is before the second era. It always is if the first era has a start. If it is not, the years of
the other eras are still counted from 1, but those that start before year 1 of the first are out of
range where they start. -/
theorem noEraEmpty_iff {spec : Spec} (hc : ofSpec? spec = .ok c) (hsize : 2 ≤ c.table.size) :
    (c.NoEraEmpty ↔
      ∀ e ∈ c.table.eras, e.index = 1 → c.table.first.firstDay < e.firstDay) ∧
    (c.table.first.since ≠ none → c.NoEraEmpty) ∧
    (∀ e ∈ c.table.eras, e ≠ c.table.first → ∃ n, c.table.maxYear e = .ok n ∧ 1 ≤ n) ∧
    ∀ e ∈ c.table.eras, ∀ t, e.since = some t →
      (c.BeginsAt e t ↔ c.table.first.firstDay ≤ e.firstDay) ∧
      (e.firstDay < c.table.first.firstDay →
        c.resolve t 0 = .error (.range (.instant t c.table.minInstant c.table.maxInstant))) := by
  have h := isOrdered_of_ofSpec? hc
  have hfirst := EraTable.first_mem c.table
  have hzero := h.first_index
  refine ⟨⟨?_, noEraEmpty_of_firstDay_lt h hsize⟩, ?_, ?_, ?_⟩
  · -- The first era has its own first day, and it is over when the second begins.
    intro hfull e he hindex
    obtain ⟨n, hn, hpos⟩ := hfull.one_le_maxYear _ hfirst
    obtain ⟨-, hown⟩ := (h.one_le_maxYear_iff hfirst hn).mp hpos
    obtain ⟨last, hlast, hover⟩ := h.exists_lastDay_lt hfirst he (by omega)
    have := hown.2 last hlast
    omega
  · intro hstart
    apply noEraEmpty_of_firstDay_lt h hsize
    intro e he hindex
    exact h.firstDay_lt hfirst he hstart (by omega)
  · intro e he hne
    exact h.one_le_maxYear he fun hnone => hne (h.eq_first_of_since_eq_none he hnone)
  · intro e he t ht
    exact ⟨beginsAt_iff h he ht, resolve_since_of_lt h he ht⟩

/-- The second era of Japan starts on New Year, 1867 years after the first. -/
theorem noEraEmpty_japanese :
    ∃ c, ofSpec? Spec.japanese = .ok c ∧ 2 ≤ c.table.size ∧ c.NoEraEmpty := by
  refine ⟨_, rfl, by decide, ?_⟩
  exact (@noEraEmpty_iff _ Spec.japanese rfl (by decide)).1.mpr (by decide)

/-- Two eras, of which the first has its year 1 long after the second starts. -/
def lateYearOne : Spec :=
  { Spec.japanese with
    eras := [⟨"Old", none, some 3000, "", by decide⟩,
      ⟨"New", some (Gregorian.since 2000 1 1), none, "", by decide⟩] }

/-- The table is accepted, although its first era has no year and its second era does not begin. -/
theorem eraEmpty_lateYearOne :
    ∃ c old new, ofSpec? lateYearOne = .ok c ∧ c.table.eras = [old, new] ∧
      c.table.maxYear old = .ok (-1000) ∧ new.since = some 946684800000 ∧
      c.resolve 946684800000 0 =
        .error (.range (.instant 946684800000 32503680000000 9223372036854775807)) :=
  ⟨_, _, _, rfl, rfl, rfl, rfl, rfl⟩

end Calendar

end EraChronology
