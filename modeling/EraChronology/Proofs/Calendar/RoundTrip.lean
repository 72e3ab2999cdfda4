import EraChronology.Proofs.Calendar.Dates

set_option autoImplicit false

/-! # Instants and dates there and back

`resolve` checks the instant and lets the wall clock show any day from the first representable
one on; `toInstant` checks the wall-clock day and the instant. A date that `toInstant` takes is
read back from its instant (`resolve_toInstant`). The other way, a date that `resolve` gives is
taken exactly when the wall clock has not passed the last representable day
(`readable_iff_le_ceilingDay`).
-/

namespace EraChronology.Calendar

variable {c : Calendar} {e : Era} {n m d millis j t offset : Int} {x : EraDate}

theorem checkInstant_eq_ok_iff {table : EraTable} {s : Int} :
    table.checkInstant t = .ok s ↔ table.Represents t ∧ t = s := by
  unfold EraTable.checkInstant
  by_cases h : table.Represents t
  · rw [if_pos h]
    simp [h]
  · rw [if_neg h]
    simp [h]

/-! ## What each way takes -/

/-- An instant has a date when it is representable and its wall clock shows no day before the
first. -/
theorem resolve_eq_ok_iff :
    c.resolve t offset = .ok x ↔
      c.table.Represents t ∧ c.table.floorDay ≤ dayOfInstant (t + offset) ∧
        c.dateOfDay (dayOfInstant (t + offset)) (timeOfDay (t + offset)) = x := by
  unfold resolve
  simp only [bind_eq_ok_iff, checkInstant_eq_ok_iff]
  constructor
  · rintro ⟨s, ⟨ht, rfl⟩, hx⟩
    by_cases hlow : dayOfInstant (t + offset) < c.table.floorDay
    · rw [if_pos hlow] at hx
      exact absurd hx throw_ne_ok
    · rw [if_neg hlow, pure_eq_ok_iff] at hx
      exact ⟨ht, by omega, hx⟩
  · rintro ⟨ht, hlow, hx⟩
    refine ⟨t, ⟨ht, rfl⟩, ?_⟩
    rw [if_neg (by omega), pure_eq_ok_iff]
    exact hx

/-- The wall clock shows a date of the calendar that names a representable day. -/
theorem wallClock?_eq_ok_iff (h : c.table.IsOrdered) :
    c.wallClock? x = .ok t ↔
      IsTimeOfDay x.millis ∧ ∃ j, c.table.RepresentsDay j ∧
        c.IsNamed j x.era x.year x.month x.day ∧ midnight j + x.millis = t := by
  unfold wallClock?
  simp only [bind_eq_ok_iff, ownEra?_eq_ok_iff h, localInstantOf?_eq_ok_iff]
  constructor
  · rintro ⟨e, ⟨rfl, he⟩, htime, j, hj, ht⟩
    obtain ⟨hrep, hnamed⟩ := (dayOf?_eq_ok_iff_isNamed h he).mp hj
    exact ⟨htime, j, hrep, hnamed, ht⟩
  · rintro ⟨htime, j, hrep, hnamed, ht⟩
    have he : x.era ∈ c.table.eras := hnamed.1 ▸ c.table.eraOfDay_mem j
    have hj := (dayOf?_eq_ok_iff_isNamed h he).mpr ⟨hrep, hnamed⟩
    exact ⟨x.era, ⟨rfl, he⟩, htime, j, hj, ht⟩

theorem toInstant_eq_ok_iff :
    c.toInstant x offset = .ok t ↔ c.wallClock? x = .ok (t + offset) ∧ c.table.Represents t := by
  unfold toInstant
  simp only [bind_eq_ok_iff, checkInstant_eq_ok_iff]
  constructor
  · rintro ⟨wallClock, hwall, hrep, rfl⟩
    rw [show wallClock - offset + offset = wallClock by omega]
    exact ⟨hwall, hrep⟩
  · rintro ⟨hwall, hrep⟩
    refine ⟨t + offset, hwall, ?_, by omega⟩
    rw [show t + offset - offset = t by omega]
    exact hrep

/-! ## The dates of days -/

/-- The date of a day from the first on is refused only because the day is not representable. -/
theorem dayOf?_dateOfDay (h : c.table.IsOrdered) (hj : c.table.floorDay ≤ j)
    (hx : c.dateOfDay j millis = x) :
    c.dayOf? x.era x.year x.month x.day =
      if j ≤ c.table.ceilingDay then .ok j
      else .error (.range (.day x.era.name x.year x.month x.day)) := by
  subst hx
  by_cases hceiling : j ≤ c.table.ceilingDay
  · rw [if_pos hceiling]
    exact (dayOf?_eq_ok_iff_isNamed h (c.table.eraOfDay_mem j)).mpr
      ⟨⟨hj, hceiling⟩, rfl, rfl, rfl, rfl⟩
  · rw [if_neg hceiling]
    -- The checks before the one of the day are passed.
    have hyear := one_le_year_dateOfDay h hj millis
    have habsolute : (c.dateOfDay j millis).era.absoluteYear (c.dateOfDay j millis).year =
        (Gregorian.ofDayNumber j).year := absoluteYear_dateOfDay c j millis
    obtain ⟨hmonth, hday⟩ := Gregorian.isValid_ofDayNumber j
    unfold dayOf?
    rw [if_neg (Int.not_lt.mpr hyear), habsolute]
    simp only [dateOfDay, Gregorian.dayNumber_ofDayNumber]
    rw [if_neg (not_not_intro hmonth), if_neg (not_not_intro hday),
      if_pos fun hrep => hceiling hrep.2]

theorem localInstantOf?_dateOfDay (h : c.table.IsOrdered) (hj : c.table.floorDay ≤ j)
    (hmillis : IsTimeOfDay millis) (hx : c.dateOfDay j millis = x) :
    c.localInstantOf? x.era x.year x.month x.day x.millis =
      if j ≤ c.table.ceilingDay then .ok (midnight j + millis)
      else .error (.range (.day x.era.name x.year x.month x.day)) := by
  have hmillis' : x.millis = millis := hx ▸ rfl
  unfold IsTimeOfDay at hmillis
  unfold localInstantOf?
  rw [dayOf?_dateOfDay h hj hx, hmillis', if_neg (not_not_intro hmillis)]
  by_cases hceiling : j ≤ c.table.ceilingDay
  · rw [if_pos hceiling, if_pos hceiling]
    rfl
  · rw [if_neg hceiling, if_neg hceiling]
    rfl

theorem date?_dateOfDay (h : c.table.IsOrdered) (hj : c.table.floorDay ≤ j)
    (hmillis : IsTimeOfDay millis) (hx : c.dateOfDay j millis = x) :
    c.date? (.era x.era) x.year x.month x.day x.millis =
      if j ≤ c.table.ceilingDay then .ok x
      else .error (.range (.day x.era.name x.year x.month x.day)) := by
  have hlocal := localInstantOf?_dateOfDay h hj hmillis hx
  have hown : c.ownEra? x.era = .ok x.era :=
    (ownEra?_eq_ok_iff h).mpr ⟨rfl, hx ▸ c.table.eraOfDay_mem j⟩
  simp only [date?, eraOf?, hown, hlocal, bind, Except.bind]
  by_cases hceiling : j ≤ c.table.ceilingDay
  · rw [if_pos hceiling, if_pos hceiling, ← hx]
    rfl
  · rw [if_neg hceiling, if_neg hceiling]

theorem wallClock?_dateOfDay (h : c.table.IsOrdered) (hj : c.table.floorDay ≤ j)
    (hmillis : IsTimeOfDay millis) (hx : c.dateOfDay j millis = x) :
    c.wallClock? x =
      if j ≤ c.table.ceilingDay then .ok (midnight j + millis)
      else .error (.range (.day x.era.name x.year x.month x.day)) := by
  have hown : c.ownEra? x.era = .ok x.era :=
    (ownEra?_eq_ok_iff h).mpr ⟨rfl, hx ▸ c.table.eraOfDay_mem j⟩
  rw [← localInstantOf?_dateOfDay h hj hmillis hx, wallClock?, hown]
  rfl

/-! ## Without an offset -/

/-- A representable instant comes back from its date. A date that has an instant, whether it was
ever checked or not, is read back from it: same era, year, month, day and time of day. -/
theorem resolve_toInstant {spec : Spec} (hc : ofSpec? spec = .ok c) :
    (∀ t, c.table.Represents t →
      ∃ x, c.resolve t 0 = .ok x ∧ c.toInstant x 0 = .ok t) ∧
    (∀ x offset t, c.toInstant x offset = .ok t →
      ∃ y, c.resolve t offset = .ok y ∧ y.era = x.era ∧ y.year = x.year ∧ y.month = x.month ∧
        y.day = x.day ∧ y.millis = x.millis) := by
  have h := isOrdered_of_ofSpec? hc
  constructor
  · intro t ht
    have hday := EraTable.representsDay_dayOfInstant ht
    have hresolve : c.resolve t 0 = .ok (c.dateOfDay (dayOfInstant t) (timeOfDay t)) := by
      rw [resolve_eq_ok_iff, Int.add_zero]
      exact ⟨ht, hday.1, rfl⟩
    refine ⟨_, hresolve, toInstant_eq_ok_iff.mpr ⟨?_, ht⟩⟩
    rw [wallClock?_dateOfDay h hday.1 (isTimeOfDay_timeOfDay t) rfl, if_pos hday.2,
      midnight_add_timeOfDay, Int.add_zero]
  · intro x offset t hx
    -- The wall clock of `t` is back at the day and the time of `x`.
    obtain ⟨hwall, ht⟩ := toInstant_eq_ok_iff.mp hx
    obtain ⟨htime, j, hj, hnamed, hsum⟩ := (wallClock?_eq_ok_iff h).mp hwall
    obtain ⟨hera, hyear, hmonth, hday⟩ := hnamed
    have hj' : dayOfInstant (t + offset) = j := by
      rw [← hsum]
      exact dayOfInstant_midnight_add j htime
    have htime' : timeOfDay (t + offset) = x.millis := by
      rw [← hsum]
      exact timeOfDay_midnight_add j htime
    refine ⟨c.dateOfDay j x.millis, resolve_eq_ok_iff.mpr ⟨ht, ?_, ?_⟩, hera, hyear, hmonth,
      hday, rfl⟩
    · rw [hj']
      exact hj.1
    · rw [hj', htime']

/-- The last day of Showa in Tokyo, on a date that names no calendar. -/
theorem resolve_toInstant_showa :
    ∃ c showa, ofSpec? Spec.japanese = .ok c ∧ c.table.eras[3]? = some showa ∧
      (∃ x, c.resolve 600102000000 0 = .ok x ∧ c.toInstant x 0 = .ok 600102000000) ∧
      c.toInstant ⟨⟨"", "", ""⟩, showa, 64, 1, 7, 0⟩ 32400000 = .ok 600102000000 ∧
      ∃ y, c.resolve 600102000000 32400000 = .ok y ∧ y.era = showa ∧ y.year = 64 ∧
        y.month = 1 ∧ y.day = 7 ∧ y.millis = 0 := by
  refine ⟨_, _, rfl, rfl, ?_, rfl, ?_⟩
  · exact (@resolve_toInstant _ Spec.japanese rfl).1 _ (by decide)
  · exact (@resolve_toInstant _ Spec.japanese rfl).2 ⟨⟨"", "", ""⟩, _, 64, 1, 7, 0⟩ _ _ rfl

/-! ## With an offset -/

/-- The wall clock may show a day past the last representable one. Its date is refused; the dates
of all other wall clocks are accepted and lead back to their instants. -/
theorem readable_iff_le_ceilingDay {spec : Spec} (hc : ofSpec? spec = .ok c)
    (hx : c.resolve t offset = .ok x) :
    ((c.date? (.era x.era) x.year x.month x.day x.millis = .ok x ∧
        c.toInstant x offset = .ok t) ↔ dayOfInstant (t + offset) ≤ c.table.ceilingDay) ∧
    (c.table.ceilingDay < dayOfInstant (t + offset) →
      c.date? (.era x.era) x.year x.month x.day x.millis =
          .error (.range (.day x.era.name x.year x.month x.day)) ∧
        c.toInstant x offset = .error (.range (.day x.era.name x.year x.month x.day))) := by
  have h := isOrdered_of_ofSpec? hc
  obtain ⟨ht, hlow, hdate⟩ := resolve_eq_ok_iff.mp hx
  have haccepted := date?_dateOfDay h hlow (isTimeOfDay_timeOfDay _) hdate
  have hwall := wallClock?_dateOfDay h hlow (isTimeOfDay_timeOfDay _) hdate
  rw [midnight_add_timeOfDay] at hwall
  by_cases hceiling : dayOfInstant (t + offset) ≤ c.table.ceilingDay
  · rw [if_pos hceiling] at haccepted hwall
    have hinstant := toInstant_eq_ok_iff.mpr ⟨hwall, ht⟩
    refine ⟨iff_of_true ⟨haccepted, hinstant⟩ hceiling, ?_⟩
    intro hover
    omega
  · -- The day on the wall clock is refused, for the parts and for the date itself.
    rw [if_neg hceiling] at haccepted hwall
    have hrefused : c.toInstant x offset =
        .error (.range (.day x.era.name x.year x.month x.day)) := by
      rw [toInstant, hwall]
      rfl
    refine ⟨iff_of_false ?_ hceiling, fun _ => ⟨haccepted, hrefused⟩⟩
    rintro ⟨-, hinstant⟩
    rw [hrefused] at hinstant
    cases hinstant

/-- At its last instant the Japanese calendar reads its clock back in London. -/
theorem readable_last_instant :
    ∃ c x, ofSpec? Spec.japanese = .ok c ∧ c.resolve 9223372036854775807 0 = .ok x ∧
      c.date? (.era x.era) x.year x.month x.day x.millis = .ok x ∧
      c.toInstant x 0 = .ok 9223372036854775807 :=
  ⟨_, _, rfl, rfl, ((@readable_iff_le_ceilingDay _ 9223372036854775807 0 _ Spec.japanese rfl
    rfl).1).mpr (by decide)⟩

/-- A day ahead of London the clock shows a day that no date names. -/
theorem unreadable_last_instant :
    ∃ c x, ofSpec? Spec.japanese = .ok c ∧
      c.resolve 9223372036854775807 86400000 = .ok x ∧
      c.date? (.era x.era) x.year x.month x.day x.millis =
        .error (.range (.day "Reiwa" 292276976 8 18)) ∧
      c.toInstant x 86400000 = .error (.range (.day "Reiwa" 292276976 8 18)) :=
  ⟨_, _, rfl, rfl, rfl, rfl⟩

end EraChronology.Calendar
