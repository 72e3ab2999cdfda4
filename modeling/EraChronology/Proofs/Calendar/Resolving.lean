import EraChronology.Proofs.Calendar.RoundTrip

set_option autoImplicit false

/-! # Which instants have a date

An instant is checked first, then the day its wall clock shows. Both checks use the same lower
limit, the later one of the configured floor and of year 1 of the first era. For the instant this is
the representable range. The wall clock is kept from the days before the floor as well, so that
between year 1 and the floor an offset takes the date away from an instant in range
(`resolve_every_wallClock_iff`).

Without an offset only the first check counts (`resolve_zero_eq_ok_iff`).
-/

namespace EraChronology

/-- The first representable day is that of the floor or the first of year 1, whichever is later. -/
theorem EraTable.floorDay_eq_max (table : EraTable) :
    table.floorDay = max (dayOfInstant table.bound.floor) table.first.firstDay := by
  unfold floorDay minInstant
  rw [dayOfInstant_max, dayOfInstant_midnight]

/-- What is wrong with an instant that is not representable. -/
def EraTable.outside (table : EraTable) (t : Int) : RangeFault :=
  .instant t table.minInstant table.maxInstant

namespace Calendar

variable {c : Calendar} {t offset i j k : Int} {x : EraDate}

/-! ## The two checks -/

theorem exists_resolve_iff :
    (∃ x, c.resolve t offset = .ok x) ↔
      c.table.Represents t ∧ c.table.floorDay ≤ dayOfInstant (t + offset) := by
  simp only [resolve_eq_ok_iff, exists_and_left, exists_eq', and_true]

theorem resolve_of_not_represents (ht : ¬ c.table.Represents t) :
    c.resolve t offset = .error (.range (c.table.outside t)) := by
  unfold resolve EraTable.checkInstant
  rw [if_neg ht]
  rfl

theorem resolve_of_lt_floorDay (ht : c.table.Represents t)
    (hlow : dayOfInstant (t + offset) < c.table.floorDay) :
    c.resolve t offset = .error (.range (.beforeYearOne t offset c.table.first.name)) := by
  unfold resolve
  rw [checkInstant_eq_ok_iff.mpr ⟨ht, rfl⟩]
  exact if_pos hlow

/-! ## Without an offset -/

/-- Without an offset the wall clock of an instant in range shows no day before the first. -/
theorem resolve_zero_eq_ok_iff :
    c.resolve t 0 = .ok x ↔
      c.table.Represents t ∧ c.dateOfDay (dayOfInstant t) (timeOfDay t) = x := by
  rw [resolve_eq_ok_iff, Int.add_zero]
  constructor
  · rintro ⟨ht, -, hx⟩
    exact ⟨ht, hx⟩
  · rintro ⟨ht, hx⟩
    exact ⟨ht, (EraTable.representsDay_dayOfInstant ht).1, hx⟩

@[simp] theorem localInstant_dateOfDay (c : Calendar) (j millis : Int) :
    (c.dateOfDay j millis).localInstant = midnight j + millis := by
  unfold EraDate.localInstant
  rw [dayNumber_dateOfDay]
  rfl

theorem localInstant_of_resolve (hx : c.resolve t 0 = .ok x) : x.localInstant = t := by
  obtain ⟨-, rfl⟩ := resolve_zero_eq_ok_iff.mp hx
  rw [localInstant_dateOfDay, midnight_add_timeOfDay]

theorem dateOfDay_of_resolve_midnight (hx : c.resolve (midnight j) 0 = .ok x) :
    c.table.RepresentsDay j ∧ c.dateOfDay j 0 = x := by
  obtain ⟨hrep, hdate⟩ := resolve_zero_eq_ok_iff.mp hx
  have hday := EraTable.representsDay_dayOfInstant hrep
  have htime : timeOfDay (midnight j) = 0 := by
    have hzero := timeOfDay_midnight_add j (show IsTimeOfDay 0 by decide)
    rwa [Int.add_zero] at hzero
  rw [dayOfInstant_midnight] at hday hdate
  rw [htime] at hdate
  exact ⟨hday, hdate⟩

/-- The days from one day in range to another have dates. -/
theorem exists_resolve_midnight (hi : c.table.Represents (midnight i))
    (hk : c.table.Represents (midnight k)) (hij : i ≤ j) (hjk : j ≤ k) :
    ∃ x, c.resolve (midnight j) 0 = .ok x := by
  have hlo : midnight i ≤ midnight j := by
    rw [midnight_le_iff, dayOfInstant_midnight]
    exact hij
  have hhi : midnight j ≤ midnight k := by
    rw [midnight_le_iff, dayOfInstant_midnight]
    exact hjk
  have hrep : c.table.Represents (midnight j) :=
    ⟨Int.le_trans hi.1 hlo, Int.le_trans hhi hk.2⟩
  exact ⟨_, resolve_zero_eq_ok_iff.mpr ⟨hrep, rfl⟩⟩

theorem IsDate.resolve_localInstant (h : c.table.IsOrdered) (hx : c.IsDate x)
    (hrep : c.table.Represents x.localInstant) : c.resolve x.localInstant 0 = .ok x := by
  obtain ⟨htime, -, hdate⟩ := (isDate_iff h).mp hx
  rw [resolve_zero_eq_ok_iff]
  refine ⟨hrep, ?_⟩
  unfold EraDate.localInstant
  rw [dayOfInstant_midnight_add _ htime, timeOfDay_midnight_add _ htime]
  exact hdate

/-! ## With an offset -/

/-- Where the floor is on a later day than the first of year 1, the floor has no date on a wall
clock that is still at the first of year 1. -/
theorem exists_between_of_lt (hlate : c.table.first.firstDay < dayOfInstant c.table.bound.floor) :
    ∃ t offset, c.table.Represents t ∧ c.table.first.firstDay = dayOfInstant (t + offset) ∧
      dayOfInstant (t + offset) < c.table.floorDay := by
  -- The instant is the floor; its clock is behind by all the time since year 1 began.
  have hmin : c.table.minInstant = c.table.bound.floor :=
    Int.max_eq_left ((midnight_le_iff _ _).mpr (Int.le_of_lt hlate))
  have hshift : c.table.bound.floor + (midnight c.table.first.firstDay - c.table.bound.floor) =
      midnight c.table.first.firstDay := by omega
  refine ⟨c.table.bound.floor, midnight c.table.first.firstDay - c.table.bound.floor,
    ⟨Int.le_of_eq hmin, Int.le_of_lt c.table.bound.floor_lt_ceiling⟩, ?_, ?_⟩
  · rw [hshift, dayOfInstant_midnight]
  · rw [hshift, dayOfInstant_midnight, EraTable.floorDay_eq_max]
    omega

/-- An instant has a date when it is in range and its wall clock shows a day from the first
representable one on; this is the later one of the floor's day and of the first of year 1. So every
wall clock from the first of year 1 on shows the date of an instant in range exactly in the
calendars whose floor is not on a later day. Any other instant is out of range, which is reported
unless one of the numbers in the report is too long to be written. -/
theorem resolve_every_wallClock_iff (c : Calendar) :
    (∀ t offset, (∃ x, c.resolve t offset = .ok x) ↔
      c.table.Represents t ∧
        max (dayOfInstant c.table.bound.floor) c.table.first.firstDay ≤
          dayOfInstant (t + offset)) ∧
    ((∀ t offset, (∃ x, c.resolve t offset = .ok x) ↔
        c.table.Represents t ∧ c.table.first.firstDay ≤ dayOfInstant (t + offset)) ↔
      dayOfInstant c.table.bound.floor ≤ c.table.first.firstDay) ∧
    ∀ t offset, (¬ ∃ x, c.resolve t offset = .ok x) →
      ∃ fault, c.resolve t offset = .error (.range fault) ∧
        (fault = c.table.outside t ∨ fault = .beforeYearOne t offset c.table.first.name) ∧
        (Error.range fault).reported =
          if ∀ k ∈ fault.numbers, Text.isWritable k = true then .range fault
          else .input .longNumber := by
  rw [← EraTable.floorDay_eq_max]
  refine ⟨fun t offset => exists_resolve_iff, ⟨?_, ?_⟩, ?_⟩
  · -- With a late floor some instant has its wall clock between year 1 and the floor.
    intro hall
    by_contra hlate
    obtain ⟨t, offset, ht, hfirst, hlow⟩ := exists_between_of_lt (Int.not_le.mp hlate)
    have hdate := exists_resolve_iff.mp ((hall t offset).mpr ⟨ht, Int.le_of_eq hfirst⟩)
    omega
  · intro hfloor t offset
    rw [exists_resolve_iff, EraTable.floorDay_eq_max, Int.max_eq_right hfloor]
  · intro t offset hnone
    rw [exists_resolve_iff] at hnone
    by_cases ht : c.table.Represents t
    · have hlow : dayOfInstant (t + offset) < c.table.floorDay :=
        Int.not_le.mp fun hle => hnone ⟨ht, hle⟩
      exact ⟨_, resolve_of_lt_floorDay ht hlow, Or.inr rfl, Error.reported_eq_ite _⟩
    · exact ⟨_, resolve_of_not_represents ht, Or.inl rfl, Error.reported_eq_ite _⟩

/-- The Gregorian calendar with 1 January 2000 for its floor. -/
def lateFloor : Spec :=
  { Spec.gregorian with bound := ⟨946684800000, Bound.highest, by decide⟩ }

/-- The floor has no date on a clock a day behind, where it is still 1999, long after year 1. An
instant that is too long to be written has no date either, and is not reported as out of range. -/
theorem no_date_lateFloor :
    ∃ c fault, ofSpec? lateFloor = .ok c ∧ c.table.Represents 946684800000 ∧
      c.table.first.firstDay ≤ dayOfInstant (946684800000 + -86400000) ∧
      c.resolve 946684800000 (-86400000) =
        .error (.range (.beforeYearOne 946684800000 (-86400000) "CE")) ∧
      c.resolve (Int.pow 10 Text.digitLimit) 0 = .error (.range fault) ∧
      (Error.range fault).reported = .input .longNumber := by
  refine ⟨_, .instant (Int.pow 10 Text.digitLimit) 946684800000 9223372036854775807, rfl, by decide,
    by decide, rfl, ?_, by decide +kernel⟩
  exact resolve_of_not_represents (by decide +kernel)

end Calendar

end EraChronology
