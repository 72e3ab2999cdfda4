import EraChronology.Proofs.Calendar.RoundTrip
import Mathlib.Data.List.Lex

set_option autoImplicit false

/-! # The order of dates

Dates are compared by their key: the position of the era, then year, month, day and time of day.
This is the order of the wall clocks that show them (`key_lt_of_wallClock_lt`), and so, at one
offset, the order of the instants (`resolve_lt_iff`).

The years start again with every era, but the position of the era does not fall from a day to a
later one (`IsOrdered.index_eraOfDay_le`). Within an era the years count the Gregorian years, and
the rest is the order of Gregorian dates. None of this asks whether a day is past the ceiling.
-/

namespace EraChronology

/-- The parts dates are compared by, the widest first. -/
def EraDate.key (x : EraDate) : List Int := [x.era.index, x.year, x.month, x.day, x.millis]

/-- The first part that differs decides. -/
theorem EraDate.key_lt_iff {x y : EraDate} :
    x.key < y.key ↔ x.era.index < y.era.index ∨ x.era.index = y.era.index ∧ (x.year < y.year ∨
      x.year = y.year ∧ (x.month < y.month ∨ x.month = y.month ∧ (x.day < y.day ∨
        x.day = y.day ∧ x.millis < y.millis))) := by
  simp only [key, List.cons_lt_cons_iff, List.not_lt_nil, and_false, or_false]

theorem EraTable.IsOrdered.index_eraOfDay_le {table : EraTable} (h : table.IsOrdered) {j k : Int}
    (hj : table.first.firstDay ≤ j) (hjk : j ≤ k) :
    (table.eraOfDay j).index ≤ (table.eraOfDay k).index := by
  by_contra hlt
  -- The era of the later day would be over before the era of the earlier day begins.
  obtain ⟨last, hlast, hover⟩ :=
    h.exists_lastDay_lt (table.eraOfDay_mem k) (table.eraOfDay_mem j) (Int.not_le.mp hlt)
  have hend := h.le_lastDay_eraOfDay hlast
  have hbegun := h.firstDay_eraOfDay_le hj
  omega

namespace Calendar

variable {c : Calendar} {j k a b t u offset : Int} {x y : EraDate}

/-! ## Days and times of day -/

/-- Within an era the order of dates is that of the Gregorian dates. -/
theorem key_lt_of_before (hera : c.table.eraOfDay j = c.table.eraOfDay k)
    (hbefore : (Gregorian.ofDayNumber j).Before (Gregorian.ofDayNumber k)) :
    (c.dateOfDay j a).key < (c.dateOfDay k b).key := by
  unfold Gregorian.Date.Before at hbefore
  simp only [EraDate.key_lt_iff, dateOfDay, ← hera, Era.eraYear, true_and]
  omega

theorem key_lt_of_day_lt (h : c.table.IsOrdered) (hj : c.table.floorDay ≤ j) (hjk : j < k) :
    (c.dateOfDay j a).key < (c.dateOfDay k b).key := by
  have hfirst := Int.le_trans c.table.firstDay_first_le_floorDay hj
  rcases Int.lt_or_eq_of_le (h.index_eraOfDay_le hfirst (Int.le_of_lt hjk)) with hlt | heq
  · exact EraDate.key_lt_iff.mpr (Or.inl hlt)
  · have hera := h.eq_of_index_eq (c.table.eraOfDay_mem j) (c.table.eraOfDay_mem k) heq
    apply key_lt_of_before hera
    rw [← Gregorian.dayNumber_lt_iff (Gregorian.isValid_ofDayNumber j)
      (Gregorian.isValid_ofDayNumber k), Gregorian.dayNumber_ofDayNumber,
      Gregorian.dayNumber_ofDayNumber]
    exact hjk

theorem key_lt_of_millis_lt (c : Calendar) (j : Int) (hab : a < b) :
    (c.dateOfDay j a).key < (c.dateOfDay j b).key := by
  simp [EraDate.key_lt_iff, dateOfDay, hab]

/-! ## Wall clocks -/

/-- A later wall clock shows a later date, from the first representable day on. -/
theorem key_lt_of_wallClock_lt (h : c.table.IsOrdered) (ha : c.table.floorDay ≤ dayOfInstant a)
    (hab : a < b) :
    (c.dateOfDay (dayOfInstant a) (timeOfDay a)).key <
      (c.dateOfDay (dayOfInstant b) (timeOfDay b)).key := by
  rcases Int.lt_or_eq_of_le (dayOfInstant_le (Int.le_of_lt hab)) with hday | hday
  · exact key_lt_of_day_lt h ha hday
  · have hsplit := midnight_add_timeOfDay a
    have hsplit' := midnight_add_timeOfDay b
    rw [hday] at hsplit ⊢
    exact key_lt_of_millis_lt c _ (by omega)

/-- Of two instants that have a date at an offset, the earlier one has the earlier date: the one
whose era, year, month, day and time of day come first in this order. -/
theorem resolve_lt_iff {spec : Spec} (hc : ofSpec? spec = .ok c)
    (ht : c.resolve t offset = .ok x) (hu : c.resolve u offset = .ok y) :
    t < u ↔ x.key < y.key := by
  have h := isOrdered_of_ofSpec? hc
  obtain ⟨-, hlow, rfl⟩ := resolve_eq_ok_iff.mp ht
  obtain ⟨-, hlow', rfl⟩ := resolve_eq_ok_iff.mp hu
  constructor
  · intro hlt
    exact key_lt_of_wallClock_lt h hlow (by omega)
  · intro hkey
    rcases Int.lt_trichotomy t u with hlt | rfl | hgt
    · exact hlt
    · exact absurd hkey (lt_irrefl _)
    · exact absurd hkey (lt_asymm (key_lt_of_wallClock_lt h hlow' (by omega)))

/-- The last instant of Showa 64 in Tokyo comes before the first of Heisei 1. -/
theorem key_last_of_showa_lt :
    ∃ c x y, ofSpec? Spec.japanese = .ok c ∧ c.resolve 600188399999 32400000 = .ok x ∧
      c.resolve 600188400000 32400000 = .ok y ∧ x.key = [3, 64, 1, 7, 86399999] ∧
      y.key = [4, 1, 1, 8, 0] ∧ x.key < y.key := by
  refine ⟨_, _, _, rfl, rfl, rfl, rfl, rfl, ?_⟩
  exact (@resolve_lt_iff _ 600188399999 600188400000 32400000 _ _ Spec.japanese rfl rfl rfl).mp
    (by decide)

end Calendar

end EraChronology
