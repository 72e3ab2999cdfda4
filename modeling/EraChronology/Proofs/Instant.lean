import EraChronology.Instant

set_option autoImplicit false

/-! # Instants and days

An instant lies in the day `j` exactly when it is `midnight j` and a time of day. Days and
instants are in the same order: `midnight_le_iff` moves a day across an inequality.
-/

namespace EraChronology

/-- A time of day: the milliseconds since midnight, less than a day. -/
def IsTimeOfDay (millis : Int) : Prop := 0 ≤ millis ∧ millis < msPerDay

instance (millis : Int) : Decidable (IsTimeOfDay millis) := by
  unfold IsTimeOfDay; infer_instance

theorem isTimeOfDay_timeOfDay (t : Int) : IsTimeOfDay (timeOfDay t) := by
  unfold IsTimeOfDay timeOfDay msPerDay
  omega

theorem dayOfInstant_midnight_add (j : Int) {millis : Int} (h : IsTimeOfDay millis) :
    dayOfInstant (midnight j + millis) = j := by
  unfold IsTimeOfDay msPerDay at h
  unfold dayOfInstant midnight msPerDay
  omega

theorem timeOfDay_midnight_add (j : Int) {millis : Int} (h : IsTimeOfDay millis) :
    timeOfDay (midnight j + millis) = millis := by
  unfold IsTimeOfDay msPerDay at h
  unfold timeOfDay midnight msPerDay
  omega

theorem dayOfInstant_midnight (j : Int) : dayOfInstant (midnight j) = j := by
  have hday := dayOfInstant_midnight_add j (show IsTimeOfDay 0 by decide)
  rwa [Int.add_zero] at hday

theorem midnight_add (j k : Int) : midnight (j + k) = midnight j + k * msPerDay := by
  unfold midnight
  rw [← Int.add_mul]
  congr 1
  omega

/-- A day has begun by an instant when the instant lies in it or in a later day. -/
theorem midnight_le_iff (j t : Int) : midnight j ≤ t ↔ j ≤ dayOfInstant t := by
  unfold dayOfInstant midnight msPerDay
  omega

theorem dayOfInstant_le {s t : Int} (h : s ≤ t) : dayOfInstant s ≤ dayOfInstant t := by
  unfold dayOfInstant msPerDay
  omega

theorem dayOfInstant_max (s t : Int) :
    dayOfInstant (max s t) = max (dayOfInstant s) (dayOfInstant t) := by
  rcases Int.le_total s t with hle | hle
  · rw [Int.max_eq_right hle, Int.max_eq_right (dayOfInstant_le hle)]
  · rw [Int.max_eq_left hle, Int.max_eq_left (dayOfInstant_le hle)]

/-! ## The start of a day -/

theorem midnight_dayOfInstant {t : Int} (h : t % msPerDay = 0) :
    midnight (dayOfInstant t) = t := by
  unfold msPerDay at h
  unfold dayOfInstant midnight msPerDay
  omega

theorem dayOfInstant_sub_one {t : Int} (h : t % msPerDay = 0) :
    dayOfInstant (t - 1) = dayOfInstant t - 1 := by
  unfold msPerDay at h
  unfold dayOfInstant msPerDay
  omega

theorem dayOfInstant_lt {s t : Int} (ht : t % msPerDay = 0) (h : s < t) :
    dayOfInstant s < dayOfInstant t := by
  have hle := dayOfInstant_le (show s ≤ t - 1 by omega)
  rw [dayOfInstant_sub_one ht] at hle
  omega

theorem le_midnight_iff {t : Int} (h : t % msPerDay = 0) (j : Int) :
    t ≤ midnight j ↔ dayOfInstant t ≤ j := by
  unfold msPerDay at h
  unfold dayOfInstant midnight msPerDay
  omega

end EraChronology
