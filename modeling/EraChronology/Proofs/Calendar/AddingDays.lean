import EraChronology.Proofs.Calendar.Changes
import EraChronology.Proofs.Calendar.Resolving

set_option autoImplicit false

/-! # Adding days and weeks

Adding to a field that counts days or weeks moves the wall clock of a date by as many of them
(`Field.unit?`), and the date there is the outcome (`add_eq_resolve`). Nothing else of the date
matters, whatever eras, leap days and ends of months lie between. So adding twice is adding the sum,
as long as the date between exists, and adding can be taken back (`add_eq_ok_iff_represents`).
-/

namespace EraChronology

/-- What one unit of a field is on the wall clock, in milliseconds. Years and months are not all of
one length, and eras have no length to add. -/
def Field.unit? : Field → Option Int
  | .era | .year | .month => none
  | .dayOfMonth | .dayOfYear => some msPerDay
  | .dayOfWeekInMonth | .weekOfYear | .weekOfMonth => some (7 * msPerDay)

namespace Calendar

variable {c : Calendar} {f : Field} {x y : EraDate} {u a b : Int}

/-! ## The date of the moved wall clock -/

/-- The day that a date moves to is as many days later as the wall clock moves on. -/
theorem exists_dayPlus_of_unit? (hu : f.unit? = some u) :
    ∃ j, c.dayPlus x f a = .ok j ∧ midnight j + x.millis = x.localInstant + a * u := by
  unfold EraDate.localInstant
  have hday : ∀ k, midnight (x.dayNumber + k) + x.millis =
      midnight x.dayNumber + x.millis + k * msPerDay := by
    intro k
    rw [midnight_add]
    omega
  cases f with
  | era | year | month => cases hu
  | dayOfMonth | dayOfYear =>
      cases hu
      exact ⟨x.dayNumber + a, rfl, hday a⟩
  | dayOfWeekInMonth | weekOfYear | weekOfMonth =>
      cases hu
      refine ⟨x.dayNumber + 7 * a, rfl, ?_⟩
      rw [hday, Int.mul_comm 7 a, Int.mul_assoc]

theorem add_eq_resolve (hu : f.unit? = some u) :
    c.add x f a = c.resolve (x.localInstant + a * u) 0 := by
  obtain ⟨j, hj, hinstant⟩ := exists_dayPlus_of_unit? (c := c) (x := x) (a := a) hu
  unfold add
  rw [hj, ← hinstant]
  rfl

theorem localInstant_of_add (hu : f.unit? = some u) (hy : c.add x f a = .ok y) :
    y.localInstant = x.localInstant + a * u := by
  rw [add_eq_resolve hu] at hy
  exact localInstant_of_resolve hy

/-- Two additions come to the date that the addition of the sum comes to, or to the same error. -/
theorem add_add_of_unit? (hu : f.unit? = some u) (hy : c.add x f a = .ok y) :
    c.add y f b = c.add x f (a + b) := by
  calc c.add y f b
      = c.resolve (y.localInstant + b * u) 0 := add_eq_resolve hu
    _ = c.resolve (x.localInstant + (a + b) * u) 0 := by
        rw [localInstant_of_add hu hy, Int.add_mul, Int.add_assoc]
    _ = c.add x f (a + b) := (add_eq_resolve hu).symm

theorem add_zero_of_unit? (h : c.table.IsOrdered) (hu : f.unit? = some u) (hx : c.IsDate x)
    (hrep : c.table.Represents x.localInstant) : c.add x f 0 = .ok x := by
  rw [add_eq_resolve hu, Int.zero_mul, Int.add_zero]
  exact hx.resolve_localInstant h hrep

/-! ## All additions of days and weeks -/

/-- Adding days or weeks to a date has an outcome exactly when the wall clock stays within the
representable range, and the outcome is the date there. It is out of range otherwise, which is
reported unless one of the numbers in the report is too long to be written. What is added in two
steps can be added in one, and what was added can be taken away again from the date of an instant in
range. -/
theorem add_eq_ok_iff_represents {spec : Spec} (hc : ofSpec? spec = .ok c)
    (hu : f.unit? = some u) :
    (∀ x a, (∃ y, c.add x f a = .ok y) ↔ c.table.Represents (x.localInstant + a * u)) ∧
    (∀ x a y, c.add x f a = .ok y → c.IsDate y ∧ y.localInstant = x.localInstant + a * u) ∧
    (∀ x a, ¬ c.table.Represents (x.localInstant + a * u) →
      c.add x f a = .error (.range (c.table.outside (x.localInstant + a * u))) ∧
        (Error.range (c.table.outside (x.localInstant + a * u))).reported =
          if ∀ k ∈ [x.localInstant + a * u, c.table.minInstant, c.table.maxInstant],
            Text.isWritable k = true
          then .range (c.table.outside (x.localInstant + a * u)) else .input .longNumber) ∧
    (∀ x a b y, c.add x f a = .ok y → c.add y f b = c.add x f (a + b)) ∧
    ∀ x a y, c.IsDate x → c.table.Represents x.localInstant → c.add x f a = .ok y →
      c.add y f (-a) = .ok x := by
  have h := isOrdered_of_ofSpec? hc
  refine ⟨?_, ?_, ?_, ?_, ?_⟩
  · intro x a
    simp only [add_eq_resolve hu, resolve_zero_eq_ok_iff, exists_and_left, exists_eq', and_true]
  · intro x a y hy
    refine ⟨?_, localInstant_of_add hu hy⟩
    rw [add_eq_resolve hu] at hy
    obtain ⟨hrep, rfl⟩ := resolve_zero_eq_ok_iff.mp hy
    exact isDate_dateOfDay h (EraTable.representsDay_dayOfInstant hrep) (isTimeOfDay_timeOfDay _)
  · intro x a hout
    refine ⟨?_, Error.reported_eq_ite _⟩
    rw [add_eq_resolve hu]
    exact resolve_of_not_represents hout
  · intro x a b y hy
    exact add_add_of_unit? hu hy
  · intro x a y hx hrep hy
    -- Adding nothing is dating the instant of `x` anew, so `x` has to be in range itself.
    rw [add_add_of_unit? hu hy, Int.add_right_neg]
    exact add_zero_of_unit? h hu hx hrep

/-- A week after the last day of Showa and back again. -/
theorem add_eq_ok_iff_represents_showa :
    ∃ c x y, ofSpec? Spec.japanese = .ok c ∧ Field.unit? .weekOfYear = some 604800000 ∧
      c.date? (.name "Showa") 64 1 7 0 = .ok x ∧ c.add x .weekOfYear 1 = .ok y ∧
      y.key = [4, 1, 1, 14, 0] ∧ c.add y .weekOfYear (-1) = .ok x := by
  refine ⟨_, _, _, rfl, rfl, rfl, rfl, rfl, ?_⟩
  exact (@add_eq_ok_iff_represents _ .weekOfYear 604800000 Spec.japanese rfl rfl).2.2.2.2 _ 1 _
    ⟨.name "Showa", 64, 1, 7, 0, rfl⟩ (by decide) rfl

/-- The greatest power of ten that can be written, added in days, leads to an instant that cannot:
it is out of range, but not reported so. -/
theorem add_far :
    ∃ c x fault, ofSpec? Spec.japanese = .ok c ∧ c.date? (.name "Reiwa") 1 5 1 0 = .ok x ∧
      ¬ c.table.Represents (x.localInstant + Int.pow 10 (Text.digitLimit - 1) * msPerDay) ∧
      c.add x .dayOfMonth (Int.pow 10 (Text.digitLimit - 1)) = .error (.range fault) ∧
      (Error.range fault).reported = .input .longNumber := by
  refine ⟨_, _, .instant (1556668800000 + Int.pow 10 (Text.digitLimit - 1) * msPerDay)
    (-62135596800000) 9223372036854775807, rfl, rfl, by decide +kernel, ?_, by decide +kernel⟩
  rw [add_eq_resolve rfl]
  exact resolve_of_not_represents (by decide +kernel)

end Calendar

end EraChronology
