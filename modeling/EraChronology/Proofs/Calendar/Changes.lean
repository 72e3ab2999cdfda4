import EraChronology.Calendar.Fields
import EraChronology.Proofs.Calendar.DateOrder
import EraChronology.Proofs.Calendar.Resolving

set_option autoImplicit false

/-! # What a change leads to

A change works out a day from the parts of a date, whatever they are, and dates the instant of this
day and the time of day anew (`set_eq_ok_iff`, `add_eq_ok_iff`). The date of an instant is accepted
by the calendar and leads back to the instant (`isNormal_of_resolve`), so nothing that was wrong
with a date is left in the outcome of a change (`set_isNormal`).
-/

namespace EraChronology.Calendar

variable {c : Calendar} {f : Field} {t v : Int} {x y : EraDate} {name : String}

/-- A date that the calendar accepts with the parts it has, and that is the date of its instant. -/
def IsNormal (c : Calendar) (x : EraDate) : Prop :=
  c.date? (.era x.era) x.year x.month x.day x.millis = .ok x ∧
    ∃ t, c.toInstant x 0 = .ok t ∧ c.resolve t 0 = .ok x

theorem isNormal_of_resolve (h : c.table.IsOrdered) (hx : c.resolve t 0 = .ok x) :
    c.IsNormal x := by
  obtain ⟨ht, hdate⟩ := resolve_zero_eq_ok_iff.mp hx
  have hday := EraTable.representsDay_dayOfInstant ht
  have htime := isTimeOfDay_timeOfDay t
  have hwall := wallClock?_dateOfDay h hday.1 htime hdate
  rw [if_pos hday.2, midnight_add_timeOfDay] at hwall
  refine ⟨?_, t, toInstant_eq_ok_iff.mpr ⟨?_, ht⟩, hx⟩
  · rw [date?_dateOfDay h hday.1 htime hdate, if_pos hday.2]
  · rw [Int.add_zero]
    exact hwall

theorem set_eq_ok_iff :
    c.set x f v = .ok y ↔ ∃ j, c.dayWith x f v = .ok j ∧ c.renormalize j x.millis = .ok y :=
  bind_eq_ok_iff

theorem add_eq_ok_iff :
    c.add x f v = .ok y ↔ ∃ j, c.dayPlus x f v = .ok j ∧ c.renormalize j x.millis = .ok y :=
  bind_eq_ok_iff

/-- The instant that is dated anew has to be representable. -/
theorem renormalize_eq_ok_iff {j millis : Int} (hmillis : IsTimeOfDay millis) :
    c.renormalize j millis = .ok y ↔
      c.table.Represents (midnight j + millis) ∧ c.dateOfDay j millis = y := by
  unfold renormalize
  rw [resolve_zero_eq_ok_iff, dayOfInstant_midnight_add j hmillis, timeOfDay_midnight_add j hmillis]

/-! ## By the name of the field -/

theorem setNamed_eq_ok_iff :
    c.setNamed x name v = .ok y ↔ ∃ f, Field.ofName? name = some f ∧ c.set x f v = .ok y := by
  unfold setNamed
  cases Field.ofName? name with
  | none => simp
  | some f => simp

theorem addNamed_eq_ok_iff :
    c.addNamed x name v = .ok y ↔ ∃ f, Field.ofName? name = some f ∧ c.add x f v = .ok y := by
  unfold addNamed Field.named
  cases Field.ofName? name with
  | none => simp [bind, Except.bind]
  | some f => simp [bind, Except.bind]

/-! ## The outcome -/

/-- A date is normal if a field was set, an amount was added to a field, or it was read from an
instant. What was set or added to may be any parts at all. -/
theorem set_isNormal {spec : Spec} (hc : ofSpec? spec = .ok c) :
    (∀ x f v y, c.set x f v = .ok y ∨ c.add x f v = .ok y → c.IsNormal y) ∧
    (∀ x name v y, c.setNamed x name v = .ok y ∨ c.addNamed x name v = .ok y → c.IsNormal y) ∧
    ∀ t y, c.resolve t 0 = .ok y → c.IsNormal y := by
  have h := isOrdered_of_ofSpec? hc
  have hchange : ∀ x f v y, c.set x f v = .ok y ∨ c.add x f v = .ok y → c.IsNormal y := by
    intro x f v y hy
    rcases hy with hset | hadd
    · obtain ⟨j, -, hy⟩ := set_eq_ok_iff.mp hset
      exact isNormal_of_resolve h hy
    · obtain ⟨j, -, hy⟩ := add_eq_ok_iff.mp hadd
      exact isNormal_of_resolve h hy
  refine ⟨hchange, ?_, fun t y => isNormal_of_resolve h⟩
  intro x name v y hy
  rcases hy with hset | hadd
  · obtain ⟨f, -, hy⟩ := setNamed_eq_ok_iff.mp hset
    exact hchange x f v y (Or.inl hy)
  · obtain ⟨f, -, hy⟩ := addNamed_eq_ok_iff.mp hadd
    exact hchange x f v y (Or.inr hy)

/-- A date of no calendar, in month 13 of a year and a whole day past midnight. -/
def strayDate : EraDate where
  calendar := ⟨"", "", ""⟩
  era := ⟨"Nowhere", "", 99, none, 1926, true⟩
  year := 63
  month := 13
  day := 40
  millis := 86400000

/-- Set to day 7 of this month, it becomes 8 January of Heisei 1. -/
theorem set_isNormal_strayDate :
    ∃ c y, ofSpec? Spec.japanese = .ok c ∧ c.set strayDate .dayOfMonth 7 = .ok y ∧
      y.key = [4, 1, 1, 8, 0] ∧ c.IsNormal y := by
  refine ⟨_, _, rfl, rfl, rfl, ?_⟩
  exact (@set_isNormal _ Spec.japanese rfl).1 strayDate .dayOfMonth 7 _ (Or.inl rfl)

end EraChronology.Calendar
