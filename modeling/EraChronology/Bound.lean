import EraChronology.Error

set_option autoImplicit false

/-! # Bounds

A calendar addresses the instants from a floor to a ceiling, both included. Unless other
limits are given they are those of a signed count of 64 bits, so an era that never ends is cut
where the count runs out.
-/

namespace EraChronology

/-- The lowest and the highest instant that is addressed. -/
structure Bound where
  floor : Int
  ceiling : Int
  floor_lt_ceiling : floor < ceiling
deriving DecidableEq

namespace Bound

def lowest : Int := -Int.pow 2 63

def highest : Int := Int.pow 2 63 - 1

/-- The instants that a signed count of 64 bits can address. -/
def standard : Bound := ⟨lowest, highest, by decide⟩

/-- The bound with these limits; the floor has to be below the ceiling. -/
def ofLimits? (floor ceiling : Int) : Except Error Bound :=
  if h : floor < ceiling then .ok ⟨floor, ceiling, h⟩
  else .error (.input .floorNotBelowCeiling)

def Contains (b : Bound) (t : Int) : Prop := b.floor ≤ t ∧ t ≤ b.ceiling

instance (b : Bound) (t : Int) : Decidable (b.Contains t) := by
  unfold Contains; infer_instance

end Bound

end EraChronology
