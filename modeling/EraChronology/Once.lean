set_option autoImplicit false

/-! # Values computed once

A cell for a value that is computed when it is first asked for and kept from then on. A
computation that fails leaves the cell as it was, so the next one is tried.
-/

namespace EraChronology

/-- A value that may have been computed, and the number of computations tried. -/
structure Once (α : Type) where
  value : Option α := none
  computations : Nat := 0

namespace Once

variable {α ε : Type}

/-- The value of a cell, computed if there is none yet, and the cell afterwards. -/
def get (cell : Once α) (compute : Except ε α) : Except ε α × Once α :=
  match cell.value, compute with
  | some a, _ => (.ok a, cell)
  | none, .ok a => (.ok a, ⟨some a, cell.computations + 1⟩)
  | none, .error e => (.error e, ⟨none, cell.computations + 1⟩)

/-- A cell with a value gives it without a computation. -/
theorem get_of_value_eq_some {cell : Once α} {a : α} (h : cell.value = some a)
    (compute : Except ε α) : cell.get compute = (.ok a, cell) := by
  unfold get
  rw [h]

end Once

end EraChronology
