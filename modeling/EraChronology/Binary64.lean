set_option autoImplicit false

/-! # Binary numbers of 53 bits

Whole numbers as binary floating-point numbers with 53 significant bits and exponents up to
1023. A number of up to 53 bits is kept. A longer one goes to the nearest multiple of the value
of its 53rd bit, and from the middle between two multiples to the even one.
-/

namespace EraChronology.Binary64

def precision : Nat := 53

/-- The distance between neighbours at a number: the value of the last of its significant
bits. -/
def spacing (n : Int) : Nat := Nat.pow 2 (n.natAbs.log2 + 1 - precision)

/-- The whole number nearest to `n / unit`, or of two the even one. -/
def roundQuotient (unit n : Int) : Int :=
  let q := n / unit
  let r := n % unit
  if 2 * r < unit then q
  else if unit < 2 * r then q + 1
  else if q % 2 = 0 then q
  else q + 1

/-- The number of 53 significant bits that is nearest to a whole number. -/
def nearest (n : Int) : Int := roundQuotient (spacing n) n * spacing n

/-- A number whose nearest number has an exponent in range. -/
def isFinite (n : Int) : Bool := (nearest n).natAbs < Nat.pow 2 1024

/-- A number of up to 53 bits is kept. -/
theorem nearest_eq_self {n : Int} (h : n.natAbs < Nat.pow 2 precision) : nearest n = n := by
  have hlog : n.natAbs.log2 + 1 - precision = 0 := by
    by_cases hz : n.natAbs = 0
    · rw [hz]
      decide
    · have := (Nat.log2_lt hz).2 h
      omega
  have hs : (spacing n : Int) = 1 := by
    rw [spacing, hlog]
    rfl
  rw [nearest, hs, roundQuotient]
  simp

end EraChronology.Binary64
