set_option autoImplicit false

/-! # Blanks

The white space of Unicode, and trimming it from both ends of a text. The zero-width space
is no blank; the separators from `U+001C` to `U+001F` are.
-/

namespace EraChronology.Text

/-- The code points that count as white space. -/
def blankRanges : List (Nat × Nat) :=
  [(0x9, 0xd), (0x1c, 0x20), (0x85, 0x85), (0xa0, 0xa0), (0x1680, 0x1680), (0x2000, 0x200a),
    (0x2028, 0x2029), (0x202f, 0x202f), (0x205f, 0x205f), (0x3000, 0x3000)]

def isBlank (c : Char) : Bool :=
  blankRanges.any fun (first, last) => first ≤ c.toNat && c.toNat ≤ last

/-- The characters without those of the class `drop` at either end. -/
def trimWhile (drop : Char → Bool) (cs : List Char) : List Char :=
  ((cs.dropWhile drop).reverse.dropWhile drop).reverse

/-- The characters without the blanks at either end. -/
def trim (cs : List Char) : List Char := trimWhile isBlank cs

end EraChronology.Text
