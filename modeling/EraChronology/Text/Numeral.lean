import EraChronology.Text.Blank
import EraChronology.Text.Digits
import EraChronology.Text.Split

set_option autoImplicit false

/-! # Numerals

Reading integers from text. A *plain* numeral is an optional minus sign and digits, a final
newline being overlooked. A *free* numeral may stand between blanks, carry either sign and
group its digits by single underscores. Digits of any script are read in both.

A numeral of more than `digitLimit` digits is refused, and no number is written in more:
`isWritable_iff` says that the numbers left out are exactly those with a longer decimal.
-/

namespace EraChronology.Text

/-- The largest number of digits a numeral may have. -/
def digitLimit : Nat := 4300

/-- A number that is short enough to be written, whatever its sign. -/
def isWritable (n : Int) : Bool := n.natAbs < Nat.pow 10 digitLimit

theorem isWritable_iff (n : Int) : isWritable n = true ↔ n.natAbs.repr.length ≤ digitLimit := by
  have hpos : 0 < digitLimit := by decide
  rw [Nat.length_repr_le_iff hpos, isWritable, decide_eq_true_iff, Nat.pow_eq]

/-- A sign and the digits after it, each a decimal digit of some script. -/
structure Numeral where
  negative : Bool
  digits : List Char

namespace Numeral

def value (n : Numeral) : Int :=
  if n.negative then -(digitsValue n.digits : Int) else digitsValue n.digits

/-- A numeral that is short enough to be read. -/
def isShort (n : Numeral) : Bool := n.digits.length ≤ digitLimit

end Numeral

/-- The characters without one final newline. -/
def dropFinalNewline (cs : List Char) : List Char :=
  if cs.getLast? = some '\n' then cs.dropLast else cs

def isDigitRow (cs : List Char) : Bool := !cs.isEmpty && cs.all isDigit

/-- The plain numeral a text is, if it is one. -/
def plainNumeral? (cs : List Char) : Option Numeral :=
  match dropFinalNewline cs with
  | '-' :: digits => if isDigitRow digits then some ⟨true, digits⟩ else none
  | digits => if isDigitRow digits then some ⟨false, digits⟩ else none

/-- The blanks that may surround a free numeral: all but the four separators from `U+001C`. -/
def isMargin (c : Char) : Bool := isBlank c && !(0x1c ≤ c.toNat && c.toNat ≤ 0x1f)

/-- The digits of a row in which single underscores may stand between digits. -/
def groupedDigits? (cs : List Char) : Option (List Char) :=
  let groups := splitOn '_' cs
  if groups.all isDigitRow then some groups.flatten else none

/-- The free numeral a text is, if it is one. -/
def freeNumeral? (cs : List Char) : Option Numeral :=
  match trimWhile isMargin cs with
  | '-' :: rest => (groupedDigits? rest).map (⟨true, ·⟩)
  | '+' :: rest => (groupedDigits? rest).map (⟨false, ·⟩)
  | rest => (groupedDigits? rest).map (⟨false, ·⟩)

/-- The integer a free numeral of acceptable length writes. -/
def readInteger? (s : String) : Option Int :=
  ((freeNumeral? s.toList).filter Numeral.isShort).map Numeral.value

end EraChronology.Text
