import EraChronology.CommandLine.Console
import EraChronology.Gregorian.Civil
import EraChronology.Text.Numeral

set_option autoImplicit false

/-! # Points in time

A point in time on a command line is a civil date such as `2019-05-01`, which means its
midnight, or an instant as a plain numeral.
-/

namespace EraChronology.CommandLine

open Text

/-- A year of four digits, a month of two and a day of two, joined by hyphens. -/
structure WrittenDate where
  year : List Char
  month : List Char
  day : List Char

/-- The date a text is, a final newline being overlooked. -/
def writtenDate? (cs : List Char) : Option WrittenDate :=
  match splitOn '-' (dropFinalNewline cs) with
  | [y, m, d] =>
    if y.length = 4 ∧ m.length = 2 ∧ d.length = 2 ∧ (y ++ m ++ d).all isDigit then
      some ⟨y, m, d⟩
    else none
  | _ => none

def isWrittenDate (s : String) : Bool := (writtenDate? s.toList).isSome

def readPoint (s : String) : Except Ending Int :=
  match writtenDate? s.toList with
  | some w =>
    (Gregorian.civilInstant? (digitsValue w.year) (digitsValue w.month)
      (digitsValue w.day)).mapError .failure
  | none =>
    match plainNumeral? s.toList with
    | some n =>
      if n.isShort then .ok n.value else .error (.failure (.input (.longNumeral n.digits.length)))
    | none => .error (.complaint s!"Expected YYYY-MM-DD or an integer instant, got '{s}'")

end EraChronology.CommandLine
