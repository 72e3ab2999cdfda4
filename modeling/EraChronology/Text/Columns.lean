set_option autoImplicit false

/-! # Columns

Text laid out in columns: padding to a width, cutting to a width, and numbers filled with
zeros. A width counts code points, and padding never cuts.
-/

namespace EraChronology.Text

/-- The text followed by blanks, up to `width` code points. -/
def padRight (width : Nat) (s : String) : String :=
  s ++ String.ofList (List.replicate (width - s.length) ' ')

/-- The text preceded by blanks, up to `width` code points. -/
def padLeft (width : Nat) (s : String) : String :=
  String.ofList (List.replicate (width - s.length) ' ') ++ s

/-- The first `width` code points; a negative width drops that many from the end. -/
def cut (width : Int) (s : String) : String :=
  if 0 ≤ width then String.ofList (s.toList.take width.toNat)
  else String.ofList (s.toList.take (s.length - width.natAbs))

/-- The text cut to `width` and padded back to it. -/
def fit (width : Int) (s : String) : String :=
  padRight width.toNat (cut width s)

/-- A number filled with zeros up to `width` characters, a minus sign among them. -/
def zeroPad (width : Nat) (n : Int) : String :=
  let digits := toString n.natAbs
  let sign := if n < 0 then "-" else ""
  sign ++ String.ofList (List.replicate (width - (sign.length + digits.length)) '0') ++ digits

def padNumber (width : Nat) (n : Int) : String := padLeft width (toString n)

/-- A day written as year, month and day with at least four, two and two characters. -/
def isoDate (year month day : Int) : String :=
  s!"{zeroPad 4 year}-{zeroPad 2 month}-{zeroPad 2 day}"

end EraChronology.Text
