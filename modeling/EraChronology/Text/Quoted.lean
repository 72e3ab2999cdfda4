import EraChronology.Text.Printable

set_option autoImplicit false

/-! # Quoted text

A text in quotation marks, written so that every character can be seen. Single quotes are
used, or double quotes when the text has a single quote and no double one. The quote in use
and the backslash are escaped by a backslash; tab, newline and carriage return have letters
of their own, and other unprintable characters are written by their code points in
hexadecimal.
-/

namespace EraChronology.Text

/-- A number in lower-case hexadecimal, filled with zeros up to `width` digits. -/
def hex (width n : Nat) : String :=
  let digits := Nat.toDigits 16 n
  String.ofList (List.replicate (width - digits.length) '0' ++ digits)

/-- The quotation mark a text is put into. -/
def quoteFor (cs : List Char) : Char :=
  if cs.contains '\'' && !cs.contains '"' then '"' else '\''

/-- One character as it is written between two marks `quote`. -/
def escape (quote c : Char) : String :=
  if c = quote ∨ c = '\\' then String.ofList ['\\', c]
  else if c = '\n' then "\\n"
  else if c = '\r' then "\\r"
  else if c = '\t' then "\\t"
  else if isPrintable c then String.singleton c
  else if c.toNat ≤ 0xff then "\\x" ++ hex 2 c.toNat
  else if c.toNat ≤ 0xffff then "\\u" ++ hex 4 c.toNat
  else "\\U" ++ hex 8 c.toNat

def quoted (s : String) : String :=
  let quote := quoteFor s.toList
  String.singleton quote ++ String.join (s.toList.map (escape quote)) ++ String.singleton quote

def bracketed (items : List String) : String := "[" ++ ", ".intercalate items ++ "]"

def quotedList (items : List String) : String := bracketed (items.map quoted)

end EraChronology.Text
