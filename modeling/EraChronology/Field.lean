import EraChronology.Error

set_option autoImplicit false

/-! # Fields

The numbers a date has: the parts it is written with, and those counted from them.
-/

namespace EraChronology

/-- A number that belongs to a date. -/
inductive Field where
  | era
  | year
  | month
  | dayOfMonth
  | dayOfYear
  | dayOfWeekInMonth
  | weekOfYear
  | weekOfMonth
deriving DecidableEq

namespace Field

/-- All fields, from the widest to the narrowest. -/
def all : List Field :=
  [era, year, month, dayOfMonth, dayOfYear, dayOfWeekInMonth, weekOfYear, weekOfMonth]

def name : Field → String
  | era => "era"
  | year => "year"
  | month => "month"
  | dayOfMonth => "day_of_month"
  | dayOfYear => "day_of_year"
  | dayOfWeekInMonth => "day_of_week_in_month"
  | weekOfYear => "week_of_year"
  | weekOfMonth => "week_of_month"

def names : List String := all.map name

def ofName? (s : String) : Option Field := all.find? fun f => f.name = s

/-- The field of a name, and an error for any other text. -/
def named (s : String) : Except Error Field :=
  match ofName? s with
  | some f => .ok f
  | none => .error (.input (.unknownField s names))

theorem ofName?_name (f : Field) : ofName? f.name = some f := by
  cases f <;> decide

end Field

end EraChronology
