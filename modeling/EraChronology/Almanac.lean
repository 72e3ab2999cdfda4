import EraChronology.Attribute
import EraChronology.Gregorian.Civil
import EraChronology.Supplement

set_option autoImplicit false

/-! # Almanacs

An almanac keeps calendars and attributes under names and answers questions about dates in any
of them. Without a name the Japanese calendar is asked, or for a date the calendar that has the
date's own calendar name.
-/

namespace EraChronology

/-! ## Registries -/

abbrev Registry := Text.NameMap Calendar

namespace Registry

def calendar? (r : Registry) (name : String) : Except Error Calendar :=
  match r.find? name with
  | some c => .ok c
  | none => .error (.lookup (.calendar name r.names))

/-- Registers a calendar. A name that is taken is only given away again if that is asked for. -/
def register? (r : Registry) (name : String) (c : Calendar) (overwrite : Bool) :
    Except Error Registry :=
  if (r.find? name).isSome ∧ ¬ overwrite then .error (.lookup (.calendarTaken name))
  else .ok (r.insert name c)

/-- The built-in calendars, the Japanese one with the era that a line of text announces. -/
def builtIn? (supplement : String) : Except Error Registry := do
  let gregorian ← Calendar.ofSpec? Spec.gregorian
  let japanese ← Calendar.ofSpec? (Spec.japanese.supplemented supplement)
  return Text.NameMap.ofList [("gregorian", gregorian), ("japanese", japanese)]

end Registry

/-! ## Almanacs -/

/-- The calendars, once a registry is set up, and the attributes. -/
structure Almanac where
  registry : Option Registry
  attributes : AttributeTable

namespace Almanac

/-- The calendar that is asked unless another one is named. -/
def defaultCalendar : String := "japanese"

def builtIn? (supplement : String) : Except Error Almanac :=
  (Registry.builtIn? supplement).map fun r => ⟨some r, .standard⟩

/-- The registry, which has to be set up. -/
def registry? (a : Almanac) : Except Error Registry :=
  match a.registry with
  | some r => .ok r
  | none => .error .noRegistry

def calendarNames (a : Almanac) : Except Error (List String) := a.registry?.map Text.NameMap.names

def calendar? (a : Almanac) (name : String) : Except Error Calendar := do
  (← a.registry?).calendar? name

/-- The calendar of a name, or without a name the one a date comes from. -/
def calendarFor (a : Almanac) (d : EraDate) (name : Option String) : Except Error Calendar :=
  a.calendar? (name.getD d.calendar.name)

def register (a : Almanac) (name : String) (c : Calendar) (overwrite : Bool) :
    Except Error Almanac := do
  let r ← (← a.registry?).register? name c overwrite
  return { a with registry := some r }

def registerAttribute (a : Almanac) (name : String) (rule : Attribute) : Almanac :=
  { a with attributes := a.attributes.insert name rule }

/-! ## Instants -/

def resolve (a : Almanac) (name : String) (t offset : Int) : Except Error EraDate := do
  (← a.calendar? name).resolve t offset

/-- The date with these parts, at midnight. -/
def eraDate (a : Almanac) (name : String) (ref : EraRef) (n m d : Int) :
    Except Error EraDate := do
  (← a.calendar? name).date? ref n m d 0

/-- The date of a civil date, at midnight. -/
def ofCivil (a : Almanac) (name : String) (y m d : Int) : Except Error EraDate := do
  let t ← Gregorian.civilInstant? y m d
  a.resolve name t 0

def eraNamed (a : Almanac) (name era : String) : Except Error Era := do
  (← a.calendar? name).table.byName? era

def eraAt (a : Almanac) (name : String) (t : Int) : Except Error Era :=
  (a.resolve name t 0).map EraDate.era

def dayInfo (a : Almanac) (name : String) (t offset : Int) (attributes : List String) :
    Except Error DayInfo := do
  let info ← (← a.calendar? name).dayInfo t offset
  a.attributes.addTo attributes info

/-! ## Dates -/

def toInstant (a : Almanac) (d : EraDate) (offset : Int) (name : Option String) :
    Except Error Int := do
  (← a.calendarFor d name).toInstant d offset

def fieldRange (a : Almanac) (d : EraDate) (field : String) (name : Option String) :
    Except Error FieldRange := do
  (← a.calendarFor d name).fieldRangeNamed d field

def get (a : Almanac) (d : EraDate) (field : String) (name : Option String) :
    Except Error Int := do
  (← a.calendarFor d name).getNamed d field

def set (a : Almanac) (d : EraDate) (field : String) (v : Int) (name : Option String) :
    Except Error EraDate := do
  (← a.calendarFor d name).setNamed d field v

def add (a : Almanac) (d : EraDate) (field : String) (amount : Int) (name : Option String) :
    Except Error EraDate := do
  (← a.calendarFor d name).addNamed d field amount

def explain (a : Almanac) (d : EraDate) (name : Option String) :
    Except Error (List (Field × Int × FieldRange)) := do
  (← a.calendarFor d name).explain d

end Almanac

end EraChronology
