import EraChronology.Calendar.Fields
import EraChronology.Gregorian.Civil
import EraChronology.Text.NameMap

set_option autoImplicit false

/-! # Days with attributes

What is known about a day, and named attributes that can be asked for with it. An attribute
contributes a record of values; the records of several attributes are joined in the order in
which the attributes are named, and a value given again replaces the earlier one in its place.
-/

namespace EraChronology

/-! ## Values -/

/-- A value of an attribute. -/
inductive AttributeValue where
  | none
  | truth (b : Bool)
  | number (n : Int)
  | text (s : String)
  | list (items : List AttributeValue)
  | record (fields : List (String × AttributeValue))
deriving Inhabited

/-- Named values in the order in which they were first given. -/
abbrev Attributes := List (String × AttributeValue)

namespace Attributes

/-- Gives a value to a name: in its place if the name is there, at the end if not. -/
def put (name : String) (value : AttributeValue) : Attributes → Attributes
  | [] => [(name, value)]
  | (n, v) :: rest => if n = name then (n, value) :: rest else (n, v) :: put name value rest

/-- Gives all the values of a second record, one after the other. -/
def update (values more : Attributes) : Attributes :=
  more.foldl (fun acc entry => acc.put entry.1 entry.2) values

end Attributes

/-! ## Days -/

structure DayInfo where
  instant : Int
  date : EraDate
  dayOfYear : Int
  weekOfYear : Int
  weekOfMonth : Int
  dayOfWeek : Int
  /-- The attributes, if any were asked for. -/
  attributes : Option Attributes

/-- What is known about the day of an instant on a wall clock that is `offset` ahead. -/
def Calendar.dayInfo (c : Calendar) (t offset : Int) : Except Error DayInfo := do
  let date ← c.resolve t offset
  let weekOfYear ← c.weekOfYear date
  let weekOfMonth ← c.weekOfMonth date
  return { instant := t, date, dayOfYear := date.dayOfYear, weekOfYear, weekOfMonth,
           dayOfWeek := date.dayOfWeek, attributes := none }

def Calendar.explain (c : Calendar) (d : EraDate) :
    Except Error (List (Field × Int × FieldRange)) :=
  Field.all.mapM fun f => do
    let value ← c.get d f
    let range ← c.fieldRange d f
    return (f, value, range)

/-! ## Attributes -/

/-- How an attribute finds its values for a day. -/
inductive Attribute where
  /-- The day of the week, by number and by name. -/
  | weekday
  /-- The Gregorian date. -/
  | gregorian
  /-- The date in short, and the position of its era. -/
  | eraLabel
  /-- The same values for all days. -/
  | constant (values : Attributes)

def Attribute.values (info : DayInfo) : Attribute → Except Error Attributes
  | .weekday =>
    .ok [("weekday", .number info.dayOfWeek),
      ("weekday_name", .text (Gregorian.dayName info.date.dayNumber))]
  | .gregorian => do
    let day ← Gregorian.isoDay info.date.dayNumber
    return [("gregorian", .text day)]
  | .eraLabel => do
    let label ← info.date.label
    return [("era_label", .text label), ("era_index", .number info.date.era.index)]
  | .constant values => .ok values

/-- The attributes that can be asked for, by name. -/
abbrev AttributeTable := Text.NameMap Attribute

namespace AttributeTable

def standard : AttributeTable :=
  Text.NameMap.ofList
    [("weekday", .weekday), ("gregorian", .gregorian), ("era_label", .eraLabel)]

def valuesOf (table : AttributeTable) (info : DayInfo) (names : List String) :
    Except Error Attributes :=
  names.foldlM (fun acc name =>
    match table.find? name with
    | some a => (a.values info).map acc.update
    | none => .error (.lookup (.attribute name table.names))) []

/-- The day with the named attributes, if any are named. -/
def addTo (table : AttributeTable) (names : List String) (info : DayInfo) :
    Except Error DayInfo :=
  if names.isEmpty then .ok info
  else (table.valuesOf info names).map fun values => { info with attributes := some values }

end AttributeTable

end EraChronology
