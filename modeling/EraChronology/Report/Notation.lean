import EraChronology.Attribute
import EraChronology.Text.Quoted

set_option autoImplicit false

/-! # The notation of records

Days written out with all their parts: a record is its name and its fields in parentheses,
texts are quoted, and what is absent is written `None`.
-/

namespace EraChronology

open Text

def truthText (b : Bool) : String := if b then "True" else "False"

def numberText (n : Int) : Except Error String := writing [n] (toString n)

/-- The word for what is absent, or a number. -/
def optionalNumberText : Option Int → Except Error String
  | none => .ok "None"
  | some n => numberText n

/-- A record: its name, and the names and values of its fields. -/
def recordText (name : String) (fields : List (String × Except Error String)) :
    Except Error String := do
  let parts ← fields.mapM fun (field, value) => value.map fun text => field ++ "=" ++ text
  return name ++ "(" ++ ", ".intercalate parts ++ ")"

/-- Names and values between braces, the names quoted. -/
def bracedText (fields : List (String × String)) : String :=
  "\x7b" ++ ", ".intercalate (fields.map fun field => quoted field.1 ++ ": " ++ field.2) ++ "\x7d"

mutual

def AttributeValue.written : AttributeValue → Except Error String
  | .none => .ok "None"
  | .truth b => .ok (truthText b)
  | .number n => numberText n
  | .text s => .ok (quoted s)
  | .list items => (writtenItems items).map bracketed
  | .record fields => (writtenFields fields).map bracedText

def writtenItems : List AttributeValue → Except Error (List String)
  | [] => .ok []
  | v :: rest => do
    let text ← v.written
    let texts ← writtenItems rest
    return text :: texts

def writtenFields : List (String × AttributeValue) → Except Error (List (String × String))
  | [] => .ok []
  | (name, v) :: rest => do
    let text ← v.written
    let texts ← writtenFields rest
    return (name, text) :: texts

end

def CalendarId.written (id : CalendarId) : Except Error String :=
  recordText "CalendarId"
    [("family", .ok (quoted id.family)), ("name", .ok (quoted id.name)),
     ("version", .ok (quoted id.version))]

def Era.written (e : Era) : Except Error String :=
  recordText "Era"
    [("name", .ok (quoted e.name)), ("abbr", .ok (quoted e.abbr)), ("index", numberText e.index),
     ("since", optionalNumberText e.since), ("year_origin", numberText e.yearOrigin),
     ("is_open", .ok (truthText e.isOpen))]

def EraDate.written (d : EraDate) : Except Error String :=
  recordText "ResolvedDate"
    [("calendar", d.calendar.written), ("era", d.era.written), ("year", numberText d.year),
     ("month", numberText d.month), ("day", numberText d.day), ("millis", numberText d.millis)]

def writtenAttributes : Option Attributes → Except Error String
  | none => .ok "None"
  | some values => (writtenFields values).map bracedText

def DayInfo.written (info : DayInfo) : Except Error String :=
  recordText "DayInfo"
    [("instant", numberText info.instant), ("date", info.date.written),
     ("day_of_year", numberText info.dayOfYear), ("week_of_year", numberText info.weekOfYear),
     ("week_of_month", numberText info.weekOfMonth), ("day_of_week", numberText info.dayOfWeek),
     ("attributes", writtenAttributes info.attributes)]

end EraChronology
