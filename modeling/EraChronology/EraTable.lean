import EraChronology.Bound
import EraChronology.Era

set_option autoImplicit false

/-! # Era tables

A table of eras cuts the line of instants into consecutive half-open periods: an era owns the
instants from its start up to the start of the next era, and a transition belongs to the new
era. The first era may reach into the unbounded past, and the last one is open.

`EraTable.ofDefs?` builds a table from definitions and accepts exactly the lists of eras that
do so. The look-ups also take eras that were never checked; one whose position is outside the
table is answered with `Error.position`.
-/

namespace EraChronology

/-! ## Definitions of eras -/

/-- What is said about an era when a table is built. -/
structure EraDef where
  name : String
  /-- The first instant; none for an era that reaches into the unbounded past. -/
  since : Option Int
  /-- The Gregorian year that is year 1, if it is stated. -/
  yearOrigin : Option Int
  abbr : String
  name_ne_empty : name ≠ ""
deriving DecidableEq

/-- The definition with these parts; the name must not be empty. -/
def EraDef.ofParts? (name : String) (since yearOrigin : Option Int) (abbr : String) :
    Except Error EraDef :=
  if h : name ≠ "" then .ok ⟨name, since, yearOrigin, abbr, h⟩
  else .error (.input .emptyEraName)

/-! ## Tables -/

/-- Eras in order, at least one, and the bound they lie in. -/
structure EraTable where
  bound : Bound
  eras : List Era
  eras_ne_nil : eras ≠ []

namespace EraTable

def yearOfInstant (t : Int) : Int := (Gregorian.ofDayNumber (dayOfInstant t)).year

/-- What is wrong with starting the era `d` at `since` after the definitions `before`, the
latest of them first: it has to start after the era before it. -/
def orderFault? (before : List EraDef) (d : EraDef) (since : Int) : Option TableFault :=
  match before with
  | [] => none
  | previous :: _ =>
    match previous.since with
    | none => none
    | some start =>
      if since ≤ start then some (.notAfter d.name since previous.name start) else none

/-- What is wrong with the stated year 1 of an era that starts at `since`: it has to be the
year of the start. -/
def originFault? (d : EraDef) (since : Int) : Option TableFault :=
  match d.yearOrigin with
  | none => none
  | some stated =>
    if stated ≠ yearOfInstant since then some (.wrongOrigin d.name stated (yearOfInstant since))
    else none

/-- What is wrong with an era that starts at `since`. It has to start at midnight, after the
era before it and within the bound, and the stated year has to be right. -/
def startFault? (bound : Bound) (before : List EraDef) (d : EraDef) (since : Int) :
    Option TableFault :=
  if since % msPerDay ≠ 0 then some (.notAtMidnight d.name since)
  else
    match orderFault? before d since with
    | some fault => some fault
    | none =>
      if ¬ bound.Contains since then some (.outsideBound d.name since)
      else originFault? d since

/-- The Gregorian year that is year 1 of the era `d` after the definitions `before`. The name
has to be new. Only the first era may have no start; its year 1 is the stated year, or else
the Gregorian year 1. Year 1 of any other era is the year it starts in. -/
def origin? (bound : Bound) (before : List EraDef) (d : EraDef) : Except TableFault Int :=
  if d.name ∈ before.map EraDef.name then .error (.duplicateName d.name)
  else
    match d.since with
    | none =>
      if before ≠ [] then .error (.lateUnbounded d.name) else .ok (d.yearOrigin.getD 1)
    | some since =>
      match startFault? bound before d since with
      | some fault => .error fault
      | none => .ok (yearOfInstant since)

/-- The eras of definitions that follow the definitions `before`, the latest of them first. -/
def erasFrom? (bound : Bound) : List EraDef → List EraDef → Except TableFault (List Era)
  | _, [] => .ok []
  | before, d :: rest => do
    let yearOrigin ← origin? bound before d
    let later ← erasFrom? bound (d :: before) rest
    return { name := d.name, abbr := d.abbr, index := before.length, since := d.since,
             yearOrigin := yearOrigin, isOpen := rest.isEmpty } :: later

/-- The table of a list of definitions. The first fault found is reported. -/
def ofDefs? (bound : Bound) (defs : List EraDef) : Except Error EraTable :=
  match erasFrom? bound [] defs with
  | .error fault => .error (.table fault)
  | .ok [] => .error (.table .noEras)
  | .ok (first :: later) => .ok ⟨bound, first :: later, by simp⟩

/-! ## Look-ups -/

def first (t : EraTable) : Era := t.eras.head t.eras_ne_nil

/-- The last era, which has no end. -/
def openEra (t : EraTable) : Era := t.eras.getLast t.eras_ne_nil

def size (t : EraTable) : Nat := t.eras.length

def names (t : EraTable) : List String := t.eras.map Era.name

/-- The era at a position: 0 is the first, and -1 counts back to the last. -/
def at? (t : EraTable) (i : Int) : Except Error Era :=
  let position := if 0 ≤ i then i else i + t.size
  if 0 ≤ position then
    match t.eras[position.toNat]? with
    | some e => .ok e
    | none => .error .position
  else .error .position

def hasBegun (t : Int) (e : Era) : Bool :=
  match e.since with
  | none => true
  | some since => since ≤ t

/-- The era an instant belongs to: the last one that has begun. Instants before the start of
the first era are counted to it. -/
def eraAt (table : EraTable) (t : Int) : Era :=
  (table.eras.filter (hasBegun t)).getLast?.getD table.first

def eraOfDay (table : EraTable) (j : Int) : Era := table.eraAt (midnight j)

/-- The era of a name, or else the last one that has it for its short name. -/
def byName? (t : EraTable) (name : String) : Except Error Era :=
  match t.eras.find? fun e => e.name = name with
  | some e => .ok e
  | none =>
    match (t.eras.filter fun e => e.abbr ≠ "" ∧ e.abbr = name).getLast? with
    | some e => .ok e
    | none => .error (.era (.unknown name t.names))

/-! ## Ends -/

/-- The start of the era after `e`; an open era has none after it. -/
def nextStart (t : EraTable) (e : Era) : Except Error (Option Int) :=
  if e.isOpen then .ok none else (t.at? (e.index + 1)).map Era.since

def lastInstant (t : EraTable) (e : Era) : Except Error (Option Int) :=
  (t.nextStart e).map fun next => next.map (· - 1)

def lastDay (t : EraTable) (e : Era) : Except Error (Option Int) :=
  (t.lastInstant e).map fun last => last.map dayOfInstant

end EraTable

end EraChronology
