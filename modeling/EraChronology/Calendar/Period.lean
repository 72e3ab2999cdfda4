import EraChronology.Calendar

set_option autoImplicit false

/-! # Years and months of an era

The days of a year or a month that belong to an era and are representable.
-/

namespace EraChronology.Calendar

/-- A Gregorian period cut to an era that has the last day `eraLast`, if it has one, and to the
representable days. -/
def cut (c : Calendar) (e : Era) (eraLast : Option Int) (naturalFirst naturalLast : Int) :
    Span :=
  let anchor := max naturalFirst e.firstDay
  let first := max anchor c.table.floorDay
  let atFloor : Bool := anchor < first
  let last := (eraLast.map (min naturalLast)).getD naturalLast
  let atCeiling : Bool := c.table.ceilingDay < last
  { first := first
    last := min last c.table.ceilingDay
    naturalFirst := naturalFirst
    naturalLast := naturalLast
    anchor := anchor
    startsEra := anchor = e.firstDay || atFloor
    endsEra := eraLast = some last || atCeiling
    clamped := atFloor || atCeiling }

def yearSpan (c : Calendar) (e : Era) (n : Int) : Except Error Span := do
  let y := e.absoluteYear n
  let eraLast ← c.table.lastDay e
  return c.cut e eraLast (Gregorian.dayNumber y 1 1) (Gregorian.dayNumber y 12 31)

def monthLengthOf (e : Era) (n m : Int) : Except Error Int :=
  match Gregorian.monthLength? (e.absoluteYear n) m with
  | some length => .ok length
  | none => .error .position

def monthSpan (c : Calendar) (e : Era) (n m : Int) : Except Error Span := do
  let first := Gregorian.dayNumber (e.absoluteYear n) m 1
  let length ← monthLengthOf e n m
  let eraLast ← c.table.lastDay e
  return c.cut e eraLast first (first + length - 1)

end EraChronology.Calendar
