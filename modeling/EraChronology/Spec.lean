import EraChronology.EraTable
import EraChronology.Gregorian.Civil

set_option autoImplicit false

/-! # Specifications of calendars

What a calendar is made from, and the two calendars that come with the library.
-/

namespace EraChronology

/-- The parts of a calendar, not yet checked against each other. -/
structure Spec where
  id : CalendarId
  eras : List EraDef
  /-- The day weeks start on, 1 for Sunday to 7 for Saturday. -/
  firstDayOfWeek : Int
  /-- The days of a period that its first week needs. -/
  minimalDays : Int
  bound : Bound

namespace Spec

def withEra (spec : Spec) (d : EraDef) : Spec := { spec with eras := spec.eras ++ [d] }

/-- The imperial eras of Japan. Transitions are at local midnight. -/
def japanese : Spec where
  id := ⟨"imperial", "japanese", "1"⟩
  eras :=
    [⟨"BeforeMeiji", none, some 1, "BM", by decide⟩,
     ⟨"Meiji", some (Gregorian.since 1868 1 1), none, "M", by decide⟩,
     ⟨"Taisho", some (Gregorian.since 1912 7 30), none, "T", by decide⟩,
     ⟨"Showa", some (Gregorian.since 1926 12 25), none, "S", by decide⟩,
     ⟨"Heisei", some (Gregorian.since 1989 1 8), none, "H", by decide⟩,
     ⟨"Reiwa", some (Gregorian.since 2019 5 1), none, "R", by decide⟩]
  firstDayOfWeek := 1
  minimalDays := 1
  bound := Bound.standard

/-- The Gregorian calendar with a single era and the weeks of the ISO calendar. -/
def gregorian : Spec where
  id := ⟨"gregorian", "gregorian", "1"⟩
  eras := [⟨"CE", none, some 1, "CE", by decide⟩]
  firstDayOfWeek := 2
  minimalDays := 4
  bound := Bound.standard

/-- The specifications that come with the library, by name. -/
def builtIn : List (String × Spec) := [("gregorian", gregorian), ("japanese", japanese)]

def builtInNames : List String := builtIn.map Prod.fst

def builtIn? (name : String) : Option Spec :=
  (builtIn.find? fun entry => entry.1 = name).map Prod.snd

end Spec

end EraChronology
