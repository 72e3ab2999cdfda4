set_option autoImplicit false

/-! # Instants

Instants are milliseconds since the start of 1 January 1970 on the local timeline. A day
starts at an instant that is a multiple of `msPerDay`.
-/

namespace EraChronology

def msPerDay : Int := 86400000

/-- The day number of 1 January 1970. -/
def epochDay : Int := 2440588

def dayOfInstant (t : Int) : Int := epochDay + t / msPerDay

def midnight (j : Int) : Int := (j - epochDay) * msPerDay

/-- The milliseconds from the start of its day to an instant. -/
def timeOfDay (t : Int) : Int := t % msPerDay

/-- An instant is the start of its day and the time since. -/
theorem midnight_add_timeOfDay (t : Int) : midnight (dayOfInstant t) + timeOfDay t = t := by
  simp only [midnight, dayOfInstant, timeOfDay, msPerDay]
  omega

end EraChronology
