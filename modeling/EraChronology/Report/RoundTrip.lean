import EraChronology.Calendar.Conversion

set_option autoImplicit false

/-! # Round trips

Checking at sample instants that a date found for an instant leads back to the instant and is
accepted as a date.

Drawing the samples at random from a seed is not modelled. They are spread evenly instead, over a
range of years but for its first and last day, and the offsets of the wall clock over those in use.
So a seed has no effect here, and the samples that fail are not those that a random draw would find:
where none of them fails, a random one may.
-/

namespace EraChronology.RoundTrip

structure Sample where
  instant : Int
  offset : Int

/-- The date of a sample leads back to its instant and is a date of the calendar. -/
def holds (c : Calendar) (s : Sample) : Except Error Bool := do
  let d ← c.resolve s.instant s.offset
  let back ← c.toInstant d s.offset
  let again ← c.date? (.era d.era) d.year d.month d.day d.millis
  return back = s.instant ∧ again = d ∧ 0 ≤ d.millis ∧ d.millis < msPerDay

/-- Sample `i` of `n` in the instants from `lowest` to `highest`: the middle of one of `n` equal
parts, at an offset of whole hours from -13 to 14. -/
def sample (lowest highest : Int) (n i : Nat) : Sample :=
  { instant := lowest + (highest - lowest) * (2 * (i : Int) + 1) / (2 * (n : Int))
    offset := ((11 * (i : Int)) % 28 - 13) * 3600000 }

/-- Sample `i` of `n` in the Gregorian years from `start` to `stop`, but for the first and the
last day, on which a wall clock may show a day of another year. -/
def sampleOfYears (start stop : Int) (n i : Nat) : Sample :=
  let lowest := midnight (Gregorian.dayNumber start 1 2)
  let highest := midnight (Gregorian.dayNumber stop 12 31) - 1
  sample lowest highest n i

/-- The number of `count` checks from check `i` on that fail, counted from `found` and up to
`limit`. The first check without an answer ends the count. -/
def failuresFrom (check : Nat → Except Error Bool) (limit : Int) (found i : Nat) :
    Nat → Except Error Nat
  | 0 => .ok found
  | count + 1 =>
    match check i with
    | .error e => .error e
    | .ok true => failuresFrom check limit found (i + 1) count
    | .ok false =>
      if limit ≤ found + 1 then .ok (found + 1)
      else failuresFrom check limit (found + 1) (i + 1) count

/-- The number of the `n` samples in the years from `start` to `stop` that fail. The count stops
at `limit`, but not before 1. -/
def failures (c : Calendar) (limit start stop : Int) (n : Nat) : Except Error Nat :=
  failuresFrom (fun i => holds c (sampleOfYears start stop n i)) limit 0 0 n

end EraChronology.RoundTrip
