set_option autoImplicit false

/-! # Spans

The days of a year or a month of an era, cut by the era and by the representable range.
-/

namespace EraChronology

/-- The days of one year or month of an era, by day numbers, first and last included. -/
structure Span where
  first : Int
  last : Int
  /-- The first day of the uncut Gregorian period. -/
  naturalFirst : Int
  /-- The last day of the uncut Gregorian period. -/
  naturalLast : Int
  /-- The day that is numbered 1: the later of the natural start and the start of the era. It
  differs from `first` only where the representable range cuts the period. -/
  anchor : Int
  /-- Nothing of the era comes before the span. -/
  startsEra : Bool
  /-- Nothing of the era comes after the span. -/
  endsEra : Bool
  /-- The representable range cuts the span. -/
  clamped : Bool
deriving DecidableEq

namespace Span

def truncatedStart (s : Span) : Bool := s.naturalFirst < s.first

def truncatedEnd (s : Span) : Bool := s.last < s.naturalLast

/-- The number of days, if there are any. -/
def length (s : Span) : Int := s.last - s.first + 1

def whole (first last : Int) : Span :=
  { first, last, naturalFirst := first, naturalLast := last, anchor := first
    startsEra := false, endsEra := false, clamped := false }

/-- The uncut period of a span. -/
def natural (s : Span) : Span := whole s.naturalFirst s.naturalLast

end Span

end EraChronology
