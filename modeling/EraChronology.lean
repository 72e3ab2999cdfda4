import EraChronology.Almanac
import EraChronology.Attribute
import EraChronology.Binary64
import EraChronology.Bound
import EraChronology.Calendar
import EraChronology.Calendar.Conversion
import EraChronology.Calendar.FieldRange
import EraChronology.Calendar.Fields
import EraChronology.Calendar.Period
import EraChronology.CommandLine.Arguments
import EraChronology.CommandLine.Commands
import EraChronology.CommandLine.Console
import EraChronology.CommandLine.Point
import EraChronology.Era
import EraChronology.EraTable
import EraChronology.Error
import EraChronology.Field
import EraChronology.Gregorian
import EraChronology.Gregorian.Civil
import EraChronology.Instant
import EraChronology.Main
import EraChronology.Once
import EraChronology.Proofs.DayNumber
import EraChronology.Proofs.EraTable.Acceptance
import EraChronology.Proofs.EraTable.Accepted
import EraChronology.Proofs.Except
import EraChronology.Proofs.Instant
import EraChronology.Report.EraList
import EraChronology.Report.FieldTable
import EraChronology.Report.MonthGrid
import EraChronology.Report.Notation
import EraChronology.Report.RoundTrip
import EraChronology.Report.SpanSeries
import EraChronology.Report.Transitions
import EraChronology.Representable
import EraChronology.Span
import EraChronology.Spec
import EraChronology.Supplement
import EraChronology.Text.Blank
import EraChronology.Text.Columns
import EraChronology.Text.Digits
import EraChronology.Text.NameMap
import EraChronology.Text.Numeral
import EraChronology.Text.Printable
import EraChronology.Text.Quoted
import EraChronology.Text.Split
import EraChronology.WeekRule
import EraChronology.Proofs.EraTable.Ownership
import EraChronology.Proofs.Calendar.Dates
import EraChronology.Proofs.Calendar.Period
import EraChronology.Proofs.Calendar.RoundTrip
import EraChronology.Proofs.EraTable.LastYear
import EraChronology.Proofs.Calendar.FieldRange
import EraChronology.Proofs.Calendar.Extremes
import EraChronology.Proofs.EraTable.Partition
import EraChronology.Proofs.Calendar.NextDay
import EraChronology.Proofs.Calendar.Tiling
import EraChronology.Proofs.WeekRule
import EraChronology.Proofs.Calendar.WeekOfYear
import EraChronology.Proofs.Calendar.Limits
import EraChronology.Proofs.Calendar.Containment
import EraChronology.Proofs.Calendar.LargestWeek
import EraChronology.Proofs.Calendar.YearCycle
import EraChronology.Proofs.Calendar.Changes
import EraChronology.Proofs.Calendar.Agreement
import EraChronology.Proofs.Calendar.AppendedEra
import EraChronology.Proofs.Calendar.OtherBound
import EraChronology.Proofs.JulianDay
import EraChronology.Proofs.LenientDay
import EraChronology.Proofs.Calendar.EmptyEras
import EraChronology.Proofs.Supplement
import EraChronology.Proofs.Registry
import EraChronology.Proofs.Almanac
import EraChronology.Proofs.Calendar.Setting
import EraChronology.Proofs.Calendar.Adding
import EraChronology.Proofs.Calendar.Resolving
import EraChronology.Proofs.Calendar.AddingDays
import EraChronology.Proofs.Calendar.AddingMonths
import EraChronology.Proofs.Calendar.UncutYear
import EraChronology.Proofs.CommandLine.Arguments
import EraChronology.Proofs.CommandLine.OwnWeeks
import EraChronology.Proofs.SpanSeries
import EraChronology.Proofs.Text
import EraChronology.Proofs.Announcement
import EraChronology.Proofs.WeekRule.Counting
import EraChronology.Proofs.WeekRule.YearWeeks
import EraChronology.Proofs.EraTable.Names
import EraChronology.Proofs.Report.Columns
import EraChronology.Proofs.Report.MonthRows
import EraChronology.Proofs.Report.MonthGrid
import EraChronology.Proofs.CommandLine.PrintedMonth
