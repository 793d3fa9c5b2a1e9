import Almanac.Arithmetic
import Almanac.Calendar
import Almanac.DateFormat
import Almanac.DatePattern
import Almanac.DateTime
import Almanac.Decimal
import Almanac.Field
import Almanac.IntervalText
import Almanac.IsoDate
import Almanac.IsoWeek
import Almanac.Literal
import Almanac.LocalRules
import Almanac.MarchYear
import Almanac.MonthIndex
import Almanac.MonthShift
import Almanac.MonthView
import Almanac.Numeral
import Almanac.Ordinal
import Almanac.PatternMatch
import Almanac.PatternScan
import Almanac.Period
import Almanac.Quoted
import Almanac.Report
import Almanac.Table
import Almanac.Text
import Almanac.TimeUnit
import Almanac.Timestamp
import Almanac.UnitRange
import Almanac.Value
import Almanac.Zone
import Almanac.Proofs.DaySuccession
import Almanac.Proofs.IsoThursday
import Almanac.Proofs.WeekDates
import Almanac.Proofs.MonthBracket
import Almanac.Proofs.MonthOrder
import Almanac.Proofs.TimestampMonths
import Almanac.Proofs.MovedDates
import Almanac.Proofs.PaddedNumber
import Almanac.Proofs.FractionDigits
import Almanac.Proofs.LiteralReadback
import Almanac.Proofs.GreatestSplit
import Almanac.Proofs.MonthOfDay
import Almanac.Proofs.OrdinalDays
import Almanac.Proofs.PeriodStarts
import Almanac.Proofs.PeriodFields
import Almanac.Proofs.FieldValues
import Almanac.Proofs.PatternReading
import Almanac.Proofs.PatternRendering
import Almanac.Proofs.DigitLimit
import Almanac.Proofs.TimestampFields
import Almanac.Proofs.UtcInstant
import Almanac.Proofs.ReadingFields
import Almanac.Proofs.NumberLiterals
import Almanac.Proofs.PrecisionReading
import Almanac.Proofs.FractionOverflow
import Almanac.Proofs.KeptFraction
import Almanac.Proofs.TimeComponents
import Almanac.Proofs.FloorSides
import Almanac.Proofs.PeriodMidnights
import Almanac.Proofs.IntervalFields
import Almanac.Proofs.FractionRounding
import Almanac.Proofs.PatternAcceptance
import Almanac.Proofs.QuoteRuns
import Almanac.Proofs.MatchedFront
import Almanac.Proofs.ComponentErrors
import Almanac.Proofs.CarriedDates
import Almanac.Proofs.TimePositions
import Almanac.Proofs.TextOrder
import Almanac.Proofs.MonthLayout
import Almanac.Proofs.InstantOverflow
import Almanac.Proofs.LocalClock
import Almanac.Proofs.HostReadings
import Almanac.Proofs.DayOfYear
import Almanac.Proofs.PaddedComponents
