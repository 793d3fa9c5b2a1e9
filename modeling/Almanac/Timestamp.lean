import Almanac.Calendar

/-!
Timestamps, counted in milliseconds since 1970-01-01 00:00:00. A timestamp is a unix date and the
milliseconds gone by since that day's midnight, before the epoch as after it. Main statements: the
two parts restore the timestamp, and the second one always is a time of day.
-/

namespace Almanac

abbrev millisPerSecond : Int := 1000
abbrev millisPerMinute : Int := 60000
abbrev millisPerHour : Int := 3600000
abbrev millisPerDay : Int := 86400000
abbrev secondsPerDay : Int := 86400

namespace Timestamp

def date (timestamp : Int) : Int := timestamp / millisPerDay

def time (timestamp : Int) : Int := timestamp % millisPerDay

def onDate (date time : Int) : Int := date * millisPerDay + time

theorem onDate_date_time (timestamp : Int) :
    onDate (date timestamp) (time timestamp) = timestamp := by
  simp only [onDate, date, time, millisPerDay]
  omega

def InDay (time : Int) : Prop := 0 ≤ time ∧ time < millisPerDay

instance (time : Int) : Decidable (InDay time) :=
  inferInstanceAs (Decidable (_ ∧ _))

theorem inDay_time (timestamp : Int) : InDay (time timestamp) := by
  simp only [InDay, time, millisPerDay]
  omega

theorem date_onDate {time : Int} (date : Int) (h : InDay time) :
    Timestamp.date (onDate date time) = date := by
  simp only [Timestamp.date, onDate, InDay, millisPerDay] at *
  omega

theorem time_onDate {time : Int} (date : Int) (h : InDay time) :
    Timestamp.time (onDate date time) = time := by
  simp only [Timestamp.time, onDate, InDay, millisPerDay] at *
  omega

/-- Milliseconds of hours, minutes and seconds, none of them limited to its clock. -/
def clockMillis (hour minute second : Int) : Int :=
  hour * millisPerHour + minute * millisPerMinute + second * millisPerSecond

def ofFields (date : CalendarDate) (hour minute second : Int) : Int :=
  onDate date.toUnix (clockMillis hour minute second)

def resetTime (timestamp : Int) : Int := onDate (date timestamp) 0

def resetDate (timestamp : Int) : Int := time timestamp

end Timestamp

end Almanac
