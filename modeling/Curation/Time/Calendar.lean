import Curation.Number.Digits
import Curation.Time.Instant

/-!
# Calendars

A calendar says on which day a week starts and how far local time is ahead of universal time. It
turns instants into local dates, and local dates into the instants at which they start.

* `Calendar.ofMinutes?`: offsets are less than a day.
* `Calendar.localDate`: the local date of an instant.
* `Calendar.midnight?`: the instant at which a local date starts.
-/

namespace Curation

/-- Conventions of a place: the first day of its weeks, and its offset from universal time. -/
structure Calendar where
  /-- The first day of the week. -/
  weekStart : Weekday
  /-- Minutes by which local time is ahead of universal time. -/
  offsetMinutes : Int
  /-- The offset is less than a day. -/
  offset_lt : offsetMinutes.natAbs < 24 * 60 := by decide
  deriving DecidableEq, Repr

namespace Calendar

/-- The calendar in universal time. -/
def utc (weekStart : Weekday) : Calendar := { weekStart, offsetMinutes := 0 }

/-- The calendar with an offset, which has to be less than a day. -/
def ofMinutes? (weekStart : Weekday) (offsetMinutes : Int) : Option Calendar :=
  if h : offsetMinutes.natAbs < 24 * 60 then some ⟨weekStart, offsetMinutes, h⟩ else none

/-- Seconds by which local time is ahead of universal time. -/
def offsetSeconds (calendar : Calendar) : Int := calendar.offsetMinutes * 60

/-- The second of an instant, counted in local time. -/
def localSecond (calendar : Calendar) (t : Instant) : Int := t.second + calendar.offsetSeconds

def localDate (calendar : Calendar) (t : Instant) : Date :=
  Date.ofDayNumber (calendar.localSecond t / Instant.daySeconds)

/-- The instant that a local date, a second of its day and nanoseconds name, if the date and the
instant can stand in records. -/
def instantAt? (calendar : Calendar) (d : Date) (second : Int) (nano : Nat) : Option Instant :=
  if d.inRange then
    Instant.checked? ⟨d.dayNumber * Instant.daySeconds + second - calendar.offsetSeconds, nano⟩
  else none

/-- The instant at which a local date starts. -/
def midnight? (calendar : Calendar) (d : Date) : Option Instant := calendar.instantAt? d 0 0

/-- The first day of the local week that holds a date. -/
def firstOfWeek (calendar : Calendar) (d : Date) : Date :=
  d.addDays (-(d.weekday.daysSince calendar.weekStart : Int))

/-- The instant with the same local time of day some months earlier. -/
def monthsBefore? (calendar : Calendar) (t : Instant) (months : Nat) : Option Instant :=
  calendar.instantAt? ((calendar.localDate t).monthsBefore months)
    (calendar.localSecond t % Instant.daySeconds) t.nano

/-- The offset from universal time as sign, hours and minutes. -/
def offsetText (calendar : Calendar) : String :=
  let minutes := calendar.offsetMinutes.natAbs
  String.ofList ((if calendar.offsetMinutes < 0 then '-' else '+') ::
    Digits.padded 2 (minutes / 60) ++ ':' :: Digits.padded 2 (minutes % 60))

end Calendar

end Curation
