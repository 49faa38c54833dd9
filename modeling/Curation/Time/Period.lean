import Curation.Failure
import Curation.Number.Digits
import Curation.Text.Blank
import Curation.Text.Lowercase
import Curation.Time.Window

/-!
# Periods

A period names a window of time that ends now: the last so many hours, days, weeks or months, or
the current local day, week, month or year so far.

* `Period.resolve`: the window that a period names.
* `Period.ofToken`: the period that a token such as `last7days`, `today` or `Past-Week` names.
-/

namespace Curation

/-- A window of time relative to now. -/
inductive Period where
  | today
  | lastHours (count : UInt32)
  -- a number of trailing days of 24 hours
  | lastDays (count : UInt32)
  -- a number of trailing weeks of seven days
  | lastWeeks (count : UInt32)
  -- a number of trailing calendar months
  | lastMonths (count : UInt32)
  | thisWeek
  | thisMonth
  | thisYear
  deriving DecidableEq, Repr

namespace Period

/-- The first instant of the period, if records can hold it. -/
def start? (period : Period) (now : Instant) (calendar : Calendar) : Option Instant :=
  let today := calendar.localDate now
  match period with
  | .today => calendar.midnight? today
  | .lastHours count => now.back? (count.toNat * 3600)
  | .lastDays count => now.back? (count.toNat * 86400)
  | .lastWeeks count => now.back? (count.toNat * 7 * 86400)
  | .lastMonths count => calendar.monthsBefore? now count.toNat
  | .thisWeek => calendar.midnight? (calendar.firstOfWeek today)
  | .thisMonth => calendar.midnight? today.firstOfMonth
  | .thisYear => calendar.midnight? today.firstOfYear

/-- The window that the period names at an instant, from the earliest instant on if its start is
earlier than records can hold. -/
def resolve (period : Period) (now : Instant) (calendar : Calendar) : Window :=
  Window.upTo ((period.start? now calendar).getD Instant.earliest) now

/-- The trailing period of a unit, which has a long, a plural and a short name. -/
def ofUnit? (unit : String) (count : UInt32) : Option Period :=
  if unit ∈ ["hour", "hours", "h"] then some (lastHours count)
  else if unit ∈ ["day", "days", "d"] then some (lastDays count)
  else if unit ∈ ["week", "weeks", "w"] then some (lastWeeks count)
  else if unit ∈ ["month", "months", "m"] then some (lastMonths count)
  else none

/-- The period of a count below 2³² and a unit written after each other. -/
def ofCount? (s : List Char) : Option Period :=
  let digits := s.takeWhile Char.isDigit
  let count := Digits.value digits
  if digits.isEmpty ∨ UInt32.size ≤ count then none
  else ofUnit? (String.ofList (s.dropWhile Char.isDigit)) (UInt32.ofNat count)

/-- The periods that have a name of their own. -/
def ofName? (name : String) : Option Period :=
  match name with
  | "today" => some today
  | "thisweek" => some thisWeek
  | "thismonth" => some thisMonth
  | "thisyear" => some thisYear
  | "pastweek" => some (lastDays 7)
  | "pastmonth" => some (lastDays 30)
  | "pastyear" => some (lastDays 365)
  | _ => none

/-- A token with its parts joined and its ASCII letters in lower case. -/
def normalToken (s : List Char) : List Char :=
  Text.lowerAscii (Text.joinParts s)

/-- The period that a token names, by a name of its own or by `last`, a count and a unit. -/
def ofToken? (raw : String) : Option Period :=
  let token := normalToken raw.toList
  match ofName? (String.ofList token) with
  | some period => some period
  | none =>
    if ['l', 'a', 's', 't'].isPrefixOf token then ofCount? (token.drop 4) else none

/-- The period that a token names, or the failure that tells the token between its blanks. -/
def ofToken (raw : String) : Except Failure Period :=
  match ofToken? raw with
  | some period => .ok period
  | none => .error (.invalidPeriod (String.ofList (Text.trim raw.toList)))

end Period

end Curation
