import Curation.Number.Digits
import Curation.Text.Blank
import Curation.Time.Instant

/-!
# Written dates and instants

Dates are written as year, month and day, instants as date and time in universal time. A year
outside 0 to 9999 has a sign. Reading is more lenient: blanks may stand before a number, a number
may have fewer digits, and an instant may be told in any offset less than a day.

* `Date.text`, `Instant.text`: the written forms.
* `Date.ofWritten?`: the date that a text tells in the written form.
* `Date.ofText?`: the date that a text tells in one of the supported layouts.
* `Instant.ofText?`: the instant that a text tells.
-/

namespace Curation

/-- A year in four digits or more, with a sign outside 0 to 9999. -/
def yearText (year : Int) : List Char :=
  if 0 ≤ year ∧ year ≤ 9999 then Digits.padded 4 year.toNat
  else (if year < 0 then '-' else '+') :: Digits.padded 4 year.natAbs

/-- Year, month and day of a date, with a separator between each two. -/
def Date.write (separator : Char) (d : Date) : List Char :=
  yearText d.year ++ separator :: (Digits.padded 2 d.month ++ separator :: Digits.padded 2 d.day)

/-- The date as year, month and day. -/
def Date.text (d : Date) : String := String.ofList (d.write '-')

/-- The English names of the months. -/
def monthNames : List String :=
  ["January", "February", "March", "April", "May", "June", "July", "August", "September",
    "October", "November", "December"]

/-- The date with the English name of its month, such as `January 10, 2025`. -/
def Date.longText (d : Date) : String :=
  monthNames.getD (d.month - 1) "" ++ " " ++ toString d.day ++ ", " ++
    String.ofList (yearText d.year)

/-- The nanoseconds of a second as a fraction of as few digits out of 3, 6 and 9 as tell them, and
as nothing if there are none. -/
def fractionText (nano : Nat) : List Char :=
  if nano = 0 then []
  else if nano % 1000000 = 0 then '.' :: Digits.padded 3 (nano / 1000000)
  else if nano % 1000 = 0 then '.' :: Digits.padded 6 (nano / 1000)
  else '.' :: Digits.padded 9 nano

/-- The instant as date and time in universal time; the second of a leap second is 60. -/
def Instant.text (t : Instant) : String :=
  let second := t.secondOfDay.toNat
  String.ofList <|
    t.date.write '-' ++ 'T' :: (Digits.padded 2 (second / 3600) ++
      ':' :: (Digits.padded 2 (second / 60 % 60) ++
        ':' :: (Digits.padded 2 (second % 60 + t.nano / Instant.nanos) ++
          (fractionText (t.nano % Instant.nanos) ++ ['Z']))))

/-- A number of at most `width` digits at the front of a text, after blanks, and the text after
it. -/
def readNumber? (width : Nat) (s : List Char) : Option (Nat × List Char) :=
  let s := Text.trimStart s
  let digits := (s.take width).takeWhile Char.isDigit
  if digits.isEmpty then none else some (Digits.value digits, s.drop digits.length)

/-- A year at the front of a text, after blanks, and the text after it: up to four digits, or a sign
and any number of digits. -/
def readYear? (s : List Char) : Option (Int × List Char) :=
  let digits (s : List Char) : Option (Nat × List Char) :=
    let digits := s.takeWhile Char.isDigit
    if digits.isEmpty then none else some (Digits.value digits, s.dropWhile Char.isDigit)
  match Text.trimStart s with
  | '-' :: s => (digits s).map fun (n, s) => (-n, s)
  | '+' :: s => (digits s).map fun (n, s) => (n, s)
  | s => (readNumber? 4 s).map fun (n, s) => (n, s)

/-- The text after a character at its front. -/
def afterChar? (c : Char) : List Char → Option (List Char)
  | d :: s => if d = c then some s else none
  | [] => none

/-- The date of the fields, if records can hold it. -/
def Date.checked? (year : Int) (month day : Nat) : Option Date :=
  (Date.ofFields? year month day).filter Date.inRange

/-- The date at the front of a text, in the form in which dates are written, and the text after it.
Blanks may stand around its fields. -/
def Date.readWritten? (s : List Char) : Option (Date × List Char) := do
  let (year, s) ← readYear? s
  let (month, s) ← readNumber? 2 (← afterChar? '-' (Text.trimStart s))
  let (day, s) ← readNumber? 2 (← afterChar? '-' (Text.trimStart s))
  let d ← Date.checked? year month day
  some (d, s)

/-- The date that a text tells in the form in which dates are written. -/
def Date.ofWritten? (raw : String) : Option Date := do
  let (d, s) ← Date.readWritten? raw.toList
  if (Text.trimStart s).isEmpty then some d else none

/-- The orders in which a date may tell its fields. -/
inductive DateLayout where
  | yearMonthDay
  | dayMonthYear
  | monthDayYear
  deriving DecidableEq, Repr

/-- The date that the whole text tells in one layout. -/
def DateLayout.read? (layout : DateLayout) (separator : Char) (s : List Char) : Option Date := do
  match layout with
  | .yearMonthDay =>
    let (year, s) ← readYear? s
    let (month, s) ← readNumber? 2 (← afterChar? separator s)
    let (day, s) ← readNumber? 2 (← afterChar? separator s)
    if s.isEmpty then Date.checked? year month day else none
  | .dayMonthYear =>
    let (day, s) ← readNumber? 2 s
    let (month, s) ← readNumber? 2 (← afterChar? separator s)
    let (year, s) ← readYear? (← afterChar? separator s)
    if s.isEmpty then Date.checked? year month day else none
  | .monthDayYear =>
    let (month, s) ← readNumber? 2 s
    let (day, s) ← readNumber? 2 (← afterChar? separator s)
    let (year, s) ← readYear? (← afterChar? separator s)
    if s.isEmpty then Date.checked? year month day else none

/-- The layouts to try, in order, for a separator and for texts that start with four digits or not:
between slashes the month is looked for before the day, else the day before the month. -/
def DateLayout.candidates (separator : Char) (yearFirst : Bool) : List DateLayout :=
  if yearFirst then [yearMonthDay]
  else if separator = '/' then [monthDayYear, dayMonthYear]
  else [dayMonthYear, monthDayYear]

/-- Whether the first four bytes of a text are ASCII digits. -/
def startsWithYear (s : List Char) : Bool :=
  (s.take 4).length == 4 && (s.take 4).all Char.isDigit

/-- The date that a text tells between blanks; its first dash, slash or point is the separator. -/
def Date.ofText? (raw : String) : Option Date := do
  let s := Text.trim raw.toList
  let separator ← s.find? fun c => c == '-' || c == '/' || c == '.'
  (DateLayout.candidates separator (startsWithYear s)).findSome? (·.read? separator s)

/-- The digits after a decimal point as nanoseconds, those after the ninth being dropped. -/
def fractionNanos (digits : List Char) : Nat :=
  Digits.value (digits.take 9) * Nat.pow 10 (9 - (digits.take 9).length)

/-- The fraction of a second at the front of a text, in nanoseconds, and the text after it. -/
def readFraction? : List Char → Option (Nat × List Char)
  | '.' :: s =>
    let digits := s.takeWhile Char.isDigit
    if digits.isEmpty then none else some (fractionNanos digits, s.dropWhile Char.isDigit)
  | s => some (0, s)

/-- The sign at the front of an offset, negative for a dash or a minus sign, and the text after
it. -/
def readOffsetSign? : List Char → Option (Bool × List Char)
  | '+' :: s => some (false, s)
  | '-' :: s => some (true, s)
  | c :: s => if c.toNat = 0x2212 then some (true, s) else none
  | [] => none

/-- The number of two digits at the front of a text, and the text after it. -/
def readTwoDigits? : List Char → Option (Nat × List Char)
  | a :: b :: s => if a.isDigit && b.isDigit then some (Digits.value [a, b], s) else none
  | _ => none

/-- The offset from universal time at the front of a text, in minutes, and the text after it:
the letter of universal time or its name, in any case, or a sign, two digits of hours and two
digits of minutes, with colons and blanks between them. -/
def readOffset? (s : List Char) : Option (Int × List Char) :=
  match s with
  | 'Z' :: s => some (0, s)
  | 'z' :: s => some (0, s)
  | s =>
    if (s.take 3).map Char.toLower = ['u', 't', 'c'] then some (0, s.drop 3)
    else do
      let (negative, s) ← readOffsetSign? s
      let (hours, s) ← readTwoDigits? s
      let (minutes, s) ← readTwoDigits? (s.dropWhile fun c => c == ':' || Text.isBlank c)
      if minutes < 60 ∧ hours < 24 then
        let offset : Int := hours * 60 + minutes
        some (if negative then -offset else offset, s)
      else none

/-- The instant of a date and a time at an offset in minutes, if records can hold it; second 60 is
a leap second. -/
def Instant.ofFields? (d : Date) (hour minute second nano : Nat) (offset : Int) : Option Instant :=
  if hour < 24 ∧ minute < 60 ∧ second ≤ 60 then
    let start := d.dayNumber * Instant.daySeconds + hour * 3600 + minute * 60 - offset * 60
    if second = 60 then Instant.checked? ⟨start + 59, Instant.nanos + nano⟩
    else Instant.checked? ⟨start + second, nano⟩
  else none

/-- The instant that a text tells: a date, a letter `T` or a space, a time with seconds, and an
offset. Blanks may stand around the separators and at the end. -/
def Instant.ofText? (raw : String) : Option Instant := do
  let (d, s) ← Date.readWritten? raw.toList
  let s ← match s with
    | c :: s => if c = 'T' ∨ c = 't' ∨ c = ' ' then some s else none
    | [] => none
  let (hour, s) ← readNumber? 2 s
  let (minute, s) ← readNumber? 2 (← afterChar? ':' (Text.trimStart s))
  let (second, s) ← readNumber? 2 (← afterChar? ':' (Text.trimStart s))
  let (nano, s) ← readFraction? s
  let (offset, s) ← readOffset? (Text.trimStart s)
  if (Text.trimStart s).isEmpty then Instant.ofFields? d hour minute second nano offset else none

end Curation
