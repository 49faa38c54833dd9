/-!
# Calendar dates

Dates of the proleptic Gregorian calendar, and the day numbers that count them from 1970-01-01.

* `dayNumber_inj`, `dayNumber_ofDayNumber`: dates and day numbers correspond one to one.
* `Date.weekday`: the day of the week.
* `Date.monthsBefore`: the date some months earlier, its day reduced to the length of the month.
-/

namespace Curation

/-- A day of the week. -/
inductive Weekday where
  | mon
  | tue
  | wed
  | thu
  | fri
  | sat
  | sun
  deriving DecidableEq, Repr

namespace Weekday

/-- The days of the week from Monday on. -/
def all : List Weekday := [mon, tue, wed, thu, fri, sat, sun]

/-- The number of days since the last Monday. -/
def index : Weekday → Nat
  | mon => 0
  | tue => 1
  | wed => 2
  | thu => 3
  | fri => 4
  | sat => 5
  | sun => 6

/-- The short English name. -/
def name : Weekday → String
  | mon => "Mon"
  | tue => "Tue"
  | wed => "Wed"
  | thu => "Thu"
  | fri => "Fri"
  | sat => "Sat"
  | sun => "Sun"

/-- The full English name. -/
def fullName : Weekday → String
  | mon => "Monday"
  | tue => "Tuesday"
  | wed => "Wednesday"
  | thu => "Thursday"
  | fri => "Friday"
  | sat => "Saturday"
  | sun => "Sunday"

/-- The day of the week of a number of days since a Monday. -/
def ofIndex (n : Int) : Weekday :=
  match (n % 7).toNat with
  | 0 => mon
  | 1 => tue
  | 2 => wed
  | 3 => thu
  | 4 => fri
  | 5 => sat
  | _ => sun

/-- The number of days that `day` comes after the last `start`. -/
def daysSince (day start : Weekday) : Nat := (day.index + 7 - start.index) % 7

end Weekday

/-- Whether a year has 366 days. -/
def isLeapYear (year : Int) : Bool :=
  year % 4 == 0 && (year % 100 != 0 || year % 400 == 0)

/-- The number of days of a month. -/
def daysInMonth (year : Int) (month : Nat) : Nat :=
  match month with
  | 2 => if isLeapYear year then 29 else 28
  | 4 | 6 | 9 | 11 => 30
  | _ => 31

/-- A day of the proleptic Gregorian calendar. -/
structure Date where
  /-- The year, year 0 being the one before year 1. -/
  year : Int
  /-- The month, from 1 to 12. -/
  month : Nat
  /-- The day of the month, from 1 on. -/
  day : Nat
  /-- Months are counted from one. -/
  month_pos : 1 ≤ month
  /-- A year has twelve months. -/
  month_le : month ≤ 12
  /-- Days are counted from one. -/
  day_pos : 1 ≤ day
  /-- The month has the day. -/
  day_le : day ≤ daysInMonth year month
  deriving DecidableEq, Repr

namespace Date

/-- The date of a year, a month and a day, if there is one. -/
def ofFields? (year : Int) (month day : Nat) : Option Date :=
  if h : 1 ≤ month ∧ month ≤ 12 ∧ 1 ≤ day ∧ day ≤ daysInMonth year month then
    some ⟨year, month, day, h.1, h.2.1, h.2.2.1, h.2.2.2⟩
  else none

/-- The number of days from 1970-01-01 to the first of January of a year. -/
def daysBeforeYear (year : Int) : Int :=
  365 * (year - 1970) + (year - 1) / 4 - (year - 1) / 100 + (year - 1) / 400 - 477

/-- The number of days of the first `months` months of a year. -/
def daysOfMonths (year : Int) : Nat → Nat
  | 0 => 0
  | months + 1 => daysOfMonths year months + daysInMonth year (months + 1)

/-- The number of days from 1970-01-01 to the date. -/
def dayNumber (d : Date) : Int :=
  daysBeforeYear d.year + (daysOfMonths d.year (d.month - 1) + (d.day - 1) : Nat)

/-- The year that holds the day of a number. -/
def yearOf (n : Int) : Int :=
  -- 400 years have 146097 days; counted by mean years, a day is at most one year away.
  let estimate := 1970 + 400 * n / 146097
  if n < daysBeforeYear estimate then estimate - 1
  else if daysBeforeYear (estimate + 1) ≤ n then estimate + 1
  else estimate

/-- The least month from `month` on that holds the day with `rest` days of those months before it,
and the day of that month, counted from 1. -/
def monthFrom (year : Int) : Nat → Nat → Nat → Nat × Nat
  | 0, month, rest => (month, rest + 1)
  | more + 1, month, rest =>
    if rest < daysInMonth year month then (month, rest + 1)
    else monthFrom year more (month + 1) (rest - daysInMonth year month)

/-- A month has between 28 and 31 days. -/
theorem daysInMonth_bounds (year : Int) (month : Nat) :
    28 ≤ daysInMonth year month ∧ daysInMonth year month ≤ 31 := by
  unfold daysInMonth
  split <;> (try split) <;> omega

/-- The year of a day starts no later than the day. -/
theorem yearOf_le (n : Int) : daysBeforeYear (yearOf n) ≤ n := by
  simp only [yearOf]
  split
  · simp only [daysBeforeYear] at *; omega
  · split
    · assumption
    · omega

/-- The year of a day ends after the day. -/
theorem lt_yearOf_succ (n : Int) : n < daysBeforeYear (yearOf n + 1) := by
  simp only [yearOf]
  split
  · simpa using ‹_›
  · split
    · simp only [daysBeforeYear] at *; omega
    · omega

/-- The months of a year take the days up to the next year. -/
theorem daysOfMonths_twelve (year : Int) :
    (daysOfMonths year 12 : Int) = daysBeforeYear (year + 1) - daysBeforeYear year := by
  simp only [daysOfMonths, daysInMonth, daysBeforeYear, isLeapYear, Bool.and_eq_true,
    Bool.or_eq_true, beq_iff_eq, bne_iff_ne, ne_eq]
  split <;> omega

/-- What the search for a month finds: a day of one of the months searched, as many days after the
start of the year as asked for. -/
theorem monthFrom_spec (year : Int) (more month rest : Nat) (hmonth : 1 ≤ month)
    (hmore : month + more = 12)
    (hrest : daysOfMonths year (month - 1) + rest < daysOfMonths year 12) :
    let found := monthFrom year more month rest
    1 ≤ found.1 ∧ found.1 ≤ 12 ∧ 1 ≤ found.2 ∧ found.2 ≤ daysInMonth year found.1 ∧
      daysOfMonths year (found.1 - 1) + (found.2 - 1) = daysOfMonths year (month - 1) + rest := by
  induction more generalizing month rest with
  -- the last month takes what is left
  | zero =>
    obtain rfl : month = 12 := by omega
    have : daysOfMonths year 12 = daysOfMonths year (12 - 1) + daysInMonth year 12 := rfl
    simp only [monthFrom]
    omega
  | succ more ih =>
    simp only [monthFrom]
    split
    · simp only; omega
    -- the days of this month are counted, and those left go to the months behind it
    · have hstep : daysOfMonths year (month + 1 - 1) =
          daysOfMonths year (month - 1) + daysInMonth year month := by
        obtain ⟨k, rfl⟩ : ∃ k, month = k + 1 := ⟨month - 1, by omega⟩
        simp [daysOfMonths]
      have := ih (month + 1) (rest - daysInMonth year month) (by omega) (by omega) (by omega)
      simp only at this
      omega

/-- The number of days of a number's year before its day. -/
def daysIntoYear (n : Int) : Nat := (n - daysBeforeYear (yearOf n)).toNat

/-- A day has fewer days before it in its year than the year has. -/
theorem daysIntoYear_lt (n : Int) : daysIntoYear n < daysOfMonths (yearOf n) 12 := by
  have h₁ := yearOf_le n
  have h₂ := lt_yearOf_succ n
  have h₃ := daysOfMonths_twelve (yearOf n)
  unfold daysIntoYear
  omega

/-- The month and the day of the month of the day of a number. -/
def monthAndDay (n : Int) : Nat × Nat := monthFrom (yearOf n) 11 1 (daysIntoYear n)

/-- The month and the day of a day number are those of a date, and the days before them in the year
are those before the day. -/
theorem monthAndDay_spec (n : Int) :
    1 ≤ (monthAndDay n).1 ∧ (monthAndDay n).1 ≤ 12 ∧ 1 ≤ (monthAndDay n).2 ∧
      (monthAndDay n).2 ≤ daysInMonth (yearOf n) (monthAndDay n).1 ∧
      daysOfMonths (yearOf n) ((monthAndDay n).1 - 1) + ((monthAndDay n).2 - 1) =
        daysIntoYear n := by
  have := monthFrom_spec (yearOf n) 11 1 (daysIntoYear n) (by omega) (by omega)
    (by simpa [daysOfMonths] using daysIntoYear_lt n)
  simpa [daysOfMonths, monthAndDay] using this

/-- The date of a number of days counted from 1970-01-01. -/
def ofDayNumber (n : Int) : Date where
  year := yearOf n
  month := (monthAndDay n).1
  day := (monthAndDay n).2
  month_pos := (monthAndDay_spec n).1
  month_le := (monthAndDay_spec n).2.1
  day_pos := (monthAndDay_spec n).2.2.1
  day_le := (monthAndDay_spec n).2.2.2.1

/-- Every day number is the day number of its date. -/
@[simp]
theorem dayNumber_ofDayNumber (n : Int) : (ofDayNumber n).dayNumber = n := by
  have h₁ := (monthAndDay_spec n).2.2.2.2
  have h₂ := yearOf_le n
  simp only [dayNumber, ofDayNumber, h₁, daysIntoYear]
  omega

/-- More months of a year have no fewer days. -/
theorem daysOfMonths_mono (year : Int) {a b : Nat} (h : a ≤ b) :
    daysOfMonths year a ≤ daysOfMonths year b := by
  induction h with
  | refl => exact Nat.le_refl _
  | step _ ih => exact Nat.le_trans ih (Nat.le_add_right _ _)

/-- The months up to the one of a date take the days before that month and those of the month. -/
theorem daysOfMonths_month (d : Date) :
    daysOfMonths d.year d.month =
      daysOfMonths d.year (d.month - 1) + daysInMonth d.year d.month := by
  obtain ⟨k, hk⟩ : ∃ k, d.month = k + 1 := ⟨d.month - 1, by have := d.month_pos; omega⟩
  simp [hk, daysOfMonths]

/-- The day of a date lies within its year. -/
theorem dayNumber_bounds (d : Date) :
    daysBeforeYear d.year ≤ d.dayNumber ∧ d.dayNumber < daysBeforeYear (d.year + 1) := by
  have h₁ := daysOfMonths_month d
  have h₂ := daysOfMonths_mono d.year d.month_le
  have h₃ := daysOfMonths_twelve d.year
  have := d.day_pos
  have := d.day_le
  simp only [dayNumber]
  omega

/-- Before a later year there are no fewer days. -/
theorem daysBeforeYear_mono {a b : Int} (h : a ≤ b) : daysBeforeYear a ≤ daysBeforeYear b := by
  simp only [daysBeforeYear]
  omega

/-- The order of day numbers is the order of dates by year, month and day. -/
theorem dayNumber_lt_iff (a b : Date) :
    a.dayNumber < b.dayNumber ↔
      a.year < b.year ∨ a.year = b.year ∧
        (a.month < b.month ∨ a.month = b.month ∧ a.day < b.day) := by
  have ha := dayNumber_bounds a
  have hb := dayNumber_bounds b
  -- every day of an earlier year comes before those of a later one
  rcases Int.lt_trichotomy a.year b.year with h | h | h
  · have := daysBeforeYear_mono (show a.year + 1 ≤ b.year by omega)
    simp only [h, true_or, iff_true]
    omega
  · have h₁ := daysOfMonths_month a
    have h₂ := daysOfMonths_month b
    have := a.day_pos; have := a.day_le; have := a.month_pos
    have := b.day_pos; have := b.day_le; have := b.month_pos
    simp only [h, Int.lt_irrefl, false_or, true_and, dayNumber] at *
    -- in one year, the same of the months
    rcases Nat.lt_trichotomy a.month b.month with hm | hm | hm
    · have := daysOfMonths_mono b.year (show a.month ≤ b.month - 1 by omega)
      simp only [hm, true_or, iff_true]
      omega
    · simp only [hm, Nat.lt_irrefl, false_or, true_and] at *
      omega
    · have := daysOfMonths_mono b.year (show b.month ≤ a.month - 1 by omega)
      simp only [Nat.not_lt.2 (Nat.le_of_lt hm), Nat.ne_of_gt hm, false_or, false_and, iff_false]
      omega
  · have := daysBeforeYear_mono (show b.year + 1 ≤ a.year by omega)
    have hlt : ¬ a.year < b.year := by omega
    have hne : a.year ≠ b.year := by omega
    simp only [hlt, hne, false_or, false_and, iff_false]
    omega

/-- Only one date has a day number. -/
theorem dayNumber_inj {a b : Date} (h : a.dayNumber = b.dayNumber) : a = b := by
  have h₁ := mt (dayNumber_lt_iff a b).2 (by omega)
  have h₂ := mt (dayNumber_lt_iff b a).2 (by omega)
  obtain ⟨_, _, _, _, _, _, _⟩ := a
  obtain ⟨_, _, _, _, _, _, _⟩ := b
  simp only [mk.injEq] at *
  omega

/-- The fields of a date give it back. -/
@[simp]
theorem ofFields?_fields (d : Date) : ofFields? d.year d.month d.day = some d := by
  simp [ofFields?, d.month_pos, d.month_le, d.day_pos, d.day_le]

/-- The date a number of days later, or earlier if the number is negative. -/
def addDays (d : Date) (n : Int) : Date := ofDayNumber (d.dayNumber + n)

/-- The day of the week. -/
def weekday (d : Date) : Weekday := Weekday.ofIndex (d.dayNumber + 3)

/-- The first day of the month. -/
def firstOfMonth (d : Date) : Date where
  year := d.year
  month := d.month
  day := 1
  month_pos := d.month_pos
  month_le := d.month_le
  day_pos := Nat.le_refl 1
  day_le := Nat.le_trans (by decide) (daysInMonth_bounds d.year d.month).1

/-- The first day of the year. -/
def firstOfYear (d : Date) : Date where
  year := d.year
  month := 1
  day := 1
  month_pos := Nat.le_refl 1
  month_le := by decide
  day_pos := Nat.le_refl 1
  day_le := Nat.le_trans (by decide) (daysInMonth_bounds d.year 1).1

/-- The date some months earlier, its day reduced to the length of that month if need be. -/
def monthsBefore (d : Date) (months : Nat) : Date :=
  let place : Int := d.year * 12 + (d.month - 1 : Nat) - months
  let year := place / 12
  let month := (place % 12).toNat + 1
  { year
    month
    day := min d.day (daysInMonth year month)
    month_pos := by omega
    month_le := by omega
    day_pos := Nat.le_min.2 ⟨d.day_pos, Nat.le_trans (by decide) (daysInMonth_bounds _ _).1⟩
    day_le := Nat.min_le_right _ _ }

/-- The first year that has dates in records. -/
def firstYear : Int := -262143

/-- The last year that has dates in records. -/
def lastYear : Int := 262142

/-- Whether the date lies in a year that has dates in records. -/
def inRange (d : Date) : Bool := firstYear ≤ d.year && d.year ≤ lastYear

end Date

end Curation
