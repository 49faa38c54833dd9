import Curation.Time.Window

/-!
# Local calendar days

Local dates follow each other as instants do: an instant is at or after the midnight at which a date
starts exactly if its own local date is not an earlier one. A local calendar day, which ends at the
next midnight, holds therefore the instants of its date and no others, wherever records can hold
both midnights. That is so for every instant that keeps two days away from the ends of time.

* the order of dates, by year, month and day, is that of their day numbers (`Date.lt_iff`).
* `Calendar.midnight_le_iff`: an instant is compared with a midnight by its local date.
* `Calendar.HoldsDay`, `Window.contains_ofDate`: the instants of a local calendar day.
* `Calendar.holdsDay_localDate`: away from the ends of time, local days have both midnights.
-/

namespace Curation

namespace Date

/-- Dates are ordered by year, then by month, then by day. -/
instance : LT Date :=
  ⟨fun a b => a.year < b.year ∨ a.year = b.year ∧
    (a.month < b.month ∨ a.month = b.month ∧ a.day < b.day)⟩

/-- A date is at most another one if it does not come after it. -/
instance : LE Date := ⟨fun a b => ¬ b < a⟩

variable {a b d : Date}

instance (a b : Date) : Decidable (a < b) := decidable_of_iff' _ (dayNumber_lt_iff a b).symm

instance (a b : Date) : Decidable (a ≤ b) := inferInstanceAs (Decidable (¬ b < a))

/-- Dates are ordered by their day numbers. -/
theorem lt_iff : a < b ↔ a.dayNumber < b.dayNumber := (dayNumber_lt_iff a b).symm

theorem le_iff : a ≤ b ↔ a.dayNumber ≤ b.dayNumber := (not_congr lt_iff).trans Int.not_lt

/-- The order of dates is total. -/
theorem not_le : ¬ a ≤ b ↔ b < a := Decidable.not_not

/-- Dates are the same if their day numbers are. -/
theorem eq_iff : a = b ↔ a.dayNumber = b.dayNumber := ⟨congrArg dayNumber, dayNumber_inj⟩

/-- Adding days to a date adds them to its day number. -/
@[simp]
theorem dayNumber_addDays (d : Date) (n : Int) : (d.addDays n).dayNumber = d.dayNumber + n :=
  dayNumber_ofDayNumber _

/-- The day number of the first date that records can hold. -/
def firstDayNumber : Int := daysBeforeYear firstYear

/-- The day number after that of the last date that records can hold. -/
def endDayNumber : Int := daysBeforeYear (lastYear + 1)

/-- Which dates records can hold is told by their day numbers. -/
theorem inRange_iff :
    d.inRange = true ↔ firstDayNumber ≤ d.dayNumber ∧ d.dayNumber < endDayNumber := by
  have hbounds := d.dayNumber_bounds
  unfold inRange firstDayNumber endDayNumber
  rw [Bool.and_eq_true, decide_eq_true_eq, decide_eq_true_eq]
  constructor
  · rintro ⟨hfirst, hlast⟩
    have := daysBeforeYear_mono hfirst
    have := daysBeforeYear_mono (show d.year + 1 ≤ lastYear + 1 by omega)
    omega
  · rintro ⟨hfirst, hlast⟩
    -- a year out of range would put the day before the first or after the last one
    constructor
    · apply Int.not_lt.mp
      intro hlt
      have := daysBeforeYear_mono (show d.year + 1 ≤ firstYear by omega)
      omega
    · apply Int.not_lt.mp
      intro hlt
      have := daysBeforeYear_mono (show lastYear + 1 ≤ d.year by omega)
      omega

end Date

namespace Instant

variable {days : Int} {t : Instant}

/-- The instant is a number of days or more away from both ends of the time that records can
hold. -/
def IsInside (days : Int) (t : Instant) : Prop :=
  earliest.second + days * daySeconds ≤ t.second ∧ t.second + days * daySeconds ≤ latest.second

instance (days : Int) (t : Instant) : Decidable (t.IsInside days) :=
  inferInstanceAs (Decidable (_ ∧ _))

/-- Records hold the instants from the start of the first day to before the end of the last one. -/
theorem inRange_iff {t : Instant} :
    t.inRange = true ↔ Date.firstDayNumber * 86400 ≤ t.second ∧
      t.second < Date.endDayNumber * 86400 := by
  have hlatest : latest.second = Date.endDayNumber * 86400 - 1 := rfl
  rw [inRange, Bool.and_eq_true, decide_eq_true_eq, decide_eq_true_eq, hlatest]
  exact and_congr Iff.rfl (by omega)

/-- Instants are inside by some days if as many days are left on both sides. -/
theorem isInside_iff :
    t.IsInside days ↔ (Date.firstDayNumber + days) * 86400 ≤ t.second ∧
      t.second < (Date.endDayNumber - days) * 86400 := by
  have hearliest : earliest.second = Date.firstDayNumber * 86400 := rfl
  have hlatest : latest.second = Date.endDayNumber * 86400 - 1 := rfl
  rw [IsInside, hearliest, hlatest, daySeconds, Int.add_mul, Int.sub_mul]
  omega

end Instant

namespace Calendar

variable {calendar : Calendar} {d : Date} {start t : Instant}

/-- The local day number counts the days in the local seconds. -/
theorem dayNumber_localDate (calendar : Calendar) (t : Instant) :
    (calendar.localDate t).dayNumber = (t.second + calendar.offsetSeconds) / 86400 :=
  Date.dayNumber_ofDayNumber _

/-- Offsets are minutes of less than a day. -/
theorem offsetSeconds_bounds (calendar : Calendar) :
    -86340 ≤ calendar.offsetSeconds ∧ calendar.offsetSeconds ≤ 86340 := by
  have := calendar.offset_lt
  unfold offsetSeconds
  omega

/-- A local midnight is the start of the day in universal time, less the offset, if records hold it.
-/
theorem midnight?_eq_some_iff :
    calendar.midnight? d = some start ↔
      d.inRange = true ∧ start.inRange = true ∧
        start = ⟨d.dayNumber * 86400 - calendar.offsetSeconds, 0⟩ := by
  unfold midnight? instantAt? Instant.checked? Instant.daySeconds
  rw [Int.add_zero]
  constructor
  · intro h
    split at h
    · split at h
      · cases h
        exact ⟨‹_›, ‹_›, rfl⟩
      · cases h
    · cases h
  · rintro ⟨hdate, hstart, rfl⟩
    rw [if_pos hdate, if_pos hstart]

/-- An instant is not before a midnight exactly if its local date is not before the date that starts
then. -/
theorem midnight_le_iff (h : calendar.midnight? d = some start) :
    start ≤ t ↔ d ≤ calendar.localDate t := by
  obtain ⟨-, -, rfl⟩ := midnight?_eq_some_iff.mp h
  rw [Date.le_iff, dayNumber_localDate]
  simp only [Instant.le_def]
  omega

/-- An instant is before a midnight exactly if its local date is. -/
theorem lt_midnight_iff (h : calendar.midnight? d = some start) :
    t < start ↔ calendar.localDate t < d := by
  rw [← Instant.not_le, midnight_le_iff h, Date.not_le]

/-- A date after the first one that records can hold starts at an instant that they can hold. -/
theorem exists_midnight? (calendar : Calendar) (hfirst : Date.firstDayNumber < d.dayNumber)
    (hlast : d.dayNumber < Date.endDayNumber) : ∃ start, calendar.midnight? d = some start := by
  have := calendar.offsetSeconds_bounds
  refine ⟨_, midnight?_eq_some_iff.mpr ⟨Date.inRange_iff.mpr (by omega), ?_, rfl⟩⟩
  simp only [Instant.inRange_iff]
  omega

/-- Records can hold the midnight at which a local date starts and the one at which it ends. -/
def HoldsDay (calendar : Calendar) (d : Date) : Prop :=
  (calendar.midnight? d).isSome ∧ (calendar.midnight? (d.addDays 1)).isSome

instance (calendar : Calendar) (d : Date) : Decidable (calendar.HoldsDay d) :=
  inferInstanceAs (Decidable (_ ∧ _))

/-- The local day of an instant away from the ends of time has both midnights. -/
theorem holdsDay_localDate (calendar : Calendar) (h : t.IsInside 2) :
    calendar.HoldsDay (calendar.localDate t) := by
  have := calendar.offsetSeconds_bounds
  have hnumber := calendar.dayNumber_localDate t
  rw [Instant.isInside_iff] at h
  -- two days from either end, both midnights can be represented
  constructor
  · rw [Option.isSome_iff_exists]
    exact calendar.exists_midnight? (by omega) (by omega)
  · rw [Option.isSome_iff_exists]
    exact calendar.exists_midnight? (by rw [Date.dayNumber_addDays]; omega)
      (by rw [Date.dayNumber_addDays]; omega)

end Calendar

namespace Window

variable {calendar : Calendar} {d : Date} {t : Instant}

/-- A window up to a later instant ends there. -/
theorem upTo_of_le {start stop : Instant} (h : start ≤ stop) :
    upTo start stop = ⟨start, stop, h⟩ := by
  have hmin : min start stop = start := if_pos h
  simp only [upTo, hmin]

/-- A local calendar day lasts from its midnight to the next. -/
theorem midnights_ofDate (h : calendar.HoldsDay d) :
    calendar.midnight? d = some (ofDate calendar d).start ∧
      calendar.midnight? (d.addDays 1) = some (ofDate calendar d).stop := by
  obtain ⟨start, hstart⟩ := Option.isSome_iff_exists.mp h.1
  obtain ⟨stop, hstop⟩ := Option.isSome_iff_exists.mp h.2
  -- the window is not empty, so its end is not moved
  have hle : start ≤ stop := by
    obtain ⟨-, -, rfl⟩ := Calendar.midnight?_eq_some_iff.mp hstop
    rw [Calendar.midnight_le_iff hstart, Date.le_iff, Calendar.dayNumber_localDate]
    simp only [Date.dayNumber_addDays]
    omega
  rw [ofDate, hstart, hstop]
  simp only [Option.getD_some, upTo_of_le hle, and_self]

/-- An instant is not before a local day exactly if its local date is not before that of the day. -/
theorem start_ofDate_le_iff (h : calendar.HoldsDay d) :
    (ofDate calendar d).start ≤ t ↔ d ≤ calendar.localDate t :=
  Calendar.midnight_le_iff (midnights_ofDate h).1

/-- An instant is before the end of a local day exactly if its local date is not after that of the
day. -/
theorem lt_stop_ofDate_iff (h : calendar.HoldsDay d) :
    t < (ofDate calendar d).stop ↔ calendar.localDate t ≤ d := by
  rw [Calendar.lt_midnight_iff (midnights_ofDate h).2, Date.lt_iff, Date.le_iff,
    Date.dayNumber_addDays]
  omega

/-- A local calendar day holds the instants of its date. -/
theorem contains_ofDate (h : calendar.HoldsDay d) :
    (ofDate calendar d).contains t = true ↔ calendar.localDate t = d := by
  rw [contains_iff, start_ofDate_le_iff h, lt_stop_ofDate_iff h, Date.le_iff, Date.le_iff,
    Date.eq_iff]
  omega

end Window

end Curation
