import Curation.Proofs.Time.LocalDay
import Curation.Time.Period

/-!
# Calendar periods so far

The current local day, week, month and year begin with a local date each, and what the period names
is the time from the midnight of that date up to now. So an instant lies in it exactly if it is
before now and its local date is not before that date, whatever the offset of the calendar, the
first day of its weeks, and the place of now within the day, the week, the month and the year.

* `Period.BeginsOn`: the date with which a period begins, told without counting days.
* `Period.beginsOn_iff`: there is one such date, and it is the one that the calendar computes.
* `Period.resolve_soFar`: the window of a calendar period.
-/

namespace Curation

namespace Weekday

/-- The days of the week are numbered from 0 to 6. -/
theorem index_lt (day : Weekday) : day.index < 7 := by cases day <;> decide

/-- The day of the week of a number of days since a Monday is as many days, full weeks left out,
after one. -/
theorem index_ofIndex (n : Int) : (ofIndex n).index = (n % 7).toNat := by
  have hlt : (n % 7).toNat < 7 := by omega
  unfold ofIndex
  generalize (n % 7).toNat = k at hlt
  match k, hlt with
  | 0, _ | 1, _ | 2, _ | 3, _ | 4, _ | 5, _ | 6, _ => rfl

/-- A day of the week is given by its number. -/
theorem ofIndex_index (day : Weekday) : ofIndex day.index = day := by cases day <;> rfl

/-- Different days of the week have different numbers. -/
theorem index_inj {a b : Weekday} (h : a.index = b.index) : a = b := by
  rw [← ofIndex_index a, h, ofIndex_index]

end Weekday

namespace Date

variable {d today first : Date}

/-- Days of the week follow each other as days do; 1970-01-01 was a Thursday. -/
theorem index_weekday (d : Date) : d.weekday.index = ((d.dayNumber + 3) % 7).toNat :=
  Weekday.index_ofIndex _

/-- Among the dates up to `today`, `first` is the latest one on a day of the week. -/
structure IsLatest (weekday : Weekday) (today first : Date) : Prop where
  /-- The date is not after `today`. -/
  le_today : first ≤ today
  /-- It falls on the day of the week. -/
  weekday_eq : first.weekday = weekday
  /-- No other such date is later. -/
  le_of_weekday : ∀ d ≤ today, d.weekday = weekday → d ≤ first

/-- There is only one latest date on a day of the week. -/
theorem IsLatest.unique {weekday : Weekday} {other : Date} (h : IsLatest weekday today first)
    (h' : IsLatest weekday today other) : first = other := by
  have hle := h.le_of_weekday other h'.le_today h'.weekday_eq
  have hge := h'.le_of_weekday first h.le_today h.weekday_eq
  rw [le_iff] at hle hge
  exact eq_iff.mpr (Int.le_antisymm hge hle)

/-- The first day of the month is as many days back as the date has before it in the month. -/
theorem dayNumber_firstOfMonth (d : Date) :
    d.firstOfMonth.dayNumber = d.dayNumber - (d.day - 1 : Nat) := by
  simp only [dayNumber, firstOfMonth]
  omega

/-- The days before the first day of a year are those before the year. -/
theorem dayNumber_firstOfYear (d : Date) : d.firstOfYear.dayNumber = daysBeforeYear d.year := by
  simp only [dayNumber, firstOfYear, Nat.sub_self, daysOfMonths]
  exact Int.add_zero _

end Date

namespace Calendar

/-- The first day of the week is as many days back as the week has days before the date. -/
theorem dayNumber_firstOfWeek (calendar : Calendar) (d : Date) :
    (calendar.firstOfWeek d).dayNumber =
      d.dayNumber - (d.weekday.daysSince calendar.weekStart : Int) :=
  Date.dayNumber_addDays _ _

/-- The first day of the local week of a date is the latest date up to it on which weeks start. -/
theorem isLatest_firstOfWeek (calendar : Calendar) (today : Date) :
    Date.IsLatest calendar.weekStart today (calendar.firstOfWeek today) := by
  have hstart := calendar.weekStart.index_lt
  have htoday := today.index_weekday
  have hnumber := calendar.dayNumber_firstOfWeek today
  rw [Weekday.daysSince, htoday] at hnumber
  constructor
  · rw [Date.le_iff]
    omega
  · apply Weekday.index_inj
    rw [Date.index_weekday]
    omega
  · intro d hd hweekday
    -- dates on one day of the week are full weeks apart, and the next one is after today
    have hindex := d.index_weekday
    rw [hweekday] at hindex
    rw [Date.le_iff] at hd ⊢
    omega

end Calendar

namespace Period

variable {period : Period} {calendar : Calendar} {today first : Date} {now : Instant}

/-- The periods that last from the beginning of a local day, week, month or year up to now. -/
def soFar : List Period := [.today, .thisWeek, .thisMonth, .thisYear]

/-- The period begins with the date `first` if `today` is the local date of now. -/
def BeginsOn (period : Period) (weekStart : Weekday) (today first : Date) : Prop :=
  match period with
  | .today => first = today
  | .thisWeek => Date.IsLatest weekStart today first
  | .thisMonth => first.year = today.year ∧ first.month = today.month ∧ first.day = 1
  | .thisYear => first.year = today.year ∧ first.month = 1 ∧ first.day = 1
  | _ => False

/-- The date with which the period begins, if it begins with a date. -/
def first? (period : Period) (calendar : Calendar) (today : Date) : Option Date :=
  match period with
  | .today => some today
  | .thisWeek => some (calendar.firstOfWeek today)
  | .thisMonth => some today.firstOfMonth
  | .thisYear => some today.firstOfYear
  | _ => none

/-- A period begins with one date at most, and with the one that the calendar computes. -/
theorem beginsOn_iff :
    period.BeginsOn calendar.weekStart today first ↔ period.first? calendar today = some first := by
  unfold BeginsOn first?
  split
  · rw [Option.some_inj, eq_comm]
  -- the latest day on which a week begins is the only one
  · have hlatest := calendar.isLatest_firstOfWeek today
    rw [Option.some_inj]
    constructor
    · exact hlatest.unique
    · rintro rfl
      exact hlatest
  · obtain ⟨year, month, day, _, _, _, _⟩ := first
    simp [Date.firstOfMonth, eq_comm]
  · obtain ⟨year, month, day, _, _, _, _⟩ := first
    simp [Date.firstOfYear, eq_comm]
  · simp

/-- Each of the periods so far has a first day. -/
theorem exists_first? (hperiod : period ∈ soFar) (calendar : Calendar) (today : Date) :
    ∃ first, period.first? calendar today = some first := by
  simp only [soFar, List.mem_cons, List.not_mem_nil, or_false] at hperiod
  rcases hperiod with rfl | rfl | rfl | rfl
  all_goals exact ⟨_, rfl⟩

/-- A period that begins with a date starts at its midnight. -/
theorem start?_of_first? (h : period.first? calendar (calendar.localDate now) = some first) :
    period.start? now calendar = calendar.midnight? first := by
  unfold first? at h
  split at h
  all_goals cases h
  all_goals rfl

/-- A period does not begin after today. -/
theorem le_of_first? (h : period.first? calendar today = some first) : first ≤ today := by
  rw [Date.le_iff]
  unfold first? at h
  split at h
  -- no trailing period has a first date
  all_goals cases h
  · exact Int.le_refl _
  · rw [calendar.dayNumber_firstOfWeek]
    omega
  · rw [today.dayNumber_firstOfMonth]
    omega
  · rw [today.dayNumber_firstOfYear]
    exact today.dayNumber_bounds.1

/-- After the first year that records can hold, no period begins with its first day. -/
theorem firstDayNumber_lt_of_first? (h : period.first? calendar today = some first)
    (htoday : Date.firstDayNumber + 365 ≤ today.dayNumber) :
    Date.firstDayNumber < first.dayNumber := by
  have hyear : Date.daysBeforeYear (Date.firstYear + 1) = Date.firstDayNumber + 365 := by decide
  unfold first? at h
  split at h
  all_goals cases h
  · omega
  · rw [calendar.dayNumber_firstOfWeek, Weekday.daysSince]
    omega
  · have := today.day_le
    have := (Date.daysInMonth_bounds today.year today.month).2
    rw [today.dayNumber_firstOfMonth]
    omega
  · -- today is not in the first year, so the year of today begins after it
    have hlater : Date.firstYear + 1 ≤ today.year := by
      apply Int.not_lt.mp
      intro hlt
      have := Date.daysBeforeYear_mono (show today.year + 1 ≤ Date.firstYear + 1 by omega)
      have := today.dayNumber_bounds.2
      omega
    have := Date.daysBeforeYear_mono hlater
    rw [today.dayNumber_firstOfYear]
    omega

/-- The window of a calendar period lasts from the midnight of the date with which the period begins
up to now, and holds the instants before now from that date on. -/
theorem resolve_soFar (hperiod : period ∈ soFar) (hnow : now.IsInside 366) (calendar : Calendar) :
    let today := calendar.localDate now
    let window := period.resolve now calendar
    ∃ first, period.BeginsOn calendar.weekStart today first ∧
      (∀ other, period.BeginsOn calendar.weekStart today other → other = first) ∧
      window.stop = now ∧ window.start ≤ now ∧ calendar.midnight? first = some window.start ∧
      ∀ t, window.contains t = true ↔ t < now ∧ first ≤ calendar.localDate t := by
  intro today window
  obtain ⟨first, hfirst⟩ := exists_first? hperiod calendar today
  have hunique : ∀ other, period.BeginsOn calendar.weekStart today other → other = first := by
    intro other hother
    rw [beginsOn_iff, hfirst] at hother
    exact (Option.some_inj.mp hother).symm
  have hle : first ≤ today := le_of_first? hfirst
  -- away from the ends of time the first date has a midnight
  obtain ⟨start, hmidnight⟩ : ∃ start, calendar.midnight? first = some start := by
    have hoffset := calendar.offsetSeconds_bounds
    have htoday : today.dayNumber = _ := calendar.dayNumber_localDate now
    rw [Instant.isInside_iff] at hnow
    rw [Date.le_iff] at hle
    exact calendar.exists_midnight? (firstDayNumber_lt_of_first? hfirst (by omega)) (by omega)
  have hstart : start ≤ now := (Calendar.midnight_le_iff hmidnight).mpr hle
  have hwindow : window = ⟨start, now, hstart⟩ := by
    show Window.upTo _ now = _
    rw [start?_of_first? hfirst, hmidnight, Option.getD_some, Window.upTo_of_le hstart]
  rw [hwindow]
  refine ⟨first, beginsOn_iff.mpr hfirst, hunique, rfl, hstart, hmidnight, fun t => ?_⟩
  rw [Window.contains_iff, Calendar.midnight_le_iff hmidnight]
  exact and_comm

/-- On a Wednesday, west of universal time, a week that starts on Saturdays is five local dates
old. -/
theorem resolve_soFar_saturday :
    let calendar : Calendar := { weekStart := .sat, offsetMinutes := -330 }
    let now : Instant := ⟨1736942400, 0⟩
    let first : Date := ⟨2025, 1, 11, by decide, by decide, by decide, by decide⟩
    .thisWeek ∈ soFar ∧ now.IsInside 366 ∧
      ∀ t, (thisWeek.resolve now calendar).contains t = true ↔
        t < now ∧ first ≤ calendar.localDate t := by
  intro calendar now first
  have hperiod : .thisWeek ∈ soFar := by decide
  have hnow : now.IsInside 366 := by decide
  obtain ⟨_, hbegins, -, -, -, -, hcontains⟩ := resolve_soFar hperiod hnow calendar
  have hfirst : thisWeek.first? calendar (calendar.localDate now) = some first := by decide
  rw [beginsOn_iff, hfirst, Option.some_inj] at hbegins
  exact ⟨hperiod, hnow, hbegins ▸ hcontains⟩

end Period

end Curation
