import Curation.Proofs.Time.LocalDay
import Curation.Time.Period

/-!
# Trailing periods

The last hours, days, weeks or months end now. They begin exactly so many units earlier, a month
earlier being the same local time on a day of the month before, or with the earliest instant that
records can hold if they cannot hold that one. More units never begin later: for months this needs
that reducing a day to the length of its month keeps the order of dates, and for all units that an
instant can be held if a later start of more units can.

* `Date.IsMonthsBefore`, `Calendar.IsMonthsBefore`: some months earlier, by year, month and day.
* `TrailingUnit.beginning`: where a period would begin if time had no ends.
* `TrailingUnit.start_resolve`: where it begins.
* `TrailingUnit.start_resolve_le`: more units do not begin later.
* `Period.resolve_trailing`: the windows of trailing periods.
-/

namespace Curation

namespace Date

variable {d earlier other : Date} {m n : Nat}

/-- The date `earlier` lies `months` months before `d`, on the same day of the month or, where the
month is too short, on its last day. -/
structure IsMonthsBefore (months : Nat) (d earlier : Date) : Prop where
  /-- There are so many months from the one to the other. -/
  months_eq : earlier.year * 12 + earlier.month + months = d.year * 12 + d.month
  /-- The day is reduced to the length of the month. -/
  day_eq : earlier.day = min d.day (daysInMonth earlier.year earlier.month)

/-- The date that is computed lies so many months before. -/
theorem isMonthsBefore_monthsBefore (d : Date) (months : Nat) :
    IsMonthsBefore months d (d.monthsBefore months) := by
  have := d.month_pos
  refine ⟨?_, rfl⟩
  simp only [monthsBefore]
  omega

theorem isMonthsBefore_zero (d : Date) : IsMonthsBefore 0 d d :=
  ⟨Int.add_zero _, (Nat.min_eq_left d.day_le).symm⟩

/-- More months before a date is not later. -/
theorem IsMonthsBefore.le (h : IsMonthsBefore n d earlier) (h' : IsMonthsBefore m d other)
    (hle : m ≤ n) : earlier ≤ other := by
  have hmonths := h.months_eq
  have hmonths' := h'.months_eq
  have := earlier.month_pos
  have := earlier.month_le
  have := other.month_pos
  have := other.month_le
  show ¬ other < earlier
  rintro (hyear | ⟨hyear, hmonth | ⟨hmonth, hday⟩⟩)
  · omega
  · omega
  · -- in one month both days are reduced alike
    rw [h.day_eq, h'.day_eq, hyear, hmonth] at hday
    exact Nat.lt_irrefl _ hday

/-- There is only one date some months before another one. -/
theorem IsMonthsBefore.unique (h : IsMonthsBefore n d earlier) (h' : IsMonthsBefore n d other) :
    earlier = other := by
  have hle := h.le h' (Nat.le_refl n)
  have hge := h'.le h (Nat.le_refl n)
  rw [le_iff] at hle hge
  exact eq_iff.mpr (Int.le_antisymm hle hge)

end Date

namespace Calendar

variable {calendar : Calendar} {now start other : Instant} {months : Nat}

/-- The instant `start` has the local time of day of `now`, on the local date some months
earlier. -/
structure IsMonthsBefore (calendar : Calendar) (months : Nat) (now start : Instant) : Prop where
  /-- The local date is so many months earlier. -/
  date : Date.IsMonthsBefore months (calendar.localDate now) (calendar.localDate start)
  /-- The local time of day is the same to the second. -/
  second : calendar.localSecond start % Instant.daySeconds =
    calendar.localSecond now % Instant.daySeconds
  /-- It is the same to the nanosecond. -/
  nano : start.nano = now.nano

/-- An instant is told by its local date and its local time of day. -/
theorem second_eq (calendar : Calendar) (t : Instant) :
    t.second = (calendar.localDate t).dayNumber * 86400 + calendar.localSecond t % 86400 -
      calendar.offsetSeconds := by
  rw [dayNumber_localDate]
  unfold localSecond
  omega

/-- There is only one instant some months before another one. -/
theorem IsMonthsBefore.unique (h : calendar.IsMonthsBefore months now start)
    (h' : calendar.IsMonthsBefore months now other) : start = other := by
  rw [Instant.ext_iff, h.nano, h'.nano]
  refine ⟨?_, rfl⟩
  rw [calendar.second_eq start, calendar.second_eq other, h.date.unique h'.date]
  have hsecond := h.second.trans h'.second.symm
  unfold Instant.daySeconds at hsecond
  rw [hsecond]

end Calendar

namespace Instant

variable {t : Instant}

/-- No instant that records hold is before the earliest. -/
theorem le_of_inRange (h : t.inRange = true) : earliest ≤ t := by
  have hearliest : earliest.second = Date.firstDayNumber * 86400 := rfl
  have hnano : earliest.nano = 0 := rfl
  rw [inRange_iff] at h
  rw [le_def, hearliest, hnano]
  omega

/-- Outside leap seconds, an instant some seconds earlier has that many seconds less. -/
theorem back?_eq (hleap : t.isLeap = false) (ht : t.inRange = true) (seconds : Nat) :
    t.back? seconds = checked? ⟨t.second - seconds, t.nano⟩ := by
  unfold back?
  split
  -- going back by nothing leaves an instant in range as it is
  · next hzero =>
    subst hzero
    rw [checked?, if_pos]
    · simp
    · simpa [inRange] using ht
  · rw [hleap]
    rfl

end Instant

/-- The units in which trailing periods are counted. -/
inductive TrailingUnit where
  | hours
  | days
  | weeks
  | months

namespace TrailingUnit

/-- The period of a number of units. -/
def period : TrailingUnit → UInt32 → Period
  | hours => .lastHours
  | days => .lastDays
  | weeks => .lastWeeks
  | months => .lastMonths

/-- The seconds of a unit that has a length of its own. -/
def seconds? : TrailingUnit → Option Nat
  | hours => some 3600
  | days => some 86400
  | weeks => some 604800
  | months => none

/-- The instant so many units before now, whether or not records can hold it. -/
def beginning (unit : TrailingUnit) (calendar : Calendar) (now : Instant) (count : Nat) : Instant :=
  match unit with
  | hours => ⟨now.second - (count * 3600 : Nat), now.nano⟩
  | days => ⟨now.second - (count * 86400 : Nat), now.nano⟩
  | weeks => ⟨now.second - (count * 7 * 86400 : Nat), now.nano⟩
  | months =>
    let date := (calendar.localDate now).monthsBefore count
    ⟨date.dayNumber * Instant.daySeconds + calendar.localSecond now % Instant.daySeconds -
      calendar.offsetSeconds, now.nano⟩

/-- Records can hold the instant, and its local date as well if the unit is counted by dates. -/
def Holds (unit : TrailingUnit) (calendar : Calendar) (t : Instant) : Prop :=
  t.inRange = true ∧
    match unit with
    | months => (calendar.localDate t).inRange = true
    | _ => True

instance (unit : TrailingUnit) (calendar : Calendar) (t : Instant) :
    Decidable (unit.Holds calendar t) := by
  unfold Holds
  split <;> infer_instance

variable {unit : TrailingUnit} {calendar : Calendar} {now : Instant} {m n : Nat}

/-- The beginning in units of a length of their own is told by seconds. -/
theorem beginning_of_seconds? {seconds : Nat} (h : unit.seconds? = some seconds)
    (calendar : Calendar) (now : Instant) (count : Nat) :
    unit.beginning calendar now count = ⟨now.second - count * seconds, now.nano⟩ := by
  cases unit with
  | hours | days | weeks =>
    cases h
    simp only [beginning, Instant.ext_iff, and_true]
    omega
  | months => cases h

/-- Instants in units of a fixed length hold if records hold them. -/
theorem holds_of_seconds? {seconds : Nat} (h : unit.seconds? = some seconds) {t : Instant} :
    unit.Holds calendar t ↔ t.inRange = true := by
  cases unit with
  | hours | days | weeks => exact iff_of_eq (and_true _)
  | months => cases h

/-- The local date some months before now, at the local time of now. -/
theorem localDate_beginning (calendar : Calendar) (now : Instant) (count : Nat) :
    calendar.localDate (months.beginning calendar now count) =
      (calendar.localDate now).monthsBefore count := by
  rw [Date.eq_iff, calendar.dayNumber_localDate]
  simp only [beginning, Instant.daySeconds]
  omega

/-- A trailing period of months begins so many months before. -/
theorem isMonthsBefore_beginning (calendar : Calendar) (now : Instant) (count : Nat) :
    calendar.IsMonthsBefore count now (months.beginning calendar now count) := by
  refine ⟨?_, ?_, rfl⟩
  · rw [localDate_beginning]
    exact Date.isMonthsBefore_monthsBefore _ count
  · simp only [beginning, Calendar.localSecond, Instant.daySeconds]
    omega

/-- A trailing period of no units begins now. -/
theorem beginning_zero (unit : TrailingUnit) (calendar : Calendar) (now : Instant) :
    unit.beginning calendar now 0 = now := by
  cases unit with
  | hours | days | weeks => simp [beginning]
  | months =>
    refine (isMonthsBefore_beginning calendar now 0).unique ?_
    exact ⟨(calendar.localDate now).isMonthsBefore_zero, rfl, rfl⟩

/-- More units before now is not later. -/
theorem beginning_le (hle : m ≤ n) :
    unit.beginning calendar now n ≤ unit.beginning calendar now m := by
  cases unit with
  | hours | days | weeks =>
    simp only [beginning, Instant.le_def]
    omega
  -- the time of day is the same, so the dates decide
  | months =>
    have hdate := (Date.isMonthsBefore_monthsBefore (calendar.localDate now) n).le
      (Date.isMonthsBefore_monthsBefore _ m) hle
    rw [Date.le_iff] at hdate
    simp only [beginning, Instant.le_def, Instant.daySeconds]
    omega

/-- A trailing period does not begin later than now. -/
theorem beginning_le_now (unit : TrailingUnit) (calendar : Calendar) (now : Instant) (n : Nat) :
    unit.beginning calendar now n ≤ now := by
  have h := @beginning_le unit calendar now 0 n (Nat.zero_le n)
  rwa [beginning_zero] at h

/-- The present instant holds, if it is inside by a day. -/
theorem holds_now (hnow : now.IsInside 1) : unit.Holds calendar now := by
  have hoffset := calendar.offsetSeconds_bounds
  rw [Instant.isInside_iff] at hnow
  have hrange : now.inRange = true := by
    rw [Instant.inRange_iff]
    omega
  cases unit with
  | hours | days | weeks => exact ⟨hrange, trivial⟩
  -- the offset moves the local date by less than the margin of a day
  | months =>
    refine ⟨hrange, ?_⟩
    rw [Date.inRange_iff, calendar.dayNumber_localDate]
    omega

/-- Records can hold what lies between two instants that they can hold. -/
theorem holds_of_le_of_le {first last t : Instant} (hfirst : unit.Holds calendar first)
    (hlast : unit.Holds calendar last) (hle : first ≤ t) (hle' : t ≤ last) :
    unit.Holds calendar t := by
  rw [Instant.le_def] at hle hle'
  obtain ⟨hfirst, hfirstDate⟩ := hfirst
  obtain ⟨hlast, hlastDate⟩ := hlast
  have hrange : t.inRange = true := by
    rw [Instant.inRange_iff] at *
    omega
  cases unit with
  | hours | days | weeks => exact ⟨hrange, trivial⟩
  | months =>
    -- local dates follow each other as the instants do
    refine ⟨hrange, ?_⟩
    dsimp only at hfirstDate hlastDate
    rw [Date.inRange_iff, calendar.dayNumber_localDate] at *
    omega

/-- A trailing period begins at its beginning, if records can hold this instant. -/
theorem start?_period (hleap : now.isLeap = false) (hnow : now.IsInside 1) (unit : TrailingUnit)
    (calendar : Calendar) (count : UInt32) :
    (unit.period count).start? now calendar =
      let beginning := unit.beginning calendar now count.toNat
      if unit.Holds calendar beginning then some beginning else none := by
  have hrange : now.inRange = true := (@holds_now hours calendar now hnow).1
  cases unit with
  | hours | days | weeks =>
    simp only [period, Period.start?, Instant.back?_eq hleap hrange, Instant.checked?, Holds,
      and_true, beginning]
  | months =>
    have hdate := localDate_beginning calendar now count.toNat
    simp only [Holds, hdate]
    simp only [period, Period.start?, Calendar.monthsBefore?, Calendar.instantAt?,
      Instant.checked?, beginning]
    split <;> simp_all

/-- A trailing period begins at its beginning, or with the earliest instant if records cannot hold
this one. -/
theorem start_resolve (hleap : now.isLeap = false) (hnow : now.IsInside 1) (unit : TrailingUnit)
    (calendar : Calendar) (count : UInt32) :
    ((unit.period count).resolve now calendar).start =
      let beginning := unit.beginning calendar now count.toNat
      if unit.Holds calendar beginning then beginning else Instant.earliest := by
  have hstart := start?_period hleap hnow unit calendar count
  have hlast := unit.beginning_le_now calendar now count.toNat
  have hearliest := Instant.le_of_inRange (@holds_now unit calendar now hnow).1
  dsimp only at hstart ⊢
  rw [Period.resolve, hstart]
  split
  · rw [Option.getD_some, Window.upTo_of_le hlast]
  · rw [Option.getD_none, Window.upTo_of_le hearliest]

/-- A period of more units does not begin later. -/
theorem start_resolve_le (hleap : now.isLeap = false) (hnow : now.IsInside 1) (unit : TrailingUnit)
    (calendar : Calendar) {m n : UInt32} (hle : m ≤ n) :
    ((unit.period n).resolve now calendar).start ≤
      ((unit.period m).resolve now calendar).start := by
  have hbeginning := @beginning_le unit calendar now _ _ (UInt32.le_iff_toNat_le.mp hle)
  have hlast := unit.beginning_le_now calendar now m.toNat
  rw [start_resolve hleap hnow, start_resolve hleap hnow]
  dsimp only
  split
  · next hn =>
    -- what begins later and not after now can be held as well
    rw [if_pos (holds_of_le_of_le hn (holds_now hnow) hbeginning hlast)]
    exact hbeginning
  · split
    · next hm => exact Instant.le_of_inRange hm.1
    · exact Instant.le_refl _

/-- Records hold the start of a trailing period. -/
theorem inRange_start_resolve (hleap : now.isLeap = false) (hnow : now.IsInside 1)
    (unit : TrailingUnit) (calendar : Calendar) (count : UInt32) :
    ((unit.period count).resolve now calendar).start.inRange = true := by
  rw [start_resolve hleap hnow]
  dsimp only
  split
  · next hholds => exact hholds.1
  · decide

end TrailingUnit

namespace Period

variable {now : Instant} {m n : UInt32}

/-- Trailing periods end now and begin exactly so many units earlier, or with the earliest instant
where records cannot hold that one. They lie within those of more units, and units that are made up
of others name the same windows. -/
theorem resolve_trailing (hleap : now.isLeap = false) (hnow : now.IsInside 1) (calendar : Calendar)
    (hle : m ≤ n) :
    (∀ unit : TrailingUnit,
      let window (count : UInt32) := (unit.period count).resolve now calendar
      (window n).stop = now ∧ (window n).start ≤ now ∧ (window n).start.inRange = true ∧
        (window n).start ≤ (window m).start ∧
        ∀ t, (window m).contains t = true → (window n).contains t = true) ∧
    (∀ unit seconds, TrailingUnit.seconds? unit = some seconds →
      let start : Instant := ⟨now.second - n.toNat * seconds, now.nano⟩
      ((unit.period n).resolve now calendar).start =
        if start.inRange then start else Instant.earliest) ∧
    (∃ start, calendar.IsMonthsBefore n.toNat now start ∧
      (∀ other, calendar.IsMonthsBefore n.toNat now other → other = start) ∧
      ((lastMonths n).resolve now calendar).start =
        if start.inRange ∧ (calendar.localDate start).inRange then start else Instant.earliest) ∧
    (lastDays n).resolve now calendar = Window.trailingDays now n.toNat ∧
    (∀ hours : UInt32, hours.toNat = 24 * n.toNat →
      (lastDays n).resolve now calendar = (lastHours hours).resolve now calendar) ∧
    ∀ days : UInt32, days.toNat = 7 * n.toNat →
      (lastWeeks n).resolve now calendar = (lastDays days).resolve now calendar := by
  refine ⟨?_, ?_, ?_, rfl, ?_, ?_⟩
  -- the larger count begins no later, so its window holds the smaller one
  · intro unit window
    have hstart : (window n).start ≤ (window m).start :=
      TrailingUnit.start_resolve_le hleap hnow unit calendar hle
    refine ⟨rfl, (window n).start_le_stop,
      TrailingUnit.inRange_start_resolve hleap hnow unit calendar n, hstart, fun t ht => ?_⟩
    rw [Window.contains_iff] at ht ⊢
    exact ⟨Instant.le_trans hstart ht.1, ht.2⟩
  -- units of a fixed length
  · intro unit seconds hseconds
    have hresolve := TrailingUnit.start_resolve hleap hnow unit calendar n
    simp only [TrailingUnit.holds_of_seconds? hseconds,
      TrailingUnit.beginning_of_seconds? hseconds] at hresolve
    exact hresolve
  -- months go by the local date and keep the time of day
  · have hmonths := TrailingUnit.isMonthsBefore_beginning calendar now n.toNat
    refine ⟨_, hmonths, fun other hother => hother.unique hmonths, ?_⟩
    exact TrailingUnit.start_resolve hleap hnow .months calendar n
  -- equal lengths in seconds
  · intro hours hhours
    have hseconds : hours.toNat * 3600 = n.toNat * 86400 := by omega
    simp only [resolve, start?, hseconds]
  · intro days hdays
    have hseconds : n.toNat * 7 * 86400 = days.toNat * 86400 := by omega
    simp only [resolve, start?, hseconds]

/-- Thirteen months before the end of March, the day is reduced to that of a leap year's
February. -/
theorem resolve_trailing_february :
    let calendar : Calendar := { weekStart := .mon, offsetMinutes := -330 }
    let now : Instant := ⟨1743444000, 5⟩
    now.isLeap = false ∧ now.IsInside 1 ∧ (1 : UInt32) ≤ 13 ∧
      ((lastMonths 13).resolve now calendar).start = ⟨1709229600, 5⟩ ∧
      (lastDays 13).resolve now calendar = (lastHours 312).resolve now calendar ∧
      ∀ t, ((lastMonths 1).resolve now calendar).contains t = true →
        ((lastMonths 13).resolve now calendar).contains t = true := by
  intro calendar now
  have hleap : now.isLeap = false := by decide
  have hnow : now.IsInside 1 := by decide
  have hle : (1 : UInt32) ≤ 13 := by decide
  obtain ⟨hunits, -, ⟨start, -, hunique, hstart⟩, -, hhours, -⟩ :=
    resolve_trailing hleap hnow calendar hle
  -- the last of March, thirteen months back: a leap year's end of February
  have hfebruary : calendar.IsMonthsBefore 13 now ⟨1709229600, 5⟩ :=
    ⟨⟨by decide, by decide⟩, by decide, rfl⟩
  obtain rfl := hunique _ hfebruary
  exact ⟨hleap, hnow, hle, hstart.trans (if_pos (by decide)), hhours 312 (by decide),
    (hunits .months).2.2.2.2⟩

end Period

end Curation
