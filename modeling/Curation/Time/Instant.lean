import Curation.Time.Date

/-!
# Instants

An instant is a second, counted from 1970-01-01T00:00:00 UTC without leap seconds, and a number of
nanoseconds. A leap second belongs to the second before it: its nanoseconds are 10⁹ or more.
Instants are ordered by second and then by nanosecond.

* `compare_eq_lt`: the order of instants.
* `Instant.back?`: the instant a number of seconds earlier.
* `Instant.elapsed`: the nanoseconds from one instant to a later one.
* `elapsed_eq`: between instants outside leap seconds, the difference of their nanosecond counts.
-/

namespace Curation

/-- An instant of time. -/
structure Instant where
  /-- Seconds since 1970-01-01T00:00:00 UTC, leap seconds not counted. -/
  second : Int
  /-- Nanoseconds since the start of the second; 10⁹ or more in a leap second. -/
  nano : Nat
  deriving DecidableEq, Repr

namespace Instant

/-- Number of nanoseconds in a second. -/
def nanos : Nat := 1000000000

/-- Number of seconds in a day. -/
def daySeconds : Int := 86400

instance : LE Instant :=
  ⟨fun a b => a.second < b.second ∨ a.second = b.second ∧ a.nano ≤ b.nano⟩

instance : LT Instant :=
  ⟨fun a b => a.second < b.second ∨ a.second = b.second ∧ a.nano < b.nano⟩

/-- Instants are ordered by their seconds and then by their nanoseconds. -/
theorem le_def {a b : Instant} :
    a ≤ b ↔ a.second < b.second ∨ a.second = b.second ∧ a.nano ≤ b.nano := Iff.rfl

/-- An instant is earlier if its second is, or its nanosecond in the same second. -/
theorem lt_def {a b : Instant} :
    a < b ↔ a.second < b.second ∨ a.second = b.second ∧ a.nano < b.nano := Iff.rfl

instance (a b : Instant) : Decidable (a ≤ b) := decidable_of_iff' _ le_def

instance (a b : Instant) : Decidable (a < b) := decidable_of_iff' _ lt_def

/-- The order of instants. -/
instance : Ord Instant :=
  ⟨fun a b => (compare a.second b.second).then (compare a.nano b.nano)⟩

/-- The later of two instants. -/
instance : Max Instant := ⟨fun a b => if a ≤ b then b else a⟩

/-- The earlier of two instants. -/
instance : Min Instant := ⟨fun a b => if a ≤ b then a else b⟩

/-- An instant is given by its second and its nanosecond. -/
theorem ext_iff {a b : Instant} : a = b ↔ a.second = b.second ∧ a.nano = b.nano := by
  obtain ⟨_, _⟩ := a
  obtain ⟨_, _⟩ := b
  simp

/-- The order of instants is that of their seconds and, within one second, of their
nanoseconds. -/
theorem compare_eq_lt {a b : Instant} : compare a b = .lt ↔ a < b := by
  show (compare a.second b.second).then (compare a.nano b.nano) = .lt ↔ _
  simp only [Ordering.then_eq_lt, Std.LawfulEqOrd.compare_eq_iff_eq, Int.compare_eq_lt,
    Nat.compare_eq_lt, lt_def]

instance : Std.TransOrd Instant :=
  inferInstanceAs (Std.TransCmp (compareLex (compareOn Instant.second) (compareOn Instant.nano)))

instance : Std.LawfulEqOrd Instant where
  eq_of_compare {a b} h := by
    obtain ⟨hs, hn⟩ := Ordering.then_eq_eq.1 h
    exact ext_iff.2 ⟨Std.LawfulEqOrd.eq_of_compare hs, Std.LawfulEqOrd.eq_of_compare hn⟩

protected theorem le_refl (a : Instant) : a ≤ a := by simp [le_def]

protected theorem le_trans {a b c : Instant} (hab : a ≤ b) (hbc : b ≤ c) : a ≤ c := by
  simp only [le_def] at *; omega

/-- The order of instants is total: one that is not before another or at it is after it. -/
@[simp]
protected theorem not_le {a b : Instant} : ¬ a ≤ b ↔ b < a := by
  simp only [le_def, lt_def]; omega

@[simp]
protected theorem not_lt {a b : Instant} : ¬ a < b ↔ b ≤ a := by
  simp only [le_def, lt_def]; omega

/-- The earlier of two instants is not after the second one. -/
protected theorem min_le_right (a b : Instant) : min a b ≤ b := by
  show (if a ≤ b then a else b) ≤ b
  split
  · assumption
  · exact Instant.le_refl b

/-- The earliest instant that records can hold. -/
def earliest : Instant := ⟨Date.daysBeforeYear Date.firstYear * daySeconds, 0⟩

/-- The latest instant that records can hold. -/
def latest : Instant :=
  ⟨Date.daysBeforeYear (Date.lastYear + 1) * daySeconds - 1, nanos - 1⟩

/-- Whether records can hold instants of the second. -/
def inRange (t : Instant) : Bool := earliest.second ≤ t.second && t.second ≤ latest.second

/-- The instant, if records can hold it. -/
def checked? (t : Instant) : Option Instant := if t.inRange then some t else none

/-- Whether the instant lies in a leap second. -/
def isLeap (t : Instant) : Bool := nanos ≤ t.nano

/-- The instant a number of seconds earlier, if records can hold it. Going back from a leap second
starts at the second after it. -/
def back? (t : Instant) (seconds : Nat) : Option Instant :=
  if seconds = 0 then some t
  else if t.isLeap then checked? ⟨t.second + 1 - seconds, t.nano - nanos⟩
  else checked? ⟨t.second - seconds, t.nano⟩

/-- The date of the instant in universal time. -/
def date (t : Instant) : Date := Date.ofDayNumber (t.second / daySeconds)

/-- The number of the second in its day in universal time. -/
def secondOfDay (t : Instant) : Int := t.second % daySeconds

/-- The nanoseconds from `b` to `a`. A leap second between their times of day is counted: by one
second more if `b` lies in it and the time of `a` is later, by one less if `a` lies in it and the
time of `b` is later. -/
def elapsed (a b : Instant) : Int :=
  let counted : Int :=
    if b.secondOfDay < a.secondOfDay ∧ b.isLeap then 1
    else if a.secondOfDay < b.secondOfDay ∧ a.isLeap then -1
    else 0
  (a.second - b.second + counted) * nanos + ((a.nano : Int) - b.nano)

/-- Between instants outside leap seconds, the difference of their nanosecond counts elapses. -/
theorem elapsed_eq {a b : Instant} (ha : a.isLeap = false) (hb : b.isLeap = false) :
    a.elapsed b = (a.second * nanos + a.nano) - (b.second * nanos + b.nano) := by
  simp [elapsed, ha, hb, Int.sub_mul]
  omega

end Instant

end Curation
