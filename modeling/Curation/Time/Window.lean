import Curation.Time.Calendar

/-!
# Windows of time

A window holds the instants from its start on and before its end. Windows are trailing, up to an
instant, or local calendar days.

* `Window.upTo`: the window between two instants, empty at the second one if they are reversed.
* `Window.contains_iff`: a window holds its start, unless it is empty, and not its end.
-/

namespace Curation

/-- The instants from `start` on and before `stop`. -/
structure Window where
  /-- The first instant. -/
  start : Instant
  /-- The instant after the last one. -/
  stop : Instant
  /-- The window is not reversed. -/
  start_le_stop : start ≤ stop
  deriving DecidableEq, Repr

namespace Window

/-- The window from `start` to `stop`; if `start` is the later one, the empty window at `stop`. -/
def upTo (start stop : Instant) : Window := ⟨min start stop, stop, Instant.min_le_right _ _⟩

/-- Whether the window holds the instant. -/
def contains (w : Window) (t : Instant) : Bool := w.start ≤ t && t < w.stop

/-- Whether the window holds no instant. -/
def isEmpty (w : Window) : Bool := w.start == w.stop

/-- A window holds the instants from its start to before its stop. -/
theorem contains_iff {w : Window} {t : Instant} :
    w.contains t = true ↔ w.start ≤ t ∧ t < w.stop := by
  simp [contains]

/-- The window of a number of days, of 24 hours each, that ends at an instant. -/
def trailingDays (now : Instant) (days : Nat) : Window :=
  upTo ((now.back? (days * 86400)).getD Instant.earliest) now

/-- The local calendar day of a date, from its midnight to the next. -/
def ofDate (calendar : Calendar) (d : Date) : Window :=
  let next := d.addDays 1
  upTo ((calendar.midnight? d).getD Instant.earliest)
    ((calendar.midnight? next).getD Instant.latest)

/-- The local calendar day that holds an instant. -/
def dayOf (calendar : Calendar) (t : Instant) : Window := ofDate calendar (calendar.localDate t)

end Window

end Curation
