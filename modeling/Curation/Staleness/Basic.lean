import Curation.Rule.Basic

/-!
# Staleness

A result is stale if it was never evaluated, if it was evaluated later than now, if it has been
valid for its whole time, or if it was invalidated after its evaluation.

* `StalenessState.isStale`: whether a result has to be evaluated again.
-/

namespace Curation

/-- What is known of the result of a rule set. -/
structure StalenessState where
  /-- When the result was last evaluated. -/
  lastEvaluated : Option Instant := none
  /-- The latest instant as of which the result was invalidated. -/
  invalidatedSince : Option Instant := none
  deriving DecidableEq, Repr

namespace StalenessState

/-- Whether the result was invalidated after an instant. -/
def isInvalidatedAfter (state : StalenessState) (t : Instant) : Bool :=
  match state.invalidatedSince with
  | some since => t < since
  | none => false

/-- Whether the result has to be evaluated again, if it stays valid for a number of
nanoseconds. -/
def isStale (state : StalenessState) (validNanos : Int) (now : Instant) : Bool :=
  match state.lastEvaluated with
  | none => true
  | some last =>
    now < last || (validNanos ≤ now.elapsed last || state.isInvalidatedAfter last)

/-- The result is invalidated as of an instant, unless it was as of a later one. -/
def invalidate (state : StalenessState) (t : Instant) : StalenessState :=
  { state with
    invalidatedSince := some (match state.invalidatedSince with
      | some since => max since t
      | none => t) }

/-- The result is evaluated. -/
def evaluated (state : StalenessState) (t : Instant) : StalenessState :=
  { state with lastEvaluated := some t }

end StalenessState

end Curation
