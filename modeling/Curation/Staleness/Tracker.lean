import Curation.Staleness.Basic
import Std.Data.ExtTreeMap

/-!
# Trackers

A tracker knows the staleness of the results of rule sets by their ids. An id that it does not know
is in the initial state: never evaluated and never invalidated.

* `Tracker.state`: what is known of an id.
* `Tracker.refresh`: an evaluation, if the result is stale.
-/

namespace Curation

/-- The states of the results known, by the ids of their rule sets. -/
structure Tracker where
  states : Std.ExtTreeMap String StalenessState := ∅

namespace Tracker

/-- The tracker that knows no id. -/
def empty : Tracker := {}

/-- What is known of an id. -/
def state (tracker : Tracker) (id : String) : StalenessState :=
  tracker.states[id]?.getD {}

/-- The tracker with another state of an id. -/
def put (tracker : Tracker) (id : String) (state : StalenessState) : Tracker :=
  { states := tracker.states.insert id state }

/-- The result of an id is invalidated. -/
def invalidate (tracker : Tracker) (id : String) (t : Instant) : Tracker :=
  tracker.put id ((tracker.state id).invalidate t)

/-- The results of all ids known are invalidated. -/
def invalidateAll (tracker : Tracker) (t : Instant) : Tracker :=
  { states := tracker.states.map fun _ state => state.invalidate t }

/-- The result of an id is evaluated. -/
def markEvaluated (tracker : Tracker) (id : String) (t : Instant) : Tracker :=
  tracker.put id ((tracker.state id).evaluated t)

/-- The id is not known any more. -/
def reset (tracker : Tracker) (id : String) : Tracker :=
  { states := tracker.states.erase id }

/-- Whether the result of an id has to be evaluated again. -/
def shouldReevaluate (tracker : Tracker) (id : String) (validNanos : Int) (now : Instant) :
    Bool :=
  (tracker.state id).isStale validNanos now

/-- Whether a refresh of an id evaluates its result, and the tracker after it. The id is known
afterwards in either case. -/
def refresh (tracker : Tracker) (id : String) (validNanos : Int) (now : Instant) :
    Bool × Tracker :=
  if tracker.shouldReevaluate id validNanos now then (true, tracker.markEvaluated id now)
  else (false, tracker.put id (tracker.state id))

/-- The ids known and their states, in ascending order of ids. -/
def snapshot (tracker : Tracker) : List (String × StalenessState) := tracker.states.toList

/-- The tracker that knows the given ids. -/
def restore (states : List (String × StalenessState)) : Tracker :=
  { states := Std.ExtTreeMap.ofList states }

end Tracker

end Curation
