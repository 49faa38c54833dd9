import Curation.Rule.Selection
import Curation.Staleness.Tracker

/-!
# Caches of results

A cache keeps the ids of the items that rule sets select, and evaluates a rule set again only if its
result is stale or not there. Items come from a source that counts how often it is asked.

* `Cache.itemIds`: the ids of the items that a rule set selects.
-/

namespace Curation

/-- The items of a collection, and how often they were asked for. -/
structure Source where
  items : List Item
  /-- The number of times that they were asked for. -/
  loads : Nat := 0
  deriving DecidableEq, Repr

namespace Source

/-- The source after its items were asked for. -/
def load (source : Source) : Source := { source with loads := source.loads + 1 }

/-- The source with other items. -/
def replace (source : Source) (items : List Item) : Source := { source with items }

end Source

/-- Results of rule sets, and what is known of their staleness. -/
structure Cache where
  /-- Where items come from. -/
  source : Source
  /-- The calendar that rule sets are evaluated in. -/
  calendar : Calendar
  /-- The staleness of results. -/
  tracker : Tracker := {}
  /-- The ids of the items selected, by the ids of rule sets. -/
  results : Std.ExtTreeMap String (List String) := ∅

namespace Cache

/-- The ids of the items that a rule set selects now. -/
def evaluate (cache : Cache) (set : RuleSet) (now : Instant) : List String :=
  (set.select now cache.calendar cache.source.items).map (·.id)

/-- The cache that forgets the staleness of a rule set without a result. -/
def prepare (cache : Cache) (id : String) : Cache :=
  if id ∈ cache.results then cache else { cache with tracker := cache.tracker.reset id }

/-- The ids of the items that a rule set selects, as evaluated now or as kept, and the cache after
it. -/
def itemIds (cache : Cache) (set : RuleSet) (now : Instant) : List String × Cache :=
  -- Without a result there is nothing to answer from, whatever the tracker knows.
  let cache := cache.prepare set.id
  let (stale, tracker) := cache.tracker.refresh set.id set.refreshNanos now
  if stale then
    let ids := cache.evaluate set now
    (ids,
      { cache with
        source := cache.source.load
        tracker
        results := cache.results.insert set.id ids })
  else (cache.results[set.id]?.getD [], { cache with tracker })

/-- The result of a rule set is invalidated. -/
def invalidate (cache : Cache) (id : String) (t : Instant) : Cache :=
  { cache with tracker := cache.tracker.invalidate id t }

end Cache

end Curation
