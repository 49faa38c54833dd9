import Curation.Staleness.Cache

/-!
# Runs of trackers and caches

What callers can do with a tracker and with a cache, one step after another, and what the cache
answers on the way.

* `TrackerStep.on`: what a step on a tracker does to a single id; `Tracker.getElem?_step` says that
  it does nothing else.
* `Cache.run`, `Cache.answers`: the cache after a run, and its answers in order.
* `Cache.itemIds_of_isStale`, `Cache.itemIds_of_not_isStale`: the two ways to answer.
-/

namespace Curation

namespace Instant

/-- An instant is before the later of two if it is before one of them. -/
theorem lt_max_iff {t a b : Instant} : t < max a b ↔ t < a ∨ t < b := by
  show t < (if a ≤ b then b else a) ↔ t < a ∨ t < b
  split
  · next hab =>
    simp only [le_def, lt_def] at *
    omega
  · next hab =>
    simp only [le_def, lt_def] at *
    omega

end Instant

namespace StalenessState

/-- A state is fresh if the evaluation is not later than now, is more recent than the result stays
valid, and was not followed by an invalidation. -/
theorem isStale_eq_false_iff {state : StalenessState} {validNanos : Int} {now : Instant} :
    state.isStale validNanos now = false ↔
      ∃ t, state.lastEvaluated = some t ∧ t ≤ now ∧ now.elapsed t < validNanos ∧
        ∀ since, state.invalidatedSince = some since → since ≤ t := by
  rw [isStale]
  cases hlast : state.lastEvaluated with
  | none => simp
  | some t =>
    cases hsince : state.invalidatedSince <;> simp [isInvalidatedAfter, hsince]

/-- After an evaluation, a state is stale if it lies in the future, if the result was valid for its
whole time, or if it was invalidated since. -/
theorem isStale_of_lastEvaluated {state : StalenessState} {validNanos : Int} {now t : Instant}
    (h : state.lastEvaluated = some t) :
    state.isStale validNanos now = true ↔
      now < t ∨ validNanos ≤ now.elapsed t ∨ state.isInvalidatedAfter t = true := by
  rw [isStale, h]
  simp

/-- A state is invalidated after an instant if it was before, or if the invalidation is later. -/
theorem isInvalidatedAfter_invalidate (state : StalenessState) (at' t : Instant) :
    (state.invalidate at').isInvalidatedAfter t = true ↔
      state.isInvalidatedAfter t = true ∨ t < at' := by
  rw [isInvalidatedAfter, invalidate, isInvalidatedAfter]
  cases state.invalidatedSince with
  | none => simp
  | some since => simp [Instant.lt_max_iff]

end StalenessState

/-- A step on a tracker. -/
inductive TrackerStep where
  | invalidate (id : String) (t : Instant)
  | invalidateAll (t : Instant)
  | markEvaluated (id : String) (t : Instant)
  | reset (id : String)
  | restore (states : List (String × StalenessState))
  -- the result of an id is evaluated if it is stale
  | refresh (id : String) (validNanos : Int) (now : Instant)

/-- What a step does to a single id: what is known of it afterwards. -/
def TrackerStep.on (id : String) (known : Option StalenessState) :
    TrackerStep → Option StalenessState
  | invalidate id' t => if id' = id then some ((known.getD {}).invalidate t) else known
  | invalidateAll t => known.map (·.invalidate t)
  | markEvaluated id' t => if id' = id then some ((known.getD {}).evaluated t) else known
  | reset id' => if id' = id then none else known
  | restore states => (Tracker.restore states).states[id]?
  | refresh id' validNanos now =>
    if id' = id then
      if (known.getD {}).isStale validNanos now then some ((known.getD {}).evaluated now)
      else some (known.getD {})
    else known

namespace Tracker

/-- The tracker after a step. -/
def step (tracker : Tracker) : TrackerStep → Tracker
  | .invalidate id t => tracker.invalidate id t
  | .invalidateAll t => tracker.invalidateAll t
  | .markEvaluated id t => tracker.markEvaluated id t
  | .reset id => tracker.reset id
  | .restore states => restore states
  | .refresh id validNanos now => (tracker.refresh id validNanos now).2

/-- Only the state of the id is put in place. -/
theorem getElem?_put (tracker : Tracker) (id other : String) (state : StalenessState) :
    (tracker.put id state).states[other]? =
      if id = other then some state else tracker.states[other]? := by
  simp [put, Std.ExtTreeMap.getElem?_insert]

/-- Only the id is marked as evaluated. -/
theorem getElem?_markEvaluated (tracker : Tracker) (id other : String) (t : Instant) :
    (tracker.markEvaluated id t).states[other]? =
      if id = other then some ((tracker.state id).evaluated t) else tracker.states[other]? := by
  rw [markEvaluated, getElem?_put]

/-- Only the id is forgotten. -/
theorem getElem?_reset (tracker : Tracker) (id other : String) :
    (tracker.reset id).states[other]? = if id = other then none else tracker.states[other]? := by
  simp [reset, Std.ExtTreeMap.getElem?_erase]

/-- A refresh evaluates a stale result. -/
theorem refresh_of_isStale {tracker : Tracker} {id : String} {validNanos : Int} {now : Instant}
    (h : (tracker.state id).isStale validNanos now = true) :
    tracker.refresh id validNanos now = (true, tracker.markEvaluated id now) :=
  if_pos h

/-- A refresh of a result that is not stale only makes its id known. -/
theorem refresh_of_not_isStale {tracker : Tracker} {id : String} {validNanos : Int} {now : Instant}
    (h : (tracker.state id).isStale validNanos now = false) :
    tracker.refresh id validNanos now = (false, tracker.put id (tracker.state id)) :=
  if_neg (ne_true_of_eq_false h)

/-- A step acts on every id by itself. -/
theorem getElem?_step (tracker : Tracker) (step : TrackerStep) (id : String) :
    (tracker.step step).states[id]? = step.on id tracker.states[id]? := by
  -- a step that names an id puts or erases its state, and all others are looked up as before
  cases step with
  | invalidate id' t =>
    rw [Tracker.step, invalidate, getElem?_put, TrackerStep.on]
    split
    · next h => rw [← h, state]
    · rfl
  | invalidateAll t =>
    rw [Tracker.step, invalidateAll, TrackerStep.on, Std.ExtTreeMap.getElem?_map]
  | markEvaluated id' t =>
    rw [Tracker.step, getElem?_markEvaluated, TrackerStep.on]
    split
    · next h => rw [← h, state]
    · rfl
  | reset id' => rw [Tracker.step, getElem?_reset, TrackerStep.on]
  | restore states => rfl
  | refresh id' validNanos now =>
    rw [Tracker.step, TrackerStep.on]
    cases hstale : (tracker.state id').isStale validNanos now with
    | true =>
      rw [refresh_of_isStale hstale, getElem?_markEvaluated]
      split
      · next h => rw [← h, ← state, if_pos hstale]
      · rfl
    | false =>
      rw [refresh_of_not_isStale hstale, getElem?_put]
      split
      · next h => rw [← h, ← state, hstale, if_neg Bool.false_ne_true]
      · rfl

end Tracker

/-- A step on a cache, on its tracker or on the items that it asks for. -/
inductive CacheStep where
  | itemIds (set : RuleSet) (now : Instant)
  | invalidate (id : String) (t : Instant)
  | replace (items : List Item)
  -- a step on the tracker, past the cache
  | track (step : TrackerStep)

/-- The answer to a request. -/
structure Answer where
  /-- The id of the rule set. -/
  id : String
  /-- When it was requested. -/
  now : Instant
  /-- The ids of items that were answered. -/
  ids : List String
  /-- How often the items were asked for on the way. -/
  loads : Nat
  deriving DecidableEq, Repr

/-- The latest answer for an id that items were asked for. -/
def latestLoad (id : String) (answers : List Answer) : Option Answer :=
  (answers.filter fun answer => answer.id = id && 0 < answer.loads).getLast?

/-- One more answer is the latest one loaded for its id, if it loads something. -/
theorem latestLoad_append_singleton (id : String) (answers : List Answer) (answer : Answer) :
    latestLoad id (answers ++ [answer]) =
      if answer.id = id ∧ 0 < answer.loads then some answer else latestLoad id answers := by
  rw [latestLoad, List.filter_append]
  split
  · next h => simp [h]
  · next h => simp [latestLoad, h]

/-- The items after some steps: those of the last replacement. -/
def itemsAfter (items : List Item) : List CacheStep → List Item
  | [] => items
  | .replace items :: steps => itemsAfter items steps
  | .itemIds _ _ :: steps | .invalidate _ _ :: steps | .track _ :: steps => itemsAfter items steps

namespace Cache

/-- A cache that has answered no request. -/
def new (items : List Item) (calendar : Calendar) : Cache := { source := { items }, calendar }

/-- The answer to a request. -/
def answer (cache : Cache) (set : RuleSet) (now : Instant) : Answer where
  id := set.id
  now
  ids := (cache.itemIds set now).1
  loads := (cache.itemIds set now).2.source.loads - cache.source.loads

/-- The cache after a step. -/
def step (cache : Cache) : CacheStep → Cache
  | .itemIds set now => (cache.itemIds set now).2
  | .invalidate id t => cache.invalidate id t
  | .replace items => { cache with source := cache.source.replace items }
  | .track step => { cache with tracker := cache.tracker.step step }

/-- The answers to the requests among a single step: one or none. -/
def stepAnswers (cache : Cache) : CacheStep → List Answer
  | .itemIds set now => [cache.answer set now]
  | .invalidate _ _ | .replace _ | .track _ => []

/-- The cache after a run. -/
def run (cache : Cache) (steps : List CacheStep) : Cache := steps.foldl step cache

/-- The answers to the requests of a run, in order. -/
def answers (cache : Cache) : List CacheStep → List Answer
  | [] => []
  | step :: steps => cache.stepAnswers step ++ (cache.step step).answers steps

/-- Whether a request evaluates the rule set: there is no result of it, or a stale one. -/
def isStale (cache : Cache) (set : RuleSet) (now : Instant) : Bool :=
  !cache.results.contains set.id || (cache.tracker.state set.id).isStale set.refreshNanos now

@[simp]
theorem source_prepare (cache : Cache) (id : String) :
    (cache.prepare id).source = cache.source := by
  rw [prepare]
  split <;> rfl

@[simp]
theorem calendar_prepare (cache : Cache) (id : String) :
    (cache.prepare id).calendar = cache.calendar := by
  rw [prepare]
  split <;> rfl

@[simp]
theorem results_prepare (cache : Cache) (id : String) :
    (cache.prepare id).results = cache.results := by
  rw [prepare]
  split <;> rfl

/-- Nothing is prepared if there is a result. -/
theorem prepare_of_mem {cache : Cache} {id : String} (h : id ∈ cache.results) :
    cache.prepare id = cache :=
  if_pos h

/-- Without a result, the state of the id is forgotten before a request. -/
theorem state_prepare_of_not_mem {cache : Cache} {id : String} (h : id ∉ cache.results) :
    (cache.prepare id).tracker.state id = {} := by
  rw [prepare, if_neg h, Tracker.state, Tracker.getElem?_reset, if_pos rfl]
  rfl

/-- Preparing for a request changes the state of no other id. -/
theorem getElem?_prepare_of_ne {cache : Cache} {id other : String} (h : id ≠ other) :
    (cache.prepare id).tracker.states[other]? = cache.tracker.states[other]? := by
  rw [prepare]
  split
  · rfl
  · rw [Tracker.getElem?_reset, if_neg h]

/-- A result is stale for a cache if its state is so once the request is prepared. -/
theorem isStale_prepare (cache : Cache) (set : RuleSet) (now : Instant) :
    ((cache.prepare set.id).tracker.state set.id).isStale set.refreshNanos now =
      cache.isStale set now := by
  rw [isStale]
  -- without a result nothing is known of the id, which is as stale as it can be
  by_cases h : set.id ∈ cache.results
  · rw [prepare_of_mem h, Std.ExtTreeMap.contains_iff_mem.mpr h, Bool.not_true, Bool.false_or]
  · have hc : cache.results.contains set.id = false :=
      eq_false_of_ne_true fun hc => h (Std.ExtTreeMap.contains_iff_mem.mp hc)
    rw [state_prepare_of_not_mem h, hc]
    rfl

/-- A request for a stale result evaluates the rule set. -/
theorem itemIds_of_isStale {cache : Cache} {set : RuleSet} {now : Instant}
    (h : cache.isStale set now = true) :
    cache.itemIds set now =
      (cache.evaluate set now,
        { cache with
          source := cache.source.load
          tracker := (cache.prepare set.id).tracker.markEvaluated set.id now
          results := cache.results.insert set.id (cache.evaluate set now) }) := by
  rw [← isStale_prepare] at h
  rw [itemIds, Tracker.refresh_of_isStale h]
  simp [evaluate]

/-- A request for a fresh result is answered from the results. -/
theorem itemIds_of_not_isStale {cache : Cache} {set : RuleSet} {now : Instant}
    (h : cache.isStale set now = false) :
    cache.itemIds set now =
      (cache.results[set.id]?.getD [],
        { cache with tracker := cache.tracker.put set.id (cache.tracker.state set.id) }) := by
  -- a fresh result is there, so nothing is forgotten
  have hmem : set.id ∈ cache.results := by
    rw [isStale, Bool.or_eq_false_iff, Bool.not_eq_false'] at h
    exact Std.ExtTreeMap.contains_iff_mem.mp h.1
  rw [← isStale_prepare] at h
  rw [itemIds, Tracker.refresh_of_not_isStale h]
  simp [prepare_of_mem hmem]

/-- A stale result is evaluated, which loads the items once. -/
theorem answer_of_isStale {cache : Cache} {set : RuleSet} {now : Instant}
    (h : cache.isStale set now = true) :
    cache.answer set now = ⟨set.id, now, cache.evaluate set now, 1⟩ := by
  rw [answer, itemIds_of_isStale h]
  simp [Source.load]

/-- A result that is not stale is answered as it is, and nothing is loaded. -/
theorem answer_of_not_isStale {cache : Cache} {set : RuleSet} {now : Instant}
    (h : cache.isStale set now = false) :
    cache.answer set now = ⟨set.id, now, cache.results[set.id]?.getD [], 0⟩ := by
  rw [answer, itemIds_of_not_isStale h]
  simp

end Cache

end Curation
