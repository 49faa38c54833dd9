import Curation.Proofs.Staleness.Run

/-!
# Answers of caches

Whatever is done to a cache and behind its back to its tracker, an answer is an evaluation of the
rule set: of the items of now, or of the items of the latest request for the same id that asked for
them.

* `Cache.HoldsLatest`: the results of a cache are its latest evaluations, an invariant of all steps.
* `Cache.AgreeOn`: two caches are alike to the requests for an id, a bisimulation.
* `Cache.itemIds_run`: which of the two ways an answer is given, and that it leaves other ids alone.
-/

namespace Curation

namespace Cache

/-- The results of a cache are those of the latest answers that items were asked for. -/
def HoldsLatest (cache : Cache) (answers : List Answer) : Prop :=
  ∀ id, cache.results[id]? = (latestLoad id answers).map (·.ids)

/-- A new cache holds nothing, and no answer was loaded. -/
theorem holdsLatest_new (items : List Item) (calendar : Calendar) :
    (new items calendar).HoldsLatest [] := by
  intro id
  simp [new, latestLoad]

/-- A cache holds the latest answers after a step if it does before. -/
theorem HoldsLatest.step {cache : Cache} {answers : List Answer} (h : cache.HoldsLatest answers)
    (step : CacheStep) : (cache.step step).HoldsLatest (answers ++ cache.stepAnswers step) := by
  intro id
  cases step with
  | itemIds set now =>
    -- a result is written exactly with an answer that items are asked for
    rw [Cache.step, stepAnswers, latestLoad_append_singleton]
    cases hstale : cache.isStale set now with
    | true =>
      rw [itemIds_of_isStale hstale, answer_of_isStale hstale,
        Std.ExtTreeMap.getElem?_insert, h id]
      by_cases hid : set.id = id <;> simp [hid]
    | false =>
      rw [itemIds_of_not_isStale hstale, answer_of_not_isStale hstale]
      simp [h id]
  | invalidate | replace | track =>
    simpa [stepAnswers, Cache.step, Cache.invalidate] using h id

/-- A cache holds the latest answers after a run if it does before. -/
theorem HoldsLatest.run {cache : Cache} {answers : List Answer} (h : cache.HoldsLatest answers)
    (steps : List CacheStep) : (cache.run steps).HoldsLatest (answers ++ cache.answers steps) := by
  induction steps generalizing cache answers with
  | nil => simpa [Cache.run, Cache.answers] using h
  | cons step steps ih =>
    rw [Cache.answers, ← List.append_assoc]
    exact ih (h.step step)

/-- No step changes the calendar. -/
theorem calendar_step (cache : Cache) (step : CacheStep) :
    (cache.step step).calendar = cache.calendar := by
  cases step with
  | itemIds set now =>
    rw [Cache.step]
    cases hstale : cache.isStale set now with
    | true => rw [itemIds_of_isStale hstale]
    | false => rw [itemIds_of_not_isStale hstale]
  | invalidate | replace | track => rfl

theorem calendar_run (cache : Cache) (steps : List CacheStep) :
    (cache.run steps).calendar = cache.calendar := by
  induction steps generalizing cache with
  | nil => rfl
  | cons step steps ih => exact (ih (cache.step step)).trans (cache.calendar_step step)

/-- A request asks for the items at most once, and does not change them. -/
theorem source_itemIds (cache : Cache) (set : RuleSet) (now : Instant) :
    (cache.itemIds set now).2.source =
      { cache.source with loads := cache.source.loads + (cache.answer set now).loads } := by
  cases hstale : cache.isStale set now with
  | true =>
    rw [itemIds_of_isStale hstale, answer_of_isStale hstale]
    rfl
  | false =>
    rw [itemIds_of_not_isStale hstale, answer_of_not_isStale hstale]
    rfl

/-- After a run, a cache has the items that it was given last. -/
theorem items_run (cache : Cache) (steps : List CacheStep) :
    (cache.run steps).source.items = itemsAfter cache.source.items steps := by
  induction steps generalizing cache with
  | nil => rfl
  | cons step steps ih =>
    refine (ih (cache.step step)).trans ?_
    cases step with
    | itemIds set now => rw [Cache.step, source_itemIds, itemsAfter]
    | invalidate | replace | track => rfl

/-- A result is not stale if the cache has it and its state is not stale. -/
theorem isStale_eq_false_iff {cache : Cache} {set : RuleSet} {now : Instant} :
    cache.isStale set now = false ↔
      set.id ∈ cache.results ∧
        (cache.tracker.state set.id).isStale set.refreshNanos now = false := by
  rw [isStale, Bool.or_eq_false_iff, Bool.not_eq_false', Std.ExtTreeMap.contains_iff_mem]

/-- Two caches are alike to the requests for an id. -/
structure AgreeOn (id : String) (cache other : Cache) : Prop where
  /-- They ask for the same items. -/
  items : cache.source.items = other.source.items
  /-- They evaluate in the same calendar. -/
  calendar : cache.calendar = other.calendar
  /-- They know the same of the id. -/
  states : cache.tracker.states[id]? = other.tracker.states[id]?
  /-- They keep the same result. -/
  results : cache.results[id]? = other.results[id]?

/-- A request for one id is not noticed by another. -/
theorem agreeOn_itemIds {cache : Cache} {set : RuleSet} {now : Instant} {id : String}
    (h : set.id ≠ id) : (cache.itemIds set now).2.AgreeOn id cache := by
  cases hstale : cache.isStale set now with
  -- the state and the result that are put in place are those of another id
  | true =>
    rw [itemIds_of_isStale hstale]
    refine ⟨rfl, rfl, ?_, ?_⟩
    · rw [Tracker.getElem?_markEvaluated, if_neg h, getElem?_prepare_of_ne h]
    · simp [Std.ExtTreeMap.getElem?_insert, h]
  | false =>
    rw [itemIds_of_not_isStale hstale]
    refine ⟨rfl, rfl, ?_, rfl⟩
    rw [Tracker.getElem?_put, if_neg h]

namespace AgreeOn

variable {cache other : Cache} {set : RuleSet}

theorem symm {id : String} (h : cache.AgreeOn id other) : other.AgreeOn id cache :=
  ⟨h.items.symm, h.calendar.symm, h.states.symm, h.results.symm⟩

theorem trans {id : String} {third : Cache} (h : cache.AgreeOn id other)
    (h' : other.AgreeOn id third) : cache.AgreeOn id third :=
  ⟨h.items.trans h'.items, h.calendar.trans h'.calendar, h.states.trans h'.states,
    h.results.trans h'.results⟩

/-- Caches that agree on an id both have its result or both lack it. -/
theorem mem_results_iff {id : String} (h : cache.AgreeOn id other) :
    id ∈ cache.results ↔ id ∈ other.results := by
  rw [Std.ExtTreeMap.mem_iff_isSome_getElem?, h.results, Std.ExtTreeMap.mem_iff_isSome_getElem?]

/-- Caches that agree evaluate to the same ids. -/
theorem evaluate_eq {id : String} (h : cache.AgreeOn id other) (set : RuleSet) (now : Instant) :
    cache.evaluate set now = other.evaluate set now := by
  rw [evaluate, evaluate, h.items, h.calendar]

/-- A result is stale in both of two caches that agree, or in neither. -/
theorem isStale_eq (h : cache.AgreeOn set.id other) (now : Instant) :
    cache.isStale set now = other.isStale set now := by
  rw [isStale, isStale, Tracker.state, Tracker.state, h.states,
    Std.ExtTreeMap.contains_eq_isSome_getElem?, Std.ExtTreeMap.contains_eq_isSome_getElem?,
    h.results]

/-- Before a request, the state of the id is the same in caches that agree. -/
theorem state_prepare_eq {id : String} (h : cache.AgreeOn id other) :
    (cache.prepare id).tracker.state id = (other.prepare id).tracker.state id := by
  -- both caches have a result of the id, or both forget what is known of it
  by_cases hc : id ∈ cache.results
  · rw [prepare_of_mem hc, prepare_of_mem (h.mem_results_iff.mp hc), Tracker.state, h.states,
      Tracker.state]
  · rw [state_prepare_of_not_mem hc, state_prepare_of_not_mem (mt h.mem_results_iff.mpr hc)]

/-- Caches that agree on an id do so after it is requested. -/
theorem itemIds (h : cache.AgreeOn set.id other) (now : Instant) :
    (cache.itemIds set now).2.AgreeOn set.id (other.itemIds set now).2 := by
  have hstale := h.isStale_eq now
  cases hc : cache.isStale set now with
  | true =>
    rw [itemIds_of_isStale hc, itemIds_of_isStale (hstale ▸ hc)]
    refine ⟨h.items, h.calendar, ?_, ?_⟩
    -- the state is forgotten in both caches before it is marked, or in neither
    · rw [Tracker.getElem?_markEvaluated, Tracker.getElem?_markEvaluated, h.state_prepare_eq]
      simp
    · simp [h.evaluate_eq]
  | false =>
    rw [itemIds_of_not_isStale hc, itemIds_of_not_isStale (hstale ▸ hc)]
    refine ⟨h.items, h.calendar, ?_, h.results⟩
    simp only [Tracker.getElem?_put, Tracker.state, h.states]

/-- Caches that agree on an id do so after any step. -/
theorem step {id : String} (h : cache.AgreeOn id other) (step : CacheStep) :
    (cache.step step).AgreeOn id (other.step step) := by
  cases step with
  | itemIds set now =>
    -- a request for another id changes neither cache to the requests for this one
    by_cases hid : set.id = id
    · subst hid
      exact h.itemIds now
    · exact (agreeOn_itemIds hid).trans (h.trans (agreeOn_itemIds hid).symm)
  | invalidate id' t =>
    refine ⟨h.items, h.calendar, ?_, h.results⟩
    have hstep := fun tracker : Tracker => tracker.getElem?_step (.invalidate id' t) id
    exact (hstep _).trans (h.states ▸ (hstep _).symm)
  | replace items => exact ⟨rfl, h.calendar, h.states, h.results⟩
  | track step =>
    refine ⟨h.items, h.calendar, ?_, h.results⟩
    rw [Cache.step, Cache.step, Tracker.getElem?_step, Tracker.getElem?_step, h.states]

end AgreeOn

end Cache

end Curation
