import Curation.Proofs.Staleness.Answers

/-!
# Invalidations in runs of caches

In a run that leaves the tracker to the cache but for invalidations, the state of an id is decided
by the steps of the run alone: its first request forgets the invalidations before it, and each one
after it is kept until it is outlived by an evaluation.

* `InvalidatedLater`: a result is invalidated after an instant, once its id was requested.
* `Cache.Remembers`: what a cache knows of an id after a run, an invariant of plain steps.
* `Cache.itemIds_run_of_isPlain`: when a result is evaluated again.
* `Cache.answers_outdated`: an invalidation before the first request is not noticed.
-/

namespace Curation

namespace CacheStep

/-- The step requests the result of an id. -/
def Requests (id : String) : CacheStep → Prop
  | itemIds set _ => set.id = id
  | invalidate _ _ | replace _ | track _ => False

/-- The step invalidates the result of an id as of an instant. -/
def Invalidates (id : String) (t : Instant) : CacheStep → Prop
  | invalidate id' t' | track (.invalidate id' t') => id' = id ∧ t' = t
  | _ => False

/-- The step does nothing to the tracker past the cache but to invalidate single results. -/
def IsPlain : CacheStep → Prop
  | itemIds _ _ | invalidate _ _ | replace _ | track (.invalidate _ _) => True
  | _ => False

end CacheStep

/-- An id is requested in a run. -/
def Requested (id : String) (steps : List CacheStep) : Prop :=
  ∃ step ∈ steps, step.Requests id

/-- The result of an id is invalidated in a run as of an instant later than a given one, by a step
after the first request for the id. -/
def InvalidatedLater (id : String) (t : Instant) (steps : List CacheStep) : Prop :=
  ∃ before step after since, steps = before ++ step :: after ∧ Requested id before ∧
    step.Invalidates id since ∧ t < since

/-- An id is requested in a run with one more step if it was before or is by that step. -/
theorem requested_append_singleton {id : String} {steps : List CacheStep} {step : CacheStep} :
    Requested id (steps ++ [step]) ↔ Requested id steps ∨ step.Requests id := by
  simp only [Requested, List.mem_append, List.mem_singleton, or_and_right, exists_or,
    exists_eq_left]

/-- A step adds its own invalidation if the id was requested before. -/
theorem invalidatedLater_append_singleton {id : String} {t : Instant} {steps : List CacheStep}
    {step : CacheStep} :
    InvalidatedLater id t (steps ++ [step]) ↔
      InvalidatedLater id t steps ∨
        (Requested id steps ∧ ∃ since, step.Invalidates id since ∧ t < since) := by
  constructor
  · rintro ⟨before, found, after, since, hsteps, hrequested, hfound, hlt⟩
    -- the invalidation is the step itself, or nothing but the step follows it
    rcases List.eq_nil_or_concat after with rfl | ⟨after, last, rfl⟩
    · obtain ⟨rfl, hlast⟩ := List.append_inj' hsteps rfl
      cases hlast
      exact Or.inr ⟨hrequested, since, hfound, hlt⟩
    · rw [List.concat_eq_append, ← List.cons_append, ← List.append_assoc] at hsteps
      obtain ⟨rfl, -⟩ := List.append_inj' hsteps rfl
      exact Or.inl ⟨before, found, after, since, rfl, hrequested, hfound, hlt⟩
  · rintro (⟨before, found, after, since, rfl, hfound⟩ | ⟨hrequested, since, hstep, hlt⟩)
    · exact ⟨before, found, after ++ [step], since, by simp, hfound⟩
    · exact ⟨steps, step, [], since, rfl, hrequested, hstep, hlt⟩

/-- Only an id that was requested is invalidated later. -/
theorem InvalidatedLater.requested {id : String} {t : Instant} {steps : List CacheStep}
    (h : InvalidatedLater id t steps) : Requested id steps := by
  obtain ⟨before, found, after, since, rfl, ⟨step, hstep, hrequests⟩, -⟩ := h
  exact ⟨step, List.mem_append_left _ hstep, hrequests⟩

namespace Cache

/-- What a cache knows of an id after some steps and answers. -/
structure Remembers (id : String) (steps : List CacheStep) (answers : List Answer)
    (cache : Cache) : Prop where
  /-- There is a result of the id once it was requested. -/
  result : id ∈ cache.results ↔ Requested id steps
  /-- The result was evaluated for the latest answer that items were asked for. -/
  evaluated : ∀ latest, latestLoad id answers = some latest →
    (cache.tracker.state id).lastEvaluated = some latest.now
  /-- The result was invalidated by the steps after the first request. -/
  invalidated : id ∈ cache.results → ∀ t,
    (cache.tracker.state id).isInvalidatedAfter t = true ↔ InvalidatedLater id t steps

/-- A new cache knows nothing, as nothing was done. -/
theorem remembers_new (items : List Item) (calendar : Calendar) (id : String) :
    (new items calendar).Remembers id [] [] where
  result := by simp [new, Requested]
  evaluated := by simp [latestLoad]
  invalidated := by simp [new]

namespace Remembers

variable {id : String} {steps : List CacheStep} {answers : List Answer} {cache : Cache}

/-- A step that has to do with other ids only changes nothing that is known of an id. -/
private theorem append_of_other {after : Cache} {answers' : List Answer} {step : CacheStep}
    (h : cache.Remembers id steps answers)
    (hstates : after.tracker.states[id]? = cache.tracker.states[id]?)
    (hmem : id ∈ after.results ↔ id ∈ cache.results)
    (hanswers : latestLoad id answers' = latestLoad id answers)
    (hrequests : ¬ step.Requests id) (hinvalidates : ∀ since, ¬ step.Invalidates id since) :
    after.Remembers id (steps ++ [step]) answers' := by
  have hstate : after.tracker.state id = cache.tracker.state id := by
    rw [Tracker.state, Tracker.state, hstates]
  refine ⟨?_, ?_, ?_⟩
  · rw [hmem, h.result, requested_append_singleton, or_iff_left hrequests]
  · rw [hanswers, hstate]
    exact h.evaluated
  · intro hid t
    rw [hstate, h.invalidated (hmem.mp hid) t, invalidatedLater_append_singleton, or_iff_left]
    -- the step is no invalidation of the id, so it comes after none
    rintro ⟨-, since, hsince, -⟩
    exact hinvalidates since hsince

/-- An invalidation adds to what is known of its own id, and to nothing else. -/
private theorem invalidate {step : CacheStep} {id' : String} {t : Instant}
    (h : cache.Remembers id steps answers) (hrequests : ¬ step.Requests id)
    (hinvalidates : ∀ since, step.Invalidates id since ↔ id' = id ∧ t = since) :
    (cache.invalidate id' t).Remembers id (steps ++ [step]) answers := by
  have hget := cache.tracker.getElem?_put id' id ((cache.tracker.state id').invalidate t)
  by_cases hid : id' = id
  · subst hid
    have hstate : (cache.invalidate id' t).tracker.state id' =
        (cache.tracker.state id').invalidate t := by
      rw [Tracker.state, Cache.invalidate, Tracker.invalidate, hget, if_pos rfl]
      rfl
    refine ⟨?_, ?_, ?_⟩
    · rw [requested_append_singleton, or_iff_left hrequests]
      exact h.result
    · rw [hstate]
      exact h.evaluated
    · intro hmem s
      rw [hstate, StalenessState.isInvalidatedAfter_invalidate, h.invalidated hmem s,
        invalidatedLater_append_singleton]
      -- there is a result, so the id was requested and the invalidation counts
      have hrequested : Requested id' steps := h.result.mp hmem
      simp [hrequested, hinvalidates]
  -- an invalidation of another id
  · refine h.append_of_other (hget.trans (if_neg hid)) Iff.rfl rfl hrequests ?_
    intro since hsince
    exact hid ((hinvalidates since).mp hsince).1

/-- The first request forgets the invalidations before it, and a later one keeps all. -/
private theorem itemIds {set : RuleSet} (h : cache.Remembers set.id steps answers)
    (now : Instant) :
    (cache.itemIds set now).2.Remembers set.id (steps ++ [.itemIds set now])
      (answers ++ [cache.answer set now]) := by
  have hrequested : Requested set.id (steps ++ [.itemIds set now]) :=
    requested_append_singleton.mpr (Or.inr rfl)
  have hlater : ∀ t, InvalidatedLater set.id t (steps ++ [.itemIds set now]) ↔
      InvalidatedLater set.id t steps := by
    intro t
    rw [invalidatedLater_append_singleton, or_iff_left]
    rintro ⟨-, since, hsince, -⟩
    exact hsince
  cases hstale : cache.isStale set now with
  | true =>
    have hstate : (cache.itemIds set now).2.tracker.state set.id =
        ((cache.prepare set.id).tracker.state set.id).evaluated now := by
      rw [itemIds_of_isStale hstale, Tracker.state, Tracker.getElem?_markEvaluated, if_pos rfl]
      rfl
    refine ⟨?_, ?_, ?_⟩
    · rw [itemIds_of_isStale hstale]
      simp [hrequested]
    · rw [latestLoad_append_singleton, answer_of_isStale hstale, hstate]
      simp [StalenessState.evaluated]
    · intro _ t
      rw [hstate, hlater]
      by_cases hmem : set.id ∈ cache.results
      · rw [prepare_of_mem hmem]
        exact h.invalidated hmem t
      · rw [state_prepare_of_not_mem hmem]
        -- what was invalidated before the first request is forgotten, and it does not count
        have hnone : ¬ InvalidatedLater set.id t steps := fun hl => hmem (h.result.mpr hl.requested)
        simp [hnone, StalenessState.evaluated, StalenessState.isInvalidatedAfter]
  | false =>
    -- an answer from the results leaves the state as it is
    have hmem := (isStale_eq_false_iff.mp hstale).1
    have hstate : (cache.itemIds set now).2.tracker.state set.id = cache.tracker.state set.id := by
      rw [itemIds_of_not_isStale hstale, Tracker.state, Tracker.getElem?_put, if_pos rfl]
      rfl
    refine ⟨?_, ?_, ?_⟩
    · rw [itemIds_of_not_isStale hstale]
      simp [hmem, hrequested]
    · rw [latestLoad_append_singleton, answer_of_not_isStale hstale, hstate]
      simpa using h.evaluated
    · intro _ t
      rw [hstate, hlater]
      exact h.invalidated hmem t

/-- A plain step keeps what a cache knows in step with what was done. -/
theorem step (h : cache.Remembers id steps answers) {step : CacheStep} (hplain : step.IsPlain) :
    (cache.step step).Remembers id (steps ++ [step]) (answers ++ cache.stepAnswers step) := by
  cases step with
  | itemIds set now =>
    by_cases hid : set.id = id
    · subst hid
      exact h.itemIds now
    -- a request of another id changes nothing that is known of this one
    · have hagree : (cache.itemIds set now).2.AgreeOn id cache := agreeOn_itemIds hid
      refine h.append_of_other hagree.states hagree.mem_results_iff ?_ hid fun _ hf => hf
      rw [stepAnswers, latestLoad_append_singleton, if_neg]
      exact fun hanswer => hid hanswer.1
  | invalidate id' t =>
    rw [stepAnswers, List.append_nil]
    exact h.invalidate (fun hf => hf) fun _ => Iff.rfl
  | replace items =>
    rw [stepAnswers, List.append_nil]
    exact h.append_of_other rfl Iff.rfl rfl (fun hf => hf) fun _ hf => hf
  | track step =>
    rw [stepAnswers, List.append_nil]
    cases step with
    | invalidate id' t => exact h.invalidate (fun hf => hf) fun _ => Iff.rfl
    | invalidateAll | markEvaluated | reset | restore | refresh => exact hplain.elim

/-- A run of plain steps keeps what a cache knows in step with what was done. -/
theorem run (h : cache.Remembers id steps answers) {later : List CacheStep}
    (hplain : ∀ step ∈ later, step.IsPlain) :
    (cache.run later).Remembers id (steps ++ later) (answers ++ cache.answers later) := by
  induction later generalizing steps answers cache with
  | nil => simpa [Cache.run, Cache.answers] using h
  | cons step later ih =>
    have hstep := h.step (hplain step List.mem_cons_self)
    have hrun := ih hstep fun s hs => hplain s (List.mem_cons_of_mem _ hs)
    rw [List.append_assoc, List.append_assoc] at hrun
    exact hrun

end Remembers

/-- When a result is evaluated again, in a run that leaves the tracker to the cache but for
invalidations: when the request is earlier than the evaluation, when the result was valid for its
whole time, or when it was invalidated as of an instant later than its evaluation by a step after
the first request for the id. An invalidation before that request is forgotten. -/
theorem itemIds_run_of_isPlain (items : List Item) (calendar : Calendar) {steps : List CacheStep}
    (hplain : ∀ step ∈ steps, step.IsPlain) (set : RuleSet) (now : Instant) {earlier : Answer}
    (hearlier : latestLoad set.id ((new items calendar).answers steps) = some earlier) :
    let answer := ((new items calendar).run steps).answer set now
    (answer.loads = 1 ↔
      now < earlier.now ∨ set.refreshNanos ≤ now.elapsed earlier.now ∨
        InvalidatedLater set.id earlier.now steps) ∧
    (answer.loads = 1 →
      answer.ids = (set.select now calendar (itemsAfter items steps)).map (·.id)) ∧
    (answer.loads ≠ 1 → answer.loads = 0 ∧ answer.ids = earlier.ids) := by
  intro answer
  -- the state after the run, by the invariant; the result is there, for it was answered
  have hruns := (remembers_new items calendar set.id).run hplain
  rw [List.nil_append, List.nil_append] at hruns
  have hlatest := (holdsLatest_new items calendar).run steps set.id
  rw [List.nil_append, hearlier] at hlatest
  have hmem : set.id ∈ ((new items calendar).run steps).results := by
    rw [Std.ExtTreeMap.mem_iff_isSome_getElem?, hlatest]
    rfl
  have hstale : ((new items calendar).run steps).isStale set now = true ↔
      now < earlier.now ∨ set.refreshNanos ≤ now.elapsed earlier.now ∨
        InvalidatedLater set.id earlier.now steps := by
    rw [isStale, Std.ExtTreeMap.contains_iff_mem.mpr hmem, Bool.not_true, Bool.false_or,
      StalenessState.isStale_of_lastEvaluated (hruns.evaluated earlier hearlier),
      hruns.invalidated hmem]
  cases hc : ((new items calendar).run steps).isStale set now with
  | true =>
    have hanswer : answer = _ := answer_of_isStale hc
    rw [hanswer, ← hstale, evaluate, items_run, calendar_run]
    exact ⟨by simp [hc], fun _ => rfl, fun h => absurd rfl h⟩
  | false =>
    have hanswer : answer = _ := answer_of_not_isStale hc
    rw [hanswer, ← hstale, hlatest]
    exact ⟨by simp [hc], fun h => by simp at h, fun _ => ⟨rfl, rfl⟩⟩

/-- A result is evaluated again after an invalidation that follows its first request. -/
theorem itemIds_run_invalidated :
    let set : RuleSet := { id := "all", logic := .and }
    let first : Item := { id := "a", title := "A", collectionName := "C", dateAdded := ⟨0, 0⟩ }
    let second : Item := { first with id := "b" }
    let steps := [.itemIds set ⟨0, 0⟩, .invalidate "all" ⟨40, 0⟩, .replace [first, second]]
    let answer := ((new [first] (.utc .mon)).run steps).answer set ⟨50, 0⟩
    (∀ step ∈ steps, step.IsPlain) ∧
    latestLoad "all" ((new [first] (.utc .mon)).answers steps) =
      some ⟨"all", ⟨0, 0⟩, ["a"], 1⟩ ∧
    InvalidatedLater "all" ⟨0, 0⟩ steps ∧ answer.loads = 1 ∧ answer.ids = ["a", "b"] := by
  intro set first second steps answer
  have hplain : ∀ step ∈ steps, step.IsPlain := by
    simp [steps, CacheStep.IsPlain]
  have hlatest : latestLoad set.id ((new [first] (.utc .mon)).answers steps) =
      some ⟨"all", ⟨0, 0⟩, ["a"], 1⟩ := by decide
  have hlater : InvalidatedLater "all" ⟨0, 0⟩ steps :=
    ⟨[.itemIds set ⟨0, 0⟩], .invalidate "all" ⟨40, 0⟩, [.replace [first, second]], ⟨40, 0⟩, rfl,
      ⟨_, List.mem_singleton.mpr rfl, rfl⟩, ⟨rfl, rfl⟩, by decide⟩
  -- the invalidation follows the first request, so the cache notices it
  have hrun := itemIds_run_of_isPlain [first] (.utc .mon) hplain set ⟨50, 0⟩ hlatest
  have hloads : answer.loads = 1 := hrun.1.mpr (Or.inr (Or.inr hlater))
  exact ⟨hplain, hlatest, hlater, hloads, hrun.2.1 hloads⟩

/-- An invalidation before the first request is not noticed: although the result is evaluated for
an earlier instant than that of the invalidation, the next answer is the outdated result. -/
theorem answers_outdated :
    ¬ ∀ (items : List Item) (calendar : Calendar) (steps : List CacheStep) (set : RuleSet)
      (now : Instant) (earlier : Answer), (∀ step ∈ steps, step.IsPlain) →
      latestLoad set.id ((new items calendar).answers steps) = some earlier →
      (∃ step ∈ steps, ∃ since, step.Invalidates set.id since ∧ earlier.now < since) →
      (((new items calendar).run steps).answer set now).loads = 1 ∧
        (((new items calendar).run steps).answer set now).ids =
          (set.select now calendar (itemsAfter items steps)).map (·.id) := by
  intro h
  let set : RuleSet := { id := "all", logic := .and }
  let first : Item := { id := "a", title := "A", collectionName := "C", dateAdded := ⟨0, 0⟩ }
  let second : Item := { first with id := "b" }
  let steps : List CacheStep :=
    [.invalidate "all" ⟨40, 0⟩, .itemIds set ⟨0, 0⟩, .replace [first, second]]
  have hplain : ∀ step ∈ steps, step.IsPlain := by
    simp [steps, CacheStep.IsPlain]
  have hlatest : latestLoad set.id ((new [first] (.utc .mon)).answers steps) =
      some ⟨"all", ⟨0, 0⟩, ["a"], 1⟩ := by decide
  -- the result would have to be loaded again for the invalidation before the first request
  have houtdated := h [first] (.utc .mon) steps set ⟨50, 0⟩ _ hplain hlatest
    ⟨.invalidate "all" ⟨40, 0⟩, List.mem_cons_self, ⟨40, 0⟩, ⟨rfl, rfl⟩, by decide⟩
  have hloads : (((new [first] (.utc .mon)).run steps).answer set ⟨50, 0⟩).loads = 0 := by decide
  exact absurd (hloads.symm.trans houtdated.1) (by decide)

end Cache

end Curation
