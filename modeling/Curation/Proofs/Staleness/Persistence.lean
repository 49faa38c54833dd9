import Curation.Proofs.Staleness.Run
import Curation.Proofs.Store.Repository

/-!
# Trackers that are saved and restored

What a tracker knows after what another one knew was saved and restored. A saving keeps every state
of the tracker, but removes none: what was kept before under an id that the tracker does not know
comes back too.

* `Tracker.isWritable_run`: the states of a tracker have records, after any run.
* `Repository.restoreTracker_saveTracker`: what comes back.
* `Repository.restoreTracker_forgotten`: a state that comes back although it was forgotten.
-/

namespace Curation

namespace StalenessState

/-- The state of an id that is not known has no instants, so it can be written. -/
theorem isWritable_default : ({} : StalenessState).IsWritable := ⟨nofun, nofun⟩

/-- A state that can be written still can after an evaluation at such an instant. -/
theorem IsWritable.evaluated {state : StalenessState} (h : state.IsWritable) {t : Instant}
    (ht : t.IsWritable) : (state.evaluated t).IsWritable := by
  refine ⟨fun last hlast => ?_, h.2⟩
  cases hlast
  exact ht

theorem IsWritable.invalidate {state : StalenessState} (h : state.IsWritable) {t : Instant}
    (ht : t.IsWritable) : (state.invalidate t).IsWritable := by
  refine ⟨h.1, fun since hsince => ?_⟩
  rw [StalenessState.invalidate] at hsince
  cases hknown : state.invalidatedSince with
  | none =>
    rw [hknown] at hsince
    cases hsince
    exact ht
  | some known =>
    rw [hknown] at hsince
    cases hsince
    -- the later of the two invalidations is kept
    show (if known ≤ t then t else known).IsWritable
    split
    · exact ht
    · exact h.2 known hknown

end StalenessState

/-- Whether the instants that a step tells have texts. -/
def TrackerStep.IsWritable : TrackerStep → Prop
  | invalidate _ t | invalidateAll t | markEvaluated _ t | refresh _ _ t => t.IsWritable
  | reset _ => True
  | restore states => (Tracker.restore states).IsWritable

namespace Tracker

/-- The tracker after a run that starts with a tracker that knows no id. -/
def run (steps : List TrackerStep) : Tracker := steps.foldl step empty

/-- A tracker of such states has such states after a step with such instants. -/
theorem IsWritable.step {tracker : Tracker} (h : tracker.IsWritable) {step : TrackerStep}
    (hstep : step.IsWritable) : (tracker.step step).IsWritable := by
  intro id state hstate
  have hknown : (tracker.states[id]?.getD {}).IsWritable := by
    cases hid : tracker.states[id]? with
    | none => exact StalenessState.isWritable_default
    | some known => exact h id known hid
  -- a step that names an id gives it a state, and leaves all others what they are
  have hput {other : String} {given : StalenessState} (hgiven : given.IsWritable)
      (hstate : (if other = id then some given else tracker.states[id]?) = some state) :
      state.IsWritable := by
    split at hstate
    · exact Option.some.inj hstate ▸ hgiven
    · exact h id state hstate
  rw [getElem?_step] at hstate
  cases step with
  | invalidate other t => exact hput (hknown.invalidate hstep) hstate
  | invalidateAll t =>
    obtain ⟨known, hid, rfl⟩ := Option.map_eq_some_iff.mp hstate
    exact (h id known hid).invalidate hstep
  | markEvaluated other t => exact hput (hknown.evaluated hstep) hstate
  | reset other =>
    rw [TrackerStep.on] at hstate
    split at hstate
    · cases hstate
    · exact h id state hstate
  | restore states => exact hstep id state hstate
  | refresh other validNanos now =>
    rw [TrackerStep.on, ← apply_ite some] at hstate
    refine hput ?_ hstate
    split
    · exact hknown.evaluated hstep
    · exact hknown

/-- The states of a tracker have records after any run. -/
theorem isWritable_run {steps : List TrackerStep} (h : ∀ step ∈ steps, step.IsWritable) :
    (run steps).IsWritable := by
  have hfold : ∀ tracker : Tracker, tracker.IsWritable →
      (steps.foldl Tracker.step tracker).IsWritable := by
    induction steps with
    | nil => exact fun tracker htracker => htracker
    | cons step steps ih =>
      rw [List.forall_mem_cons] at h
      exact fun tracker htracker => ih h.2 _ (htracker.step h.1)
  exact hfold empty (by simp [IsWritable, empty])

end Tracker

namespace Repository

variable {before : List RepositoryStep} {tracker : Tracker}

/-- A tracker whose ids are all keys is kept as a whole, and what it does not know is as before. -/
theorem kept_append_saveTracker (hkeys : ∀ entry ∈ tracker.snapshot, isKey entry.1) (id : String) :
    kept (before ++ [.saveTracker tracker]) id = tracker.states[id]?.or (kept before id) := by
  rw [kept, List.foldl_append]
  show RepositoryStep.on id (kept before id) (.saveTracker tracker) = _
  rw [RepositoryStep.on, keptEntries_eq_self hkeys, Tracker.lookup_snapshot]

/-- A tracker whose ids are all keys is saved. When it is restored, what it knew comes back, each
instant as its text tells it, and so does what was last kept under ids that it did not know. It
comes back as it was if and only if nothing was kept under such an id and each instant is told as
it is. -/
theorem restoreTracker_saveTracker {steps : List TrackerStep} (hrun : Tracker.run steps = tracker)
    (hbefore : ∀ step ∈ before, step.IsWritable) (hsteps : ∀ step ∈ steps, step.IsWritable)
    (hkeys : ∀ entry ∈ tracker.snapshot, isKey entry.1) :
    ∃ saved restored,
      saveTracker (run MemoryStore.empty before) tracker = (.ok (), saved) ∧
      restoreTracker saved = .ok restored ∧
      (∀ id, restored.states[id]? =
        (tracker.states[id]?.or (kept before id)).map StalenessState.written) ∧
      (restored.snapshot = tracker.snapshot ↔
        (∀ id, tracker.states[id]? = none → kept before id = none) ∧
          ∀ entry ∈ tracker.snapshot, entry.2.written = entry.2) := by
  have hwritable : ∀ step ∈ before ++ [.saveTracker tracker], step.IsWritable := by
    rw [List.forall_mem_append, List.forall_mem_singleton]
    exact ⟨hbefore, hrun ▸ Tracker.isWritable_run hsteps⟩
  obtain ⟨restored, hrestore, hstates⟩ := restoreTracker_run hwritable
  simp only [kept_append_saveTracker hkeys] at hstates
  rw [run, List.foldl_append] at hrestore
  refine ⟨_, restored, Prod.ext (saveStates_of_isKey hkeys) rfl, hrestore, hstates, ?_⟩
  -- snapshots are the same exactly if all states are
  rw [Tracker.snapshot, Tracker.snapshot, Std.ExtTreeMap.toList_inj]
  constructor
  · intro heq
    rw [heq] at hstates
    refine ⟨fun id hid => ?_, fun ⟨id, state⟩ hentry => ?_⟩
    · have htold := hstates id
      rw [hid, Option.none_or] at htold
      exact Option.map_eq_none_iff.mp htold.symm
    · have htold := hstates id
      rw [Tracker.mem_snapshot_iff.mp hentry, Option.some_or] at htold
      exact (Option.some.inj htold).symm
  · rintro ⟨hnone, hwritten⟩
    refine Std.ExtTreeMap.ext_getElem? fun id => ?_
    rw [hstates id]
    cases hid : tracker.states[id]? with
    | none => rw [hnone id hid]; rfl
    | some state =>
      exact congrArg some (hwritten (id, state) (Tracker.mem_snapshot_iff.mpr hid))

/-- Noon of a day. -/
def noon : Instant := ⟨1736942400, 0⟩

/-- The evening of the same day. -/
def evening : Instant := ⟨1736967600, 500000000⟩

theorem isWritable_noon : noon.IsWritable := by decide +kernel

theorem isWritable_evening : evening.IsWritable := by decide +kernel

/-- A tracker that is saved over an earlier one is restored, with the states of ids that only the
store knew. -/
theorem restoreTracker_saveTracker_evening :
    ∃ saved restored,
      saveTracker
        (run MemoryStore.empty [.saveStaleness "news" ⟨some noon, none⟩,
          .saveTracker (Tracker.run [.markEvaluated "favorites" noon])])
        (Tracker.run [.markEvaluated "favorites" evening, .invalidate "inbox" noon]) =
          (.ok (), saved) ∧
      restoreTracker saved = .ok restored ∧
      restored.states["favorites"]? = some ⟨some evening, none⟩ ∧
      restored.states["inbox"]? = some ⟨none, some noon⟩ ∧
      restored.states["news"]? = some ⟨some noon, none⟩ := by
  have hbefore : ∀ step ∈ [RepositoryStep.saveStaleness "news" ⟨some noon, none⟩,
      .saveTracker (Tracker.run [.markEvaluated "favorites" noon])], step.IsWritable := by
    rw [List.forall_mem_cons, List.forall_mem_singleton]
    refine ⟨StalenessState.isWritable_default.evaluated isWritable_noon, ?_⟩
    exact Tracker.isWritable_run (List.forall_mem_singleton.mpr isWritable_noon)
  have hsteps : ∀ step ∈ [TrackerStep.markEvaluated "favorites" evening, .invalidate "inbox" noon],
      step.IsWritable := by
    rw [List.forall_mem_cons, List.forall_mem_singleton]
    exact ⟨isWritable_evening, isWritable_noon⟩
  -- what was saved last is restored, and what an earlier save left of other ids
  obtain ⟨saved, restored, hsave, hrestore, hstates, -⟩ :=
    restoreTracker_saveTracker rfl hbefore hsteps (by decide +kernel)
  refine ⟨saved, restored, hsave, hrestore, ?_, ?_, ?_⟩
  · rw [hstates]
    decide +kernel
  · rw [hstates]
    decide +kernel
  · rw [hstates]
    decide +kernel

/-- A state comes back that was saved once, although it was forgotten before the tracker was saved
again: its result counts as fresh. -/
theorem restoreTracker_forgotten :
    ∃ saved restored,
      saveTracker
        (run MemoryStore.empty [.saveTracker (Tracker.run [.markEvaluated "favorites" noon])])
        (Tracker.run [.markEvaluated "favorites" noon, .reset "favorites"]) = (.ok (), saved) ∧
      restoreTracker saved = .ok restored ∧
      restored.snapshot ≠
        (Tracker.run [.markEvaluated "favorites" noon, .reset "favorites"]).snapshot ∧
      restored.shouldReevaluate "favorites" (24 * 3600 * Instant.nanos) evening = false := by
  let forgotten := Tracker.run [.markEvaluated "favorites" noon, .reset "favorites"]
  have hwritable : ∀ step ∈ [RepositoryStep.saveTracker
      (Tracker.run [.markEvaluated "favorites" noon]), .saveTracker forgotten],
      step.IsWritable := by
    rw [List.forall_mem_cons, List.forall_mem_singleton]
    refine ⟨Tracker.isWritable_run (List.forall_mem_singleton.mpr isWritable_noon),
      Tracker.isWritable_run ?_⟩
    rw [List.forall_mem_cons, List.forall_mem_singleton]
    exact ⟨isWritable_noon, trivial⟩
  obtain ⟨restored, hrestore, hstates⟩ := restoreTracker_run hwritable
  -- the reset removes no document, so the state of the first save is restored
  have hstate : restored.states["favorites"]? = some ⟨some noon, none⟩ := by
    rw [hstates]
    decide +kernel
  have hkeys : ∀ entry ∈ forgotten.snapshot, isKey entry.1 := by decide +kernel
  refine ⟨_, restored, Prod.ext (saveStates_of_isKey hkeys) rfl, hrestore, ?_, ?_⟩
  · intro heq
    have hnone : forgotten.states["favorites"]? = none := by decide +kernel
    rw [Tracker.snapshot, Tracker.snapshot, Std.ExtTreeMap.toList_inj] at heq
    rw [heq, hnone] at hstate
    cases hstate
  · rw [Tracker.shouldReevaluate, Tracker.state, hstate]
    decide +kernel

end Repository

end Curation
