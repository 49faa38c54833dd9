import Curation.Proofs.Staleness.History
import Curation.Proofs.Store.Logic

/-!
# Trackers that are restored

A tracker is restored as a whole or not at all. All states are read before the tracker is touched,
so that whichever document fails, and however many were read before it, the tracker stays as it
was; and nothing of what it knew stays once all of them are read.

* `TrackerChange.perform_bind_of_ok`, `TrackerChange.perform_bind_of_error`: changes step by step.
* `Repository.TellsState`, `Repository.FailsToTell`: what a store says of the state of an id.
* `Repository.perform_addStates`: reading states does nothing to the tracker.
* `Repository.restoreInto_all_or_nothing`: what a restoration answers and leaves.
-/

namespace Curation

namespace TrackerChange

variable {change : TrackerChange α} {next : α → TrackerChange β} {tracker after : Tracker}

/-- What follows a change starts from the tracker that the change leaves. -/
theorem perform_bind_of_ok {a : α} (h : change.perform tracker = (.ok a, after)) :
    (change >>= next).perform tracker = (next a).perform after := by
  rw [perform] at h
  simp only [perform, ExceptT.run_bind, StateT.run_bind, h]
  rfl

/-- What follows a change that fails is not done. -/
theorem perform_bind_of_error {failure : Failure}
    (h : change.perform tracker = (.error failure, after)) :
    (change >>= next).perform tracker = (.error failure, after) := by
  rw [perform] at h
  simp only [perform, ExceptT.run_bind, StateT.run_bind, h]
  rfl

/-- What only reads leaves the tracker as it is. -/
theorem perform_liftM {read result : Except Failure α} (h : read = result) (tracker : Tracker) :
    (liftM read : TrackerChange α).perform tracker = (result, tracker) := h ▸ rfl

end TrackerChange

namespace Repository

open TrackerChange

section Restoring

variable {σ : Type} [DocumentStore σ] {store : σ} {id : String} {state : StalenessState}
  {failure : Failure}

/-! ## What a store says of an id -/

/-- The store has a document under the id, which tells the state. -/
def TellsState (store : σ) (id : String) (state : StalenessState) : Prop :=
  ∃ document, DocumentStore.get store stalenessSpace id = .ok (some document) ∧
    decodeDocument StalenessState.ofJson? stalenessSpace document = .ok state

/-- The store cannot be asked for the id, or has a document under it that tells no state. -/
def FailsToTell (store : σ) (id : String) (failure : Failure) : Prop :=
  DocumentStore.get store stalenessSpace id = .error failure ∨
    ∃ document, DocumentStore.get store stalenessSpace id = .ok (some document) ∧
      decodeDocument StalenessState.ofJson? stalenessSpace document = .error failure

/-- A state is loaded if the document under the id tells it. -/
theorem loadStaleness_eq_some_iff :
    loadStaleness store id = .ok (some state) ↔ TellsState store id state := by
  rw [loadStaleness, load, TellsState]
  -- the store fails, has no document, or has one that is decoded or is not
  cases DocumentStore.get store stalenessSpace id with
  | error failure => simp [bind, Except.bind]
  | ok document =>
    cases document with
    | none => simp [bind, Except.bind]
    | some document =>
      cases hdecode : decodeDocument StalenessState.ofJson? stalenessSpace document <;>
        simp [bind, Except.bind, Except.map, hdecode]

/-- Loading a state fails if the store cannot be asked for it or has a document that tells none. -/
theorem loadStaleness_eq_error_iff :
    loadStaleness store id = .error failure ↔ FailsToTell store id failure := by
  rw [loadStaleness, load, FailsToTell]
  cases DocumentStore.get store stalenessSpace id with
  | error failure => simp [bind, Except.bind]
  | ok document =>
    cases document with
    | none => simp [bind, Except.bind]
    | some document =>
      cases hdecode : decodeDocument StalenessState.ofJson? stalenessSpace document <;>
        simp [bind, Except.bind, Except.map, hdecode]

/-- The state that is loaded under an id, if there is one. -/
def loaded (store : σ) (id : String) : Option StalenessState :=
  (loadStaleness store id).toOption.join

/-- The state that is loaded is the one that the document under the id tells. -/
theorem loaded_eq_some_iff : loaded store id = some state ↔ TellsState store id state := by
  rw [← loadStaleness_eq_some_iff, loaded]
  cases loadStaleness store id with
  | error failure => simp [Except.toOption]
  | ok known => simp [Except.toOption]

/-- Loading a state succeeds, with a state or without one, unless it fails. -/
theorem exists_loadStaleness_iff :
    (∃ known, loadStaleness store id = .ok known) ↔ ∀ failure, ¬ FailsToTell store id failure := by
  simp only [← loadStaleness_eq_error_iff]
  cases loadStaleness store id <;> simp

/-- If loading succeeds, it answers the state that is loaded. -/
theorem loadStaleness_eq_loaded (h : ∃ known, loadStaleness store id = .ok known) :
    loadStaleness store id = .ok (loaded store id) := by
  obtain ⟨known, hknown⟩ := h
  rw [loaded, hknown]
  rfl

/-! ## Reading the states of several ids -/

/-- The states of ids are not read if that of one of them is not, for the reason why the first such
one is not. -/
theorem loadStates_eq_error_iff {ids : List String} :
    loadStates store ids = .error failure ↔
      ∃ before id after, ids = before ++ id :: after ∧
        (∀ other ∈ before, ∃ known, loadStaleness store other = .ok known) ∧
          loadStaleness store id = .error failure := by
  refine eq_error_iff_exists_first nofun (fun id ids failure => ?_) ids failure
  rw [loadStates]
  cases loadStaleness store id with
  | error other => simp [bind, Except.bind]
  | ok known =>
    cases loadStates store ids with
    | error other => simp [bind, Except.bind]
    | ok entries => cases known <;> simp [bind, Except.bind]

/-- The states of ids are read only if that of each of them is. -/
theorem exists_loadStaleness_of_loadStates {ids : List String}
    {entries : List (String × StalenessState)} (h : loadStates store ids = .ok entries) :
    ∀ id ∈ ids, ∃ known, loadStaleness store id = .ok known := by
  induction ids generalizing entries with
  | nil => nofun
  | cons id ids ih =>
    rw [loadStates] at h
    -- a state that fails to load would make all of them fail
    cases hload : loadStaleness store id with
    | error failure =>
      rw [hload] at h
      cases h
    | ok known =>
      cases hrest : loadStates store ids with
      | error failure =>
        rw [hload, hrest] at h
        cases h
      | ok rest => exact List.forall_mem_cons.mpr ⟨⟨known, hload⟩, ih hrest⟩

/-- Adding the state of an id leaves the tracker as it is, whether the state is read or not. -/
theorem perform_addState (store : σ) (states : Std.ExtTreeMap String StalenessState) (id : String)
    (tracker : Tracker) :
    (addState store states id).perform tracker =
      ((loadStaleness store id).map fun known => (known.map (states.insert id)).getD states,
        tracker) := by
  cases hload : loadStaleness store id with
  | error failure => exact perform_bind_of_error (perform_liftM hload tracker)
  | ok known =>
    refine (perform_bind_of_ok (perform_liftM hload tracker)).trans ?_
    cases known <;> rfl

/-- Adding the states of several ids leaves the tracker as it is, wherever it stops. -/
theorem perform_addStates (store : σ) (ids : List String)
    (states : Std.ExtTreeMap String StalenessState) (tracker : Tracker) :
    (ids.foldlM (addState store) states).perform tracker =
      ((loadStates store ids).map states.insertMany, tracker) := by
  -- the states read so far vary along the ids, the tracker does not
  induction ids generalizing states with
  | nil => rfl
  | cons id ids ih =>
    have hadd := perform_addState store states id tracker
    rw [List.foldlM_cons, loadStates]
    cases hload : loadStaleness store id with
    | error failure =>
      rw [hload] at hadd
      exact perform_bind_of_error hadd
    | ok known =>
      rw [hload] at hadd
      refine ((perform_bind_of_ok hadd).trans (ih _)).trans ?_
      cases loadStates store ids with
      | error failure => rfl
      | ok entries =>
        cases known with
        | none => rfl
        | some state => exact congrArg (Except.ok ·, tracker) Std.ExtTreeMap.insertMany_cons.symm

/-! ## Restoring -/

section Outcome

variable {ids : List String}

/-- No tracker is restored without the keys. -/
theorem restoreTracker_of_keys_error
    (hkeys : DocumentStore.keys store stalenessSpace = .error failure) :
    restoreTracker store = .error failure := by
  rw [restoreTracker, hkeys]
  rfl

/-- No tracker is restored if a state cannot be loaded. -/
theorem restoreTracker_of_load_error (hkeys : DocumentStore.keys store stalenessSpace = .ok ids)
    (hload : loadStates store ids = .error failure) : restoreTracker store = .error failure := by
  rw [restoreTracker, hkeys]
  show (do return Tracker.restore (← loadStates store ids)) = _
  rw [hload]
  rfl

/-- The tracker that is restored has the states that are loaded. -/
theorem restoreTracker_of_ok {entries : List (String × StalenessState)}
    (hkeys : DocumentStore.keys store stalenessSpace = .ok ids)
    (hload : loadStates store ids = .ok entries) :
    restoreTracker store = .ok (Tracker.restore entries) := by
  rw [restoreTracker, hkeys]
  show (do return Tracker.restore (← loadStates store ids)) = _
  rw [hload]
  rfl

end Outcome

/-- What a restoration puts in place of the tracker is the tracker of all states kept. -/
theorem perform_restoreInto (store : σ) (tracker : Tracker) :
    (restoreInto store).perform tracker =
      match restoreTracker store with
      | .ok restored => (.ok (), restored)
      | .error failure => (.error failure, tracker) := by
  -- the keys are asked for first, then the states, and only then the tracker is replaced
  cases hkeys : DocumentStore.keys store stalenessSpace with
  | error failure =>
    rw [restoreTracker_of_keys_error hkeys]
    exact perform_bind_of_error (perform_liftM hkeys tracker)
  | ok ids =>
    refine (perform_bind_of_ok (perform_liftM hkeys tracker)).trans ?_
    have hadd := perform_addStates store ids ∅ tracker
    cases hload : loadStates store ids with
    | error failure =>
      rw [hload] at hadd
      rw [restoreTracker_of_load_error hkeys hload]
      exact perform_bind_of_error hadd
    | ok entries =>
      rw [hload, Except.map, ← Std.ExtTreeMap.ofList_eq_insertMany_empty] at hadd
      rw [restoreTracker_of_ok hkeys hload]
      exact perform_bind_of_ok hadd

/-- A restoration fails, for a store that does not tell its keys or for the first key that it fails
to tell a state of, and the tracker stays as it was. Or it succeeds, and the tracker knows the state
that each key has a document of, and nothing else. -/
theorem restoreInto_all_or_nothing (store : σ) (tracker : Tracker) :
    (∃ failure, (restoreInto store).perform tracker = (.error failure, tracker) ∧
      (DocumentStore.keys store stalenessSpace = .error failure ∨
        ∃ before id after, DocumentStore.keys store stalenessSpace = .ok (before ++ id :: after) ∧
          (∀ other ∈ before, ∀ failure, ¬ FailsToTell store other failure) ∧
            FailsToTell store id failure)) ∨
    ∃ ids restored, DocumentStore.keys store stalenessSpace = .ok ids ∧
      (∀ id ∈ ids, ∀ failure, ¬ FailsToTell store id failure) ∧
      (restoreInto store).perform tracker = (.ok (), restored) ∧
      restored.snapshot.Pairwise (·.1 < ·.1) ∧
      ∀ id state, (id, state) ∈ restored.snapshot ↔ id ∈ ids ∧ TellsState store id state := by
  rw [perform_restoreInto]
  cases hkeys : DocumentStore.keys store stalenessSpace with
  | error failure =>
    left
    exact ⟨failure, by rw [restoreTracker_of_keys_error hkeys], .inl rfl⟩
  | ok ids =>
    cases hload : loadStates store ids with
    | error failure =>
      obtain ⟨before, id, after, rfl, hbefore, hid⟩ := loadStates_eq_error_iff.mp hload
      left
      refine ⟨failure, ?_, .inr ⟨before, id, after, rfl, fun other hother => ?_, ?_⟩⟩
      · rw [restoreTracker_of_load_error hkeys hload]
      · exact exists_loadStaleness_iff.mp (hbefore other hother)
      · exact loadStaleness_eq_error_iff.mp hid
    | ok entries =>
      -- every state is loaded, so the entries are told by what is loaded under each id
      have hids := exists_loadStaleness_of_loadStates hload
      have hentries : loadStates store ids = .ok (Tracker.entriesOf (loaded store) ids) :=
        loadStates_eq fun id hid => loadStaleness_eq_loaded (hids id hid)
      right
      refine ⟨ids, Tracker.restore (Tracker.entriesOf (loaded store) ids), rfl,
        fun id hid => exists_loadStaleness_iff.mp (hids id hid), ?_, Tracker.pairwise_snapshot _,
        fun id state => ?_⟩
      · rw [restoreTracker_of_ok hkeys hentries]
      · rw [Tracker.mem_snapshot_iff, Tracker.getElem?_restore, ← loaded_eq_some_iff]
        simp

end Restoring

end Repository

end Curation
