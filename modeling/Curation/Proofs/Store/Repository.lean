import Curation.Proofs.Record.Staleness
import Curation.Proofs.Store.Memory
import Curation.Store.Repository

/-!
# Runs of repositories

What a repository over a store in memory keeps of the staleness of results, after any number of
changes.

* `RepositoryStep`: what callers can do to change the store.
* `Repository.kept`: the state last kept under an id.
* `Repository.loadStaleness_run`: that state is loaded.
* `Repository.restoreTracker_run`: a tracker that is restored knows every state kept, and no other.
-/

namespace Curation

/-- What is looked up is an entry. -/
theorem mem_of_lookup_eq_some {entries : List (String × α)} {id : String} {a : α}
    (h : entries.lookup id = some a) : (id, a) ∈ entries := by
  obtain ⟨before, after, rfl, -⟩ := List.lookup_eq_some_iff.mp h
  exact List.mem_append_right before List.mem_cons_self

namespace Tracker

/-- The trackers whose states have records that tell their instants. -/
def IsWritable (tracker : Tracker) : Prop :=
  ∀ (id : String) (state : StalenessState), tracker.states[id]? = some state → state.IsWritable

/-- The entries of a snapshot are the states of the tracker. -/
theorem mem_snapshot_iff {tracker : Tracker} {id : String} {state : StalenessState} :
    (id, state) ∈ tracker.snapshot ↔ tracker.states[id]? = some state :=
  Std.ExtTreeMap.mem_toList_iff_getElem?_eq_some

/-- Every id is told once. -/
theorem distinct_snapshot (tracker : Tracker) : tracker.snapshot.Pairwise (·.1 ≠ ·.1) :=
  tracker.states.distinct_keys_toList.imp fun hne heq =>
    hne (Std.LawfulEqOrd.compare_eq_iff_eq.mpr heq)

/-- The state of an id is the one that is told with it. -/
theorem lookup_snapshot (tracker : Tracker) (id : String) :
    tracker.snapshot.lookup id = tracker.states[id]? := by
  cases h : tracker.snapshot.lookup id with
  | none =>
    rw [List.lookup_eq_none_iff] at h
    refine (Option.eq_none_iff_forall_ne_some.mpr fun state hstate => ?_).symm
    simpa using h (id, state) (mem_snapshot_iff.mpr hstate)
  | some state => exact (mem_snapshot_iff.mp (mem_of_lookup_eq_some h)).symm

/-- The entries of several ids, for those of which something is known. -/
def entriesOf (known : String → Option StalenessState) (ids : List String) :
    List (String × StalenessState) :=
  ids.filterMap fun id => (known id).map (id, ·)

section Restore

variable {known : String → Option StalenessState}

/-- What is known of several ids replaces the states that they had. -/
theorem getElem?_insertMany_entriesOf (ids : List String)
    (states : Std.ExtTreeMap String StalenessState) (id : String) :
    (states.insertMany (entriesOf known ids))[id]? =
      if id ∈ ids then (known id).or states[id]? else states[id]? := by
  induction ids generalizing states with
  | nil => rfl
  | cons other ids ih =>
    cases hother : known other with
    | none =>
      rw [entriesOf, List.filterMap_cons_none (by rw [hother]; rfl), ← entriesOf, ih]
      by_cases hid : id = other <;> simp [hid, hother]
    | some state =>
      rw [entriesOf, List.filterMap_cons_some (by rw [hother]; rfl), ← entriesOf,
        Std.ExtTreeMap.insertMany_cons, ih, Std.ExtTreeMap.getElem?_insert]
      -- an id that is listed again has the same state
      by_cases hid : other = id
      · simp [← hid, hother]
      · simp [hid, Ne.symm hid]

/-- A tracker that is restored from what is known of several ids knows just that. -/
theorem getElem?_restore (ids : List String) (id : String) :
    (restore (entriesOf known ids)).states[id]? = if id ∈ ids then known id else none := by
  rw [restore, Std.ExtTreeMap.ofList_eq_insertMany_empty, getElem?_insertMany_entriesOf]
  simp

end Restore

end Tracker

/-- A step of a repository that changes its store; all others only read it. -/
inductive RepositoryStep where
  | saveFilterSet (id : String) (set : FilterSet)
  | saveRuleSet (set : RuleSet)
  | deleteRuleSet (id : String)
  | saveCatalog (id : String) (catalog : Catalog)
  | saveStaleness (id : String) (state : StalenessState)
  | saveTracker (tracker : Tracker)

/-- Whether the states that a step keeps have records that tell their instants. -/
def RepositoryStep.IsWritable : RepositoryStep → Prop
  | saveStaleness _ state => state.IsWritable
  | saveTracker tracker => tracker.IsWritable
  | saveFilterSet _ _ | saveRuleSet _ | deleteRuleSet _ | saveCatalog _ _ => True

/-- Whether a step saves a state under an id. -/
def RepositoryStep.Saves (id : String) (state : StalenessState) : RepositoryStep → Prop
  | saveStaleness other saved => other = id ∧ saved = state
  | saveTracker tracker => tracker.states[id]? = some state
  | saveFilterSet _ _ | saveRuleSet _ | deleteRuleSet _ | saveCatalog _ _ => False

/-- The states that are kept when a list of states is saved: those before the first id that is no
key. -/
def keptEntries (states : List (String × StalenessState)) : List (String × StalenessState) :=
  states.takeWhile fun entry => isKey entry.1

/-- A state under a key is kept, and so may be those that follow. -/
theorem keptEntries_cons_of_isKey {id : String} (h : isKey id) (state : StalenessState)
    (states : List (String × StalenessState)) :
    keptEntries ((id, state) :: states) = (id, state) :: keptEntries states :=
  List.takeWhile_cons_of_pos h

/-- Nothing is kept from the first id on that is no key. -/
theorem keptEntries_cons_of_not_isKey {id : String} (h : ¬ isKey id) (state : StalenessState)
    (states : List (String × StalenessState)) : keptEntries ((id, state) :: states) = [] :=
  List.takeWhile_cons_of_neg h

/-- All entries are kept if their ids are keys. -/
theorem keptEntries_eq_self {states : List (String × StalenessState)}
    (h : ∀ entry ∈ states, isKey entry.1) : keptEntries states = states := by
  induction states with
  | nil => rfl
  | cons entry states ih =>
    rw [List.forall_mem_cons] at h
    rw [keptEntries_cons_of_isKey h.1, ih h.2]

/-- Entries that are kept are states under keys. -/
theorem mem_of_mem_keptEntries {states : List (String × StalenessState)} {id : String}
    {state : StalenessState} (h : (id, state) ∈ keptEntries states) :
    isKey id ∧ (id, state) ∈ states := by
  have hall : (keptEntries states).all fun entry => isKey entry.1 := List.all_takeWhile
  exact ⟨List.all_eq_true.mp hall _ h, (List.takeWhile_sublist _).subset h⟩

/-- What a step does to the state kept under a single id. -/
def RepositoryStep.on (id : String) (kept : Option StalenessState) :
    RepositoryStep → Option StalenessState
  | saveStaleness other state => if isKey other ∧ other = id then some state else kept
  | saveTracker tracker => ((keptEntries tracker.snapshot).lookup id).or kept
  | saveFilterSet _ _ | saveRuleSet _ | deleteRuleSet _ | saveCatalog _ _ => kept

namespace RepositoryStep

variable {step : RepositoryStep} {id : String} {state : StalenessState}

/-- A step saves a state that can be written, if all its instants can. -/
theorem Saves.isWritable (h : step.Saves id state) (hstep : step.IsWritable) :
    state.IsWritable := by
  cases step with
  | saveStaleness other saved =>
    obtain ⟨-, rfl⟩ := h
    exact hstep
  | saveTracker tracker => exact hstep id state h
  | saveFilterSet | saveRuleSet | deleteRuleSet | saveCatalog => cases h

/-- A state that is kept after a step was kept before it, or is saved by it under a key. -/
theorem on_eq_some {kept : Option StalenessState} (h : step.on id kept = some state) :
    kept = some state ∨ isKey id ∧ step.Saves id state := by
  cases step with
  | saveStaleness other saved =>
    rw [on] at h
    split at h
    · next hother =>
      obtain ⟨hkey, rfl⟩ := hother
      exact .inr ⟨hkey, rfl, Option.some.inj h⟩
    · exact .inl h
  | saveTracker tracker =>
    rw [on, Option.or_eq_some_iff] at h
    rcases h with h | ⟨-, h⟩
    -- the state is an entry of the snapshot, under an id that is a key
    · have hkept := mem_of_mem_keptEntries (mem_of_lookup_eq_some h)
      exact .inr ⟨hkept.1, Tracker.mem_snapshot_iff.mp hkept.2⟩
    · exact .inl h
  | saveFilterSet | saveRuleSet | deleteRuleSet | saveCatalog => exact .inl h

end RepositoryStep

namespace Repository

section Steps

variable {σ : Type} [DocumentStore σ]

/-- The store after a step. -/
def step (store : σ) : RepositoryStep → σ
  | .saveFilterSet id set => (saveFilterSet store id set).2
  | .saveRuleSet set => (saveRuleSet store set).2
  | .deleteRuleSet id => (deleteRuleSet store id).2
  | .saveCatalog id catalog => (saveCatalog store id catalog).2
  | .saveStaleness id state => (saveStaleness store id state).2
  | .saveTracker tracker => (saveTracker store tracker).2

/-- The store after a run. -/
def run (store : σ) (steps : List RepositoryStep) : σ := steps.foldl step store

/-- The state last kept under an id in a run. -/
def kept (steps : List RepositoryStep) (id : String) : Option StalenessState :=
  steps.foldl (fun kept step => step.on id kept) none

/-- The states under several ids are those that are loaded under each of them. -/
theorem loadStates_eq {store : σ} {known : String → Option StalenessState} {ids : List String}
    (h : ∀ id ∈ ids, loadStaleness store id = .ok (known id)) :
    loadStates store ids = .ok (Tracker.entriesOf known ids) := by
  induction ids with
  | nil => rfl
  | cons id ids ih =>
    rw [List.forall_mem_cons] at h
    rw [loadStates, h.1, ih h.2]
    simp only [Tracker.entriesOf, List.filterMap_cons]
    cases known id <;> rfl

end Steps

section Memory

variable {store : MemoryStore}

/-- The namespace of states is a key. -/
theorem isKey_stalenessSpace : isKey stalenessSpace := by decide

/-- A state is saved under a key. -/
theorem saveStaleness_of_isKey {id : String} (h : isKey id) (state : StalenessState) :
    saveStaleness store id state =
      (.ok (), ⟨store.documents.insert [stalenessSpace, id] state.toJson⟩) :=
  MemoryStore.put_of_isKey isKey_stalenessSpace h _

/-- A state is not saved under an id that is no key, and nothing changes. -/
theorem saveStaleness_of_not_isKey {id : String} (h : ¬ isKey id) (state : StalenessState) :
    saveStaleness store id state = (.error (.invalidKey id), store) :=
  MemoryStore.put_of_not_isKey isKey_stalenessSpace h _

/-- Saving states succeeds if all their ids are keys. -/
theorem saveStates_of_isKey {states : List (String × StalenessState)}
    (h : ∀ entry ∈ states, isKey entry.1) : (saveStates store states).1 = .ok () := by
  induction states generalizing store with
  | nil => rfl
  | cons entry states ih =>
    rw [List.forall_mem_cons] at h
    rw [saveStates, saveStaleness_of_isKey h.1]
    exact ih h.2

/-- Saving states keeps each of them under its id, up to the first id that is no key. -/
theorem getElem?_saveStates {states : List (String × StalenessState)}
    (hdistinct : states.Pairwise (·.1 ≠ ·.1)) (id : String) :
    (saveStates store states).2.documents[[stalenessSpace, id]]? =
      (((keptEntries states).lookup id).map StalenessState.toJson).or
        store.documents[[stalenessSpace, id]]? := by
  induction states generalizing store with
  | nil => rfl
  | cons entry states ih =>
    obtain ⟨other, state⟩ := entry
    rw [List.pairwise_cons] at hdistinct
    by_cases hkey : isKey other
    · rw [saveStates, saveStaleness_of_isKey hkey, keptEntries_cons_of_isKey hkey]
      simp only
      rw [ih hdistinct.2]
      by_cases hid : id = other
      · -- the state is not told again by the entries that follow
        have hnone : (keptEntries states).lookup id = none := by
          rw [List.lookup_eq_none_iff]
          intro entry hentry
          have := hdistinct.1 entry ((List.takeWhile_sublist _).subset hentry)
          simpa [hid] using this
        rw [hnone, hid, List.lookup_cons_self]
        simp
      · rw [List.lookup_cons, beq_eq_false_iff_ne.mpr hid]
        congr 1
        simp [Std.ExtTreeMap.getElem?_insert, Ne.symm hid]
    · rw [saveStates, saveStaleness_of_not_isKey hkey, keptEntries_cons_of_not_isKey hkey]
      rfl

/-- Documents of different namespaces have different paths. -/
theorem ne_path {space other : String} (h : space ≠ other) (key id : String) :
    [space, key] ≠ [other, id] := fun hpath => h (List.cons.inj hpath).1

/-- What is put in a namespace leaves the documents of another one as they are. -/
theorem getElem?_put_of_ne {space other : String} (h : space ≠ other) (key id : String)
    (document : Json) :
    (store.put space key document).2.documents[[other, id]]? =
      store.documents[[other, id]]? := by
  rw [MemoryStore.getElem?_put, if_neg fun hput => ne_path h key id hput.2]

/-- A step acts on the state kept under every id by itself. -/
theorem getElem?_step {step : RepositoryStep} {id : String} {kept : Option StalenessState}
    (h : store.documents[[stalenessSpace, id]]? = kept.map StalenessState.toJson) :
    (Repository.step store step).documents[[stalenessSpace, id]]? =
      (step.on id kept).map StalenessState.toJson := by
  cases step with
  -- records of other kinds are kept in other namespaces
  | saveFilterSet key set => exact (getElem?_put_of_ne (by decide) _ _ _).trans h
  | saveRuleSet set => exact (getElem?_put_of_ne (by decide) _ _ _).trans h
  | deleteRuleSet key =>
    refine (MemoryStore.getElem?_delete ..).trans ((if_neg fun hdelete => ?_).trans h)
    exact ne_path (by decide) _ _ hdelete.2
  | saveCatalog key catalog => exact (getElem?_put_of_ne (by decide) _ _ _).trans h
  | saveStaleness other state =>
    rw [RepositoryStep.on, apply_ite (Option.map _), ← h]
    refine (MemoryStore.getElem?_put ..).trans ?_
    simp [isKey_stalenessSpace]
  | saveTracker tracker =>
    rw [Repository.step, saveTracker, getElem?_saveStates tracker.distinct_snapshot,
      RepositoryStep.on, h]
    cases (keptEntries tracker.snapshot).lookup id <;> rfl

/-- A run keeps the state last kept under every id. -/
theorem getElem?_run (steps : List RepositoryStep) (id : String) :
    (run MemoryStore.empty steps).documents[[stalenessSpace, id]]? =
      (kept steps id).map StalenessState.toJson := by
  -- the document and the state kept agree from any start, so both folds go step by step
  have hfold : ∀ (store : MemoryStore) (known : Option StalenessState),
      store.documents[[stalenessSpace, id]]? = known.map StalenessState.toJson →
      (run store steps).documents[[stalenessSpace, id]]? =
        (steps.foldl (fun kept step => step.on id kept) known).map StalenessState.toJson := by
    induction steps with
    | nil => exact fun store known h => h
    | cons step steps ih => exact fun store known h => ih _ _ (getElem?_step h)
  exact hfold _ _ (by simp [MemoryStore.empty])

/-- A state that is kept was saved under a key. -/
theorem exists_of_kept {steps : List RepositoryStep} {id : String} {state : StalenessState}
    (h : kept steps id = some state) : isKey id ∧ ∃ step ∈ steps, step.Saves id state := by
  -- the state was kept before the steps or is saved by one of them, whatever was kept before
  have hfold : ∀ known : Option StalenessState,
      steps.foldl (fun kept step => step.on id kept) known = some state →
      known = some state ∨ isKey id ∧ ∃ step ∈ steps, step.Saves id state := by
    clear h
    induction steps with
    | nil => exact fun known h => .inl h
    | cons step steps ih =>
      intro known h
      rcases ih _ h with h | ⟨hkey, other, hother, hsaves⟩
      · rcases RepositoryStep.on_eq_some h with h | ⟨hkey, hsaves⟩
        · exact .inl h
        · exact .inr ⟨hkey, step, List.mem_cons_self, hsaves⟩
      · exact .inr ⟨hkey, other, List.mem_cons_of_mem _ hother, hsaves⟩
  rcases hfold none h with h | h
  · cases h
  · exact h

section Reading

variable {steps : List RepositoryStep}

/-- What the state last kept under a key tells is loaded. -/
theorem loadStaleness_run (hsteps : ∀ step ∈ steps, step.IsWritable) {id : String}
    (hid : isKey id) :
    loadStaleness (run MemoryStore.empty steps) id =
      .ok ((kept steps id).map StalenessState.written) := by
  have hget : DocumentStore.get (run MemoryStore.empty steps) stalenessSpace id =
      .ok ((kept steps id).map StalenessState.toJson) :=
    (MemoryStore.get_of_isKey isKey_stalenessSpace hid).trans (congrArg _ (getElem?_run steps id))
  rw [loadStaleness, load, hget]
  cases hkept : kept steps id with
  | none => rfl
  | some state =>
    obtain ⟨-, step, hstep, hsaves⟩ := exists_of_kept hkept
    have hread := StalenessState.ofJson?_toJson (hsaves.isWritable (hsteps step hstep))
    -- no predicates are combined in the record of a state
    have hholders : logicHolders stalenessSpace state.toJson = [] := by
      rw [logicHolders, if_neg (by decide), if_neg (by decide)]
    show (decodeDocument _ _ state.toJson).map some = _
    rw [decodeDocument, hholders, hread]
    rfl

/-- After any run, a tracker that is restored knows what every state kept tells, and nothing
else. -/
theorem restoreTracker_run (hsteps : ∀ step ∈ steps, step.IsWritable) :
    ∃ restored, restoreTracker (run MemoryStore.empty steps) = .ok restored ∧
      ∀ id, restored.states[id]? = (kept steps id).map StalenessState.written := by
  let store := run MemoryStore.empty steps
  let ids := store.documents.keys.filterMap (MemoryStore.keyOf? stalenessSpace)
  have hids : DocumentStore.keys store stalenessSpace = .ok ids :=
    MemoryStore.keys_of_isKey isKey_stalenessSpace
  -- the keys told are those of states kept, so that each of them is loaded
  have hmem : ∀ id, id ∈ ids ↔ (kept steps id).isSome := by
    intro id
    rw [MemoryStore.mem_keysOf, Std.ExtTreeMap.mem_iff_isSome_getElem?, getElem?_run,
      Option.isSome_map]
  have hload : ∀ id ∈ ids, loadStaleness store id =
      .ok ((kept steps id).map StalenessState.written) := by
    intro id hid
    obtain ⟨state, hstate⟩ := Option.isSome_iff_exists.mp ((hmem id).mp hid)
    exact loadStaleness_run hsteps (exists_of_kept hstate).1
  refine ⟨Tracker.restore (Tracker.entriesOf (fun id => (kept steps id).map .written) ids), ?_,
    fun id => ?_⟩
  · rw [restoreTracker, hids]
    show (do return Tracker.restore (← loadStates store ids)) = _
    rw [loadStates_eq hload]
    rfl
  · rw [Tracker.getElem?_restore]
    split
    · rfl
    · next hid =>
      rw [hmem, Option.not_isSome_iff_eq_none] at hid
      rw [hid, Option.map_none]

end Reading

end Memory

end Repository

end Curation
