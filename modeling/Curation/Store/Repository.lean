import Curation.Staleness.Tracker
import Curation.Store.Basic
import Curation.Store.Documents

/-!
# Repositories

A repository keeps records in a document store, each kind in a namespace of its own. It also keeps
what a tracker knows: one record for each id.

* `saveTracker`: keeps every state that a tracker knows.
* `restoreTracker`: the tracker that knows every state kept.
* `restoreInto`: puts what that tracker knows in place of what another one knows.
-/

namespace Curation

/-- A change of a tracker that can fail on the way. What it did to the tracker before it failed is
not undone. -/
abbrev TrackerChange := ExceptT Failure (StateM Tracker)

/-- The outcome of a change, and the tracker after it. -/
def TrackerChange.perform (change : TrackerChange α) (tracker : Tracker) :
    Except Failure α × Tracker :=
  change.run.run tracker

namespace Repository

variable {σ : Type} [DocumentStore σ]

/-- The record under a key, if there is one. -/
def load (read? : Json → Option α) (store : σ) (space key : String) :
    Except Failure (Option α) := do
  match ← DocumentStore.get store space key with
  | some document => (decodeDocument read? space document).map some
  | none => .ok none

/-- The filter set under an id, if there is one. -/
def loadFilterSet (store : σ) (id : String) : Except Failure (Option FilterSet) :=
  load FilterSet.ofJson? store filterSetSpace id

/-- Keeps a filter set under an id. -/
def saveFilterSet (store : σ) (id : String) (set : FilterSet) : Except Failure Unit × σ :=
  DocumentStore.put store filterSetSpace id set.toJson

/-- The rule set under an id, if there is one. -/
def loadRuleSet (store : σ) (id : String) : Except Failure (Option RuleSet) :=
  load RuleSet.ofJson? store ruleSetSpace id

/-- Keeps a rule set under its own id. -/
def saveRuleSet (store : σ) (set : RuleSet) : Except Failure Unit × σ :=
  DocumentStore.put store ruleSetSpace set.id set.toJson

/-- Removes the rule set under an id, and tells whether there was one. -/
def deleteRuleSet (store : σ) (id : String) : Except Failure Bool × σ :=
  DocumentStore.delete store ruleSetSpace id

/-- The ids of the rule sets kept, in ascending order. -/
def ruleSetIds (store : σ) : Except Failure (List String) :=
  DocumentStore.keys store ruleSetSpace

/-- The catalog under an id, if there is one. -/
def loadCatalog (store : σ) (id : String) : Except Failure (Option Catalog) :=
  load Catalog.ofJson? store catalogSpace id

/-- Keeps a catalog under an id. -/
def saveCatalog (store : σ) (id : String) (catalog : Catalog) : Except Failure Unit × σ :=
  DocumentStore.put store catalogSpace id catalog.toJson

/-- The state of staleness under an id, if there is one. -/
def loadStaleness (store : σ) (id : String) : Except Failure (Option StalenessState) :=
  load StalenessState.ofJson? store stalenessSpace id

/-- Keeps a state of staleness under an id. -/
def saveStaleness (store : σ) (id : String) (state : StalenessState) : Except Failure Unit × σ :=
  DocumentStore.put store stalenessSpace id state.toJson

/-- Keeps states under their ids, up to the first one that fails. -/
def saveStates (store : σ) : List (String × StalenessState) → Except Failure Unit × σ
  | [] => (.ok (), store)
  | (id, state) :: states =>
    match saveStaleness store id state with
    | (.ok (), store) => saveStates store states
    | (.error failure, store) => (.error failure, store)

/-- Keeps every state that a tracker knows. -/
def saveTracker (store : σ) (tracker : Tracker) : Except Failure Unit × σ :=
  saveStates store tracker.snapshot

/-- The states under the given ids, up to the first one that fails. -/
def loadStates (store : σ) : List String → Except Failure (List (String × StalenessState))
  | [] => .ok []
  | id :: ids => do
    let state ← loadStaleness store id
    let states ← loadStates store ids
    match state with
    | some state => .ok ((id, state) :: states)
    | none => .ok states

/-- The tracker that knows every state kept. -/
def restoreTracker (store : σ) : Except Failure Tracker := do
  let ids ← DocumentStore.keys store stalenessSpace
  return Tracker.restore (← loadStates store ids)

/-- Adds the state under an id, if there is one, to states read before. -/
def addState (store : σ) (states : Std.ExtTreeMap String StalenessState) (id : String) :
    TrackerChange (Std.ExtTreeMap String StalenessState) := do
  match ← loadStaleness store id with
  | some state => return states.insert id state
  | none => return states

/-- Puts the states kept in place of what a tracker knows. -/
def restoreInto (store : σ) : TrackerChange Unit := do
  let ids ← DocumentStore.keys store stalenessSpace
  let states ← ids.foldlM (addState store) ∅
  set (Tracker.mk states)

end Repository

end Curation
