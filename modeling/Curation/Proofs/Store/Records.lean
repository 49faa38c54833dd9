import Mathlib.Data.List.Induction
import Curation.Proofs.Record.Rules
import Curation.Proofs.Store.Logic
import Curation.Proofs.Store.Repository

/-!
# Records of repositories

A repository over a store in memory answers, after any run, the record that was last kept of a kind
under a key. The four kinds share keys, but not documents.

* `RecordKind`: a kind of records, with what the steps of a repository do to those of the kind.
* `RecordKind.kept`: the record last kept under a key.
* `RecordKind.load_run`: that record is loaded.
* `Repository.records_run`: what a repository answers after a run, for all kinds.
-/

namespace Curation

section Decoding

/-- A document is decoded if every way to combine predicates in it is told, and its record read. -/
theorem decodeDocument_eq_ok {read? : Json → Option α} {space : String} {document : Json} {a : α}
    (hholders : ∀ holder ∈ logicHolders space document, checkHolder holder = .ok ())
    (hread : read? document = some a) : decodeDocument read? space document = .ok a := by
  rw [decodeDocument_of_ok (checkHolders_eq_ok_iff.mpr hholders), hread]

/-- The record of a combination names it, so it is not refused. -/
theorem checkLogic_toJson (logic : Combination) : checkLogic logic.toJson = .ok () := by
  rw [Combination.toJson, checkLogic, Combination.ofText, logic.ofText?_name]
  rfl

/-- A document whose member `logic` names a combination is not refused. -/
theorem checkHolder_eq_ok {document : Json} (logic : Combination)
    (h : document.get? "logic" = some logic.toJson) : checkHolder document = .ok () := by
  rw [checkHolder, h]
  exact checkLogic_toJson logic

/-- The record of a filter set is decoded to it. -/
theorem FilterSet.decodeDocument_toJson (set : FilterSet) :
    decodeDocument ofJson? filterSetSpace set.toJson = .ok set := by
  refine decodeDocument_eq_ok (fun holder hholder => ?_) set.ofJson?_toJson
  rw [logicHolders, if_pos (.inl rfl), List.mem_singleton] at hholder
  exact hholder ▸ checkHolder_eq_ok set.logic rfl

theorem RuleSet.checkHolder_toJson (set : RuleSet) : checkHolder set.toJson = .ok () := by
  refine checkHolder_eq_ok set.logic ?_
  rw [toJson_eq_object]
  exact set.lookup_logic

/-- The record of a rule set is decoded to it if records tell its operands. -/
theorem RuleSet.decodeDocument_toJson {set : RuleSet} (h : set.IsFaithful) :
    decodeDocument ofJson? ruleSetSpace set.toJson = .ok set := by
  refine decodeDocument_eq_ok (fun holder hholder => ?_) (ofJson?_toJson h)
  rw [logicHolders, if_pos (.inr rfl), List.mem_singleton] at hholder
  exact hholder ▸ set.checkHolder_toJson

/-- The ways to combine predicates of a catalog are those of its rule sets, whatever the names of
the collections. -/
theorem Catalog.decodeDocument_toJson {catalog : Catalog} (h : catalog.IsFaithful) :
    decodeDocument ofJson? catalogSpace catalog.toJson = .ok catalog := by
  refine decodeDocument_eq_ok (fun holder hholder => ?_) (ofJson?_toJson h)
  rw [logicHolders, if_neg (by decide), if_pos rfl, List.mem_append] at hholder
  -- what is checked is the record of the global rule set or of an override
  rcases hholder with hglobal | hoverride
  · obtain rfl : holder = catalog.global.toJson := by
      simpa [toJson, Json.get?, List.lookup_cons] using hglobal
    exact catalog.global.checkHolder_toJson
  · obtain ⟨entry, -, rfl⟩ : ∃ entry ∈ catalog.overrides.toList, entry.2.toJson = holder := by
      simpa [toJson, Json.get?, memberValues] using hoverride
    exact entry.2.checkHolder_toJson

/-- The record of a state is decoded to it if records tell its instants. -/
theorem StalenessState.decodeDocument_toJson {state : StalenessState} (h : state.IsFaithful) :
    decodeDocument ofJson? stalenessSpace state.toJson = .ok state := by
  refine decodeDocument_eq_ok (fun holder hholder => ?_) (ofJson?_toJson_of_isFaithful h)
  rw [logicHolders, if_neg (by decide), if_neg (by decide)] at hholder
  cases hholder

end Decoding

namespace RepositoryStep

/-- The namespace of the records that a step keeps or removes. -/
def space : RepositoryStep → String
  | saveFilterSet _ _ => filterSetSpace
  | saveRuleSet _ | deleteRuleSet _ => ruleSetSpace
  | saveCatalog _ _ => catalogSpace
  | saveStaleness _ _ | saveTracker _ => stalenessSpace

/-- Whether the records that a step keeps have a written form. -/
def IsFaithful : RepositoryStep → Prop
  | saveRuleSet set => set.IsFaithful
  | saveCatalog _ catalog => catalog.IsFaithful
  | saveStaleness _ state => state.IsFaithful
  | saveTracker tracker =>
    ∀ (id : String) (state : StalenessState), tracker.states[id]? = some state → state.IsFaithful
  | saveFilterSet _ _ | deleteRuleSet _ => True

end RepositoryStep

namespace Repository

/-- States that are saved leave the documents of other namespaces as they are. -/
theorem getElem?_saveStates_of_ne {store : MemoryStore} {space : String}
    (h : stalenessSpace ≠ space) (states : List (String × StalenessState)) (id : String) :
    (saveStates store states).2.documents[[space, id]]? = store.documents[[space, id]]? := by
  induction states generalizing store with
  | nil => rfl
  | cons entry states ih =>
    by_cases hkey : isKey entry.1
    · rw [saveStates, saveStaleness_of_isKey hkey]
      exact ih.trans (by simp [Std.ExtTreeMap.getElem?_insert, h])
    · rw [saveStates, saveStaleness_of_not_isKey hkey]

/-- A step leaves the documents of other namespaces as they are. -/
theorem getElem?_step_of_ne {store : MemoryStore} {step : RepositoryStep} {space : String}
    (h : step.space ≠ space) (id : String) :
    (Repository.step store step).documents[[space, id]]? = store.documents[[space, id]]? := by
  cases step with
  | saveFilterSet | saveRuleSet | saveCatalog | saveStaleness => exact getElem?_put_of_ne h ..
  | deleteRuleSet =>
    exact (MemoryStore.getElem?_delete ..).trans (if_neg fun hdelete => ne_path h _ _ hdelete.2)
  | saveTracker tracker => exact getElem?_saveStates_of_ne h ..

end Repository

/-- What a change makes of a record: none leaves it as it is, `some none` removes it. -/
abbrev RecordChange (α : Type) := Option (Option α)

/-- The record after a change. -/
def RecordChange.on (change : RecordChange α) (kept : Option α) : Option α := change.getD kept

/-- The record under an id is replaced or removed if the id is a key and the one told. -/
def changeAt (id other : String) (record : Option α) : RecordChange α :=
  if isKey other ∧ other = id then some record else none

/-- A change at an id changes no other one. -/
theorem eq_of_changeAt {id other : String} {record change : Option α}
    (h : changeAt id other record = some change) : record = change := by
  rw [changeAt] at h
  split at h
  · exact Option.some.inj h
  · cases h

/-- A change under a key is one in the place of the namespace and the key. -/
theorem on_changeAt {space : String} (hspace : isKey space) (write : α → Json) (id other : String)
    (record : Option α) (document : Option Json) :
    RecordChange.on ((changeAt id other record).map (·.map write)) document =
      if (isKey space ∧ isKey other) ∧ [space, other] = [space, id] then record.map write
      else document := by
  rw [changeAt]
  by_cases h : isKey other ∧ other = id
  · obtain ⟨hkey, rfl⟩ := h
    simp [hspace, hkey, RecordChange.on]
  · simp [hspace, h, RecordChange.on]

namespace MemoryStore

variable {store : MemoryStore} {space : String}

/-- What is put under a key changes the document under this key. -/
theorem getElem?_put_eq_on (hspace : isKey space) (write : α → Json) (other : String) (record : α)
    (id : String) : (store.put space other (write record)).2.documents[[space, id]]? =
      RecordChange.on ((changeAt id other (some record)).map (·.map write))
        store.documents[[space, id]]? := by
  rw [getElem?_put, on_changeAt hspace, Option.map_some]

/-- What is deleted under a key changes the document under this key. -/
theorem getElem?_delete_eq_on (hspace : isKey space) (write : α → Json) (other id : String) :
    (store.delete space other).2.documents[[space, id]]? =
      RecordChange.on ((changeAt id other none).map (·.map write))
        store.documents[[space, id]]? := by
  rw [getElem?_delete, on_changeAt hspace, Option.map_none]

end MemoryStore

/-- A kind of records, which have a namespace of their own. -/
structure RecordKind (α : Type) where
  /-- The namespace. -/
  space : String
  isKey_space : isKey space
  /-- The document of a record. -/
  write : α → Json
  /-- Reads a record. -/
  read? : Json → Option α
  /-- Whether a record has a written form. -/
  IsFaithful : α → Prop
  /-- Such a record is read from its document. -/
  decodeDocument_write {record : α} (h : IsFaithful record) :
    decodeDocument read? space (write record) = .ok record
  /-- What a step makes of the record under an id. -/
  change : String → RepositoryStep → RecordChange α
  isFaithful_of_change {id : String} {step : RepositoryStep} {record : α}
    (h : change id step = some (some record)) (hstep : step.IsFaithful) : IsFaithful record
  /-- A step does nothing else to the documents of the kind. -/
  getElem?_step (store : MemoryStore) (step : RepositoryStep) (id : String) :
    (Repository.step store step).documents[[space, id]]? =
      RecordChange.on ((change id step).map (·.map write)) store.documents[[space, id]]?

namespace RecordKind

def filterSets : RecordKind FilterSet where
  space := filterSetSpace
  isKey_space := by decide
  write := FilterSet.toJson
  read? := FilterSet.ofJson?
  IsFaithful _ := True
  decodeDocument_write _ := FilterSet.decodeDocument_toJson _
  change id
    | .saveFilterSet other set => changeAt id other (some set)
    | .saveRuleSet _ | .deleteRuleSet _ | .saveCatalog _ _ | .saveStaleness _ _
    | .saveTracker _ => none
  isFaithful_of_change _ _ := trivial
  getElem?_step store step id := by
    cases step with
    | saveFilterSet => exact MemoryStore.getElem?_put_eq_on (by decide) FilterSet.toJson ..
    | _ => exact Repository.getElem?_step_of_ne (by rw [RepositoryStep.space]; decide) id

def ruleSets : RecordKind RuleSet where
  space := ruleSetSpace
  isKey_space := by decide
  write := RuleSet.toJson
  read? := RuleSet.ofJson?
  IsFaithful := RuleSet.IsFaithful
  decodeDocument_write := RuleSet.decodeDocument_toJson
  change id
    | .saveRuleSet set => changeAt id set.id (some set)
    | .deleteRuleSet other => changeAt id other none
    | .saveFilterSet _ _ | .saveCatalog _ _ | .saveStaleness _ _ | .saveTracker _ => none
  isFaithful_of_change {id step record} h hstep := by
    cases step with
    | saveRuleSet set => exact Option.some.inj (eq_of_changeAt h) ▸ hstep
    | deleteRuleSet other => cases eq_of_changeAt h
    | _ => cases h
  getElem?_step store step id := by
    cases step with
    | saveRuleSet => exact MemoryStore.getElem?_put_eq_on (by decide) RuleSet.toJson ..
    | deleteRuleSet => exact MemoryStore.getElem?_delete_eq_on (by decide) RuleSet.toJson ..
    | _ => exact Repository.getElem?_step_of_ne (by rw [RepositoryStep.space]; decide) id

def catalogs : RecordKind Catalog where
  space := catalogSpace
  isKey_space := by decide
  write := Catalog.toJson
  read? := Catalog.ofJson?
  IsFaithful := Catalog.IsFaithful
  decodeDocument_write := Catalog.decodeDocument_toJson
  change id
    | .saveCatalog other catalog => changeAt id other (some catalog)
    | .saveFilterSet _ _ | .saveRuleSet _ | .deleteRuleSet _ | .saveStaleness _ _
    | .saveTracker _ => none
  isFaithful_of_change {id step record} h hstep := by
    cases step with
    | saveCatalog other catalog => exact Option.some.inj (eq_of_changeAt h) ▸ hstep
    | _ => cases h
  getElem?_step store step id := by
    cases step with
    | saveCatalog => exact MemoryStore.getElem?_put_eq_on (by decide) Catalog.toJson ..
    | _ => exact Repository.getElem?_step_of_ne (by rw [RepositoryStep.space]; decide) id

/-- States of staleness; a tracker saves its states up to the first one whose id is no key. -/
def staleness : RecordKind StalenessState where
  space := stalenessSpace
  isKey_space := Repository.isKey_stalenessSpace
  write := StalenessState.toJson
  read? := StalenessState.ofJson?
  IsFaithful := StalenessState.IsFaithful
  decodeDocument_write := StalenessState.decodeDocument_toJson
  change id
    | .saveStaleness other state => changeAt id other (some state)
    | .saveTracker tracker => ((keptEntries tracker.snapshot).lookup id).map some
    | .saveFilterSet _ _ | .saveRuleSet _ | .deleteRuleSet _ | .saveCatalog _ _ => none
  isFaithful_of_change {id step record} h hstep := by
    cases step with
    | saveStaleness other state => exact Option.some.inj (eq_of_changeAt h) ▸ hstep
    | saveTracker tracker =>
      obtain ⟨state, hstate, heq⟩ := Option.map_eq_some_iff.mp h
      have hkept := mem_of_mem_keptEntries (mem_of_lookup_eq_some hstate)
      exact Option.some.inj heq ▸ hstep id state (Tracker.mem_snapshot_iff.mp hkept.2)
    | _ => cases h
  getElem?_step store step id := by
    cases step with
    | saveStaleness =>
      exact MemoryStore.getElem?_put_eq_on (by decide) StalenessState.toJson ..
    | saveTracker tracker =>
      -- each id is told once in a snapshot, so that its state is the one looked up
      refine (Repository.getElem?_saveStates tracker.distinct_snapshot id).trans ?_
      dsimp only
      cases (keptEntries tracker.snapshot).lookup id <;> rfl
    | _ => exact Repository.getElem?_step_of_ne (by rw [RepositoryStep.space]; decide) id

variable {kind : RecordKind α} {steps : List RepositoryStep} {id : String}

/-- The record last kept under an id in a run, unless it was removed since. -/
def kept (kind : RecordKind α) (steps : List RepositoryStep) (id : String) : Option α :=
  (steps.filterMap (kind.change id)).getLast?.join

/-- One more step has the last say on what is kept. -/
theorem kept_append_singleton (kind : RecordKind α) (steps : List RepositoryStep)
    (step : RepositoryStep) (id : String) :
    kind.kept (steps ++ [step]) id = (kind.change id step).on (kind.kept steps id) := by
  rw [kept, List.filterMap_append]
  cases hchange : kind.change id step with
  | none => simp [hchange, kept, RecordChange.on]
  | some record => simp [hchange, RecordChange.on]

/-- A record that is kept has a written form if those of all steps have one. -/
theorem isFaithful_of_kept {record : α} (hsteps : ∀ step ∈ steps, step.IsFaithful)
    (h : kind.kept steps id = some record) : kind.IsFaithful record := by
  rw [kept, Option.join_eq_some_iff] at h
  obtain ⟨step, hstep, hchange⟩ := List.mem_filterMap.mp (List.mem_of_getLast? h)
  exact kind.isFaithful_of_change hchange (hsteps step hstep)

/-- A run keeps the record last kept under every id. -/
theorem getElem?_run (kind : RecordKind α) (steps : List RepositoryStep) (id : String) :
    (Repository.run MemoryStore.empty steps).documents[[kind.space, id]]? =
      (kind.kept steps id).map kind.write := by
  -- by the last step, which changes the document as it changes the record kept
  induction steps using List.reverseRecOn with
  | nil => simp [Repository.run, MemoryStore.empty, kept]
  | append_singleton steps step ih =>
    rw [Repository.run, List.foldl_append, List.foldl_cons, List.foldl_nil, kind.getElem?_step,
      ← Repository.run, ih, kept_append_singleton]
    cases kind.change id step <;> rfl

/-- The record last kept under a key is loaded. -/
theorem load_run (kind : RecordKind α) (hsteps : ∀ step ∈ steps, step.IsFaithful)
    (hid : isKey id) :
    Repository.load kind.read? (Repository.run MemoryStore.empty steps) kind.space id =
      .ok (kind.kept steps id) := by
  -- the document under the id is the record of what was kept last
  have hget : DocumentStore.get (Repository.run MemoryStore.empty steps) kind.space id =
      .ok ((kind.kept steps id).map kind.write) :=
    (MemoryStore.get_of_isKey kind.isKey_space hid).trans
      (congrArg _ (kind.getElem?_run steps id))
  rw [Repository.load, hget]
  cases hkept : kind.kept steps id with
  | none => rfl
  | some record =>
    show (decodeDocument _ _ (kind.write record)).map some = _
    rw [kind.decodeDocument_write (isFaithful_of_kept hsteps hkept)]
    rfl

/-- The keys told of a kind are those under which a record is kept, in ascending order. -/
theorem keys_run (kind : RecordKind α) (steps : List RepositoryStep) :
    ∃ ids, DocumentStore.keys (Repository.run MemoryStore.empty steps) kind.space = .ok ids ∧
      ids.Pairwise (· < ·) ∧ ∀ id, id ∈ ids ↔ (kind.kept steps id).isSome := by
  refine ⟨_, MemoryStore.keys_of_isKey kind.isKey_space, MemoryStore.pairwise_keysOf,
    fun id => ?_⟩
  rw [MemoryStore.mem_keysOf, Std.ExtTreeMap.mem_iff_isSome_getElem?, getElem?_run,
    Option.isSome_map]

end RecordKind

namespace Repository

/-- A store answers by the records last kept in a run, and fails on texts that are no keys. -/
structure Remembers (store : MemoryStore) (steps : List RepositoryStep) : Prop where
  loadFilterSet (id : String) (h : isKey id) :
    loadFilterSet store id = .ok (RecordKind.filterSets.kept steps id)
  loadRuleSet (id : String) (h : isKey id) :
    loadRuleSet store id = .ok (RecordKind.ruleSets.kept steps id)
  loadCatalog (id : String) (h : isKey id) :
    loadCatalog store id = .ok (RecordKind.catalogs.kept steps id)
  loadStaleness (id : String) (h : isKey id) :
    loadStaleness store id = .ok (RecordKind.staleness.kept steps id)
  /-- The ids of the rule sets kept are told in ascending order, each of them once. -/
  ruleSetIds : ∃ ids, ruleSetIds store = .ok ids ∧ ids.Pairwise (· < ·) ∧
    ∀ id, id ∈ ids ↔ (RecordKind.ruleSets.kept steps id).isSome

/-- A store takes what is saved or deleted under a key. -/
structure Accepts (store : MemoryStore) (steps : List RepositoryStep) (id : String) : Prop where
  saveFilterSet (set : FilterSet) : (saveFilterSet store id set).1 = .ok ()
  saveRuleSet (set : RuleSet) (h : set.id = id) : (saveRuleSet store set).1 = .ok ()
  /-- It is told whether there was a rule set. -/
  deleteRuleSet : (deleteRuleSet store id).1 = .ok (RecordKind.ruleSets.kept steps id).isSome
  saveCatalog (catalog : Catalog) : (saveCatalog store id catalog).1 = .ok ()
  saveStaleness (state : StalenessState) : (saveStaleness store id state).1 = .ok ()

/-- A store fails on what is saved or deleted under a text, and stays the store that it is. -/
structure Refuses (store : MemoryStore) (id : String) : Prop where
  saveFilterSet (set : FilterSet) : saveFilterSet store id set = (.error (.invalidKey id), store)
  saveRuleSet (set : RuleSet) (h : set.id = id) :
    saveRuleSet store set = (.error (.invalidKey id), store)
  deleteRuleSet : deleteRuleSet store id = (.error (.invalidKey id), store)
  saveCatalog (catalog : Catalog) :
    saveCatalog store id catalog = (.error (.invalidKey id), store)
  saveStaleness (state : StalenessState) :
    saveStaleness store id state = (.error (.invalidKey id), store)

variable {steps : List RepositoryStep}

/-- A repository remembers what was kept in a run. -/
theorem remembers_run (hsteps : ∀ step ∈ steps, step.IsFaithful) :
    Remembers (run MemoryStore.empty steps) steps where
  loadFilterSet _ h := RecordKind.filterSets.load_run hsteps h
  loadRuleSet _ h := RecordKind.ruleSets.load_run hsteps h
  loadCatalog _ h := RecordKind.catalogs.load_run hsteps h
  loadStaleness _ h := RecordKind.staleness.load_run hsteps h
  ruleSetIds := RecordKind.ruleSets.keys_run steps

/-- A repository accepts each key after any run. -/
theorem accepts_run (steps : List RepositoryStep) {id : String} (h : isKey id) :
    Accepts (run MemoryStore.empty steps) steps id where
  saveFilterSet _ :=
    congrArg Prod.fst (MemoryStore.put_of_isKey RecordKind.filterSets.isKey_space h _)
  saveRuleSet set hid := by
    subst hid
    exact congrArg Prod.fst (MemoryStore.put_of_isKey RecordKind.ruleSets.isKey_space h _)
  deleteRuleSet := by
    -- a rule set was there to be deleted exactly if it was kept
    have hdocument := RecordKind.ruleSets.getElem?_run steps id
    refine (congrArg Prod.fst
      (MemoryStore.delete_of_isKey RecordKind.ruleSets.isKey_space h)).trans ?_
    rw [hdocument, Option.isSome_map]
  saveCatalog _ :=
    congrArg Prod.fst (MemoryStore.put_of_isKey RecordKind.catalogs.isKey_space h _)
  saveStaleness _ :=
    congrArg Prod.fst (MemoryStore.put_of_isKey RecordKind.staleness.isKey_space h _)

/-- A repository refuses a text that is no key. -/
theorem refuses_of_not_isKey (store : MemoryStore) {id : String} (h : ¬ isKey id) :
    Refuses store id where
  saveFilterSet _ := MemoryStore.put_of_not_isKey RecordKind.filterSets.isKey_space h _
  saveRuleSet set hid := by
    subst hid
    exact MemoryStore.put_of_not_isKey RecordKind.ruleSets.isKey_space h _
  deleteRuleSet := MemoryStore.delete_of_not_isKey RecordKind.ruleSets.isKey_space h
  saveCatalog _ := MemoryStore.put_of_not_isKey RecordKind.catalogs.isKey_space h _
  saveStaleness _ := MemoryStore.put_of_not_isKey RecordKind.staleness.isKey_space h _

/-- After any run from a store without documents, loads under keys answer the records last kept of
each kind, and the ids of rule sets are those of the rule sets kept. Only what is saved or deleted
under keys is taken; the rest fails and does not change the store. -/
theorem records_run (hsteps : ∀ step ∈ steps, step.IsFaithful) :
    Remembers (run MemoryStore.empty steps) steps ∧
      (∀ id, isKey id → Accepts (run MemoryStore.empty steps) steps id) ∧
      ∀ id, ¬ isKey id → Refuses (run MemoryStore.empty steps) id :=
  ⟨remembers_run hsteps, fun _ => accepts_run steps, fun _ => refuses_of_not_isKey _⟩

/-- A rule set of long items. -/
def longItems : RuleSet where
  id := "logic"
  rules := [⟨.duration, .greaterThan, .number (.ofNat 3600), false, true, false⟩]
  logic := .or
  lastEvaluated := some ⟨1736942400, 0⟩

/-- A catalog with a collection that is named like a field of rule sets. -/
def longItemsCatalog : Catalog where
  global := longItems
  overrides := .ofList [("logic", longItems)]

theorem isFaithful_longItems : longItems.IsFaithful := by
  refine ⟨?_, ?_⟩
  · rw [longItems, List.forall_mem_singleton]
    show (Double.ofNat 3600).isFinite
    decide +kernel
  · rintro _ ⟨⟩
    decide +kernel

theorem isFaithful_longItemsCatalog : longItemsCatalog.IsFaithful := by
  refine ⟨isFaithful_longItems, fun entry hentry => ?_⟩
  have hmem : entry ∈ [("logic", longItems)] := hentry
  obtain rfl := List.mem_singleton.mp hmem
  exact isFaithful_longItems

/-- A catalog is kept when the rule set under the same key is removed. -/
theorem records_run_longItems :
    let steps : List RepositoryStep := [.saveCatalog "logic" longItemsCatalog,
      .saveRuleSet longItems, .saveRuleSet { longItems with id := ".." }, .deleteRuleSet "logic"]
    loadCatalog (run MemoryStore.empty steps) "logic" = .ok (some longItemsCatalog) ∧
      loadRuleSet (run MemoryStore.empty steps) "logic" = .ok none ∧
      deleteRuleSet (run MemoryStore.empty steps) ".." =
        (.error (.invalidKey ".."), run MemoryStore.empty steps) := by
  intro steps
  have hsteps : ∀ step ∈ steps, step.IsFaithful := by
    simp only [steps, List.forall_mem_cons]
    exact ⟨isFaithful_longItemsCatalog, isFaithful_longItems, isFaithful_longItems, trivial, nofun⟩
  obtain ⟨hremembers, -, hrefuses⟩ := records_run hsteps
  have hkey : isKey "logic" := by decide
  -- two dots are no key, so that nothing is kept under them
  have hnokey : ¬ isKey ".." := by decide
  refine ⟨(hremembers.loadCatalog _ hkey).trans (congrArg _ ?_),
    (hremembers.loadRuleSet _ hkey).trans (congrArg _ ?_), (hrefuses _ hnokey).deleteRuleSet⟩
  · simp [steps, RecordKind.kept, RecordKind.catalogs, changeAt, hkey]
  · simp [steps, RecordKind.kept, RecordKind.ruleSets, changeAt, hkey, hnokey, longItems]

end Repository

end Curation
