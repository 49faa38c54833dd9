import Curation.Store.Memory

/-!
# Operations of stores in memory

What the operations of a store in memory answer under a key in a namespace, and in which order the
keys of a namespace are told.

* `MemoryStore.get_of_isKey`, `MemoryStore.put_of_isKey`, `MemoryStore.delete_of_isKey`,
  `MemoryStore.keys_of_isKey`: the operations, by the map of documents.
* `MemoryStore.put_of_not_isKey`, `MemoryStore.delete_of_not_isKey`: they fail on other texts.
* `MemoryStore.getElem?_put`, `MemoryStore.getElem?_delete`: the documents after a change.
* `MemoryStore.mem_keysOf`, `MemoryStore.pairwise_keysOf`: the keys told are those of documents, in
  ascending order.
-/

namespace Curation

/-- A key is not refused. -/
theorem checkKey_of_isKey {key : String} (h : isKey key) : checkKey key = .ok () := if_pos h

/-- A text that is no key is refused by name. -/
theorem checkKey_of_not_isKey {key : String} (h : ¬ isKey key) :
    checkKey key = .error (.invalidKey key) := if_neg h

theorem ne_empty_of_isKey {key : String} (h : isKey key) : key ≠ "" := by
  rintro rfl
  cases h

/-- Paths in a namespace stand in the order of their keys. -/
theorem compare_path_eq_lt {space key other : String} :
    compare [space, key] [space, other] = .lt ↔ key < other := by
  simp only [List.compare_cons_cons, Std.ReflOrd.compare_self, Ordering.eq_then, Ordering.then_eq]
  exact compareOfLessAndEq_eq_lt

namespace MemoryStore

variable {store : MemoryStore} {space key : String}

/-- A key in a namespace has a path. -/
theorem path_of_isKey (hspace : isKey space) (hkey : isKey key) :
    path space key = .ok [space, key] := by
  rw [path, checkKey_of_isKey hspace, checkKey_of_isKey hkey]
  rfl

/-- The document under a key is the one kept there. -/
theorem get_of_isKey (hspace : isKey space) (hkey : isKey key) :
    store.get space key = .ok store.documents[[space, key]]? := by
  rw [get, path_of_isKey hspace hkey]
  rfl

/-- A document is kept under a key, in the place of any other one. -/
theorem put_of_isKey (hspace : isKey space) (hkey : isKey key) (document : Json) :
    store.put space key document = (.ok (), ⟨store.documents.insert [space, key] document⟩) := by
  rw [put, path_of_isKey hspace hkey]

/-- The document under a key is removed, and told to have been there. -/
theorem delete_of_isKey (hspace : isKey space) (hkey : isKey key) :
    store.delete space key =
      (.ok store.documents[[space, key]]?.isSome, ⟨store.documents.erase [space, key]⟩) := by
  have hpresent : decide ([space, key] ∈ store.documents) =
      store.documents[[space, key]]?.isSome := by
    rw [Bool.eq_iff_iff, decide_eq_true_iff, Std.ExtTreeMap.mem_iff_isSome_getElem?]
  rw [delete, path_of_isKey hspace hkey, ← hpresent]

/-- In a namespace, a text that is no key is refused by name. -/
theorem path_of_not_isKey_right (hspace : isKey space) (hkey : ¬ isKey key) :
    path space key = .error (.invalidKey key) := by
  rw [path, checkKey_of_isKey hspace, checkKey_of_not_isKey hkey]
  rfl

/-- A key or a namespace that is none is refused. -/
theorem path_of_not_isKey (h : ¬ (isKey space ∧ isKey key)) :
    ∃ text, path space key = .error (.invalidKey text) := by
  by_cases hspace : isKey space
  · have hkey : ¬ isKey key := fun hkey => h ⟨hspace, hkey⟩
    exact ⟨key, path_of_not_isKey_right hspace hkey⟩
  · rw [path, checkKey_of_not_isKey hspace]
    exact ⟨space, rfl⟩

/-- Nothing is put under a text that is no key. -/
theorem put_of_not_isKey (hspace : isKey space) (hkey : ¬ isKey key) (document : Json) :
    store.put space key document = (.error (.invalidKey key), store) := by
  rw [put, path_of_not_isKey_right hspace hkey]

/-- Nothing is deleted under a text that is no key. -/
theorem delete_of_not_isKey (hspace : isKey space) (hkey : ¬ isKey key) :
    store.delete space key = (.error (.invalidKey key), store) := by
  rw [delete, path_of_not_isKey_right hspace hkey]

/-- A document is put in the place of its keys, and nowhere if they are no keys. -/
theorem getElem?_put (store : MemoryStore) (space key : String) (document : Json)
    (place : List String) :
    (store.put space key document).2.documents[place]? =
      if (isKey space ∧ isKey key) ∧ [space, key] = place then some document
      else store.documents[place]? := by
  by_cases hkeys : isKey space ∧ isKey key
  · simp [put_of_isKey hkeys.1 hkeys.2, hkeys, Std.ExtTreeMap.getElem?_insert]
  · obtain ⟨text, hpath⟩ := path_of_not_isKey hkeys
    rw [put, hpath, if_neg fun h => hkeys h.1]

/-- The document in the place of two keys is removed, and none if they are no keys. -/
theorem getElem?_delete (store : MemoryStore) (space key : String) (place : List String) :
    (store.delete space key).2.documents[place]? =
      if (isKey space ∧ isKey key) ∧ [space, key] = place then none
      else store.documents[place]? := by
  by_cases hkeys : isKey space ∧ isKey key
  · simp [delete_of_isKey hkeys.1 hkeys.2, hkeys, Std.ExtTreeMap.getElem?_erase]
  · obtain ⟨text, hpath⟩ := path_of_not_isKey hkeys
    rw [delete, hpath, if_neg fun h => hkeys h.1]

/-- The keys of a namespace are those that documents are kept under. -/
theorem keys_of_isKey (hspace : isKey space) :
    store.keys space = .ok (store.documents.keys.filterMap (keyOf? space)) := by
  rw [keys, checkKey_of_isKey hspace]
  rfl

/-- A path belongs to a key of a namespace if it is made of the two. -/
theorem keyOf?_eq_some_iff {path : List String} :
    keyOf? space path = some key ↔ path = [space, key] := by
  fun_cases keyOf? space path with
  | case1 other => simp
  | case2 other found h => simp [h]
  | case3 path h =>
    refine ⟨nofun, ?_⟩
    rintro rfl
    exact absurd rfl (h _ _)

/-- The keys told of a namespace are those of its documents. -/
theorem mem_keysOf :
    key ∈ store.documents.keys.filterMap (keyOf? space) ↔ [space, key] ∈ store.documents := by
  simp [List.mem_filterMap, keyOf?_eq_some_iff]

/-- The keys of a namespace are told in ascending order, each of them once. -/
theorem pairwise_keysOf :
    (store.documents.keys.filterMap (keyOf? space)).Pairwise (· < ·) := by
  rw [List.pairwise_filterMap]
  refine store.documents.ordered_keys.imp fun {path path'} hlt key hkey key' hkey' => ?_
  rw [keyOf?_eq_some_iff.mp hkey, keyOf?_eq_some_iff.mp hkey', compare_path_eq_lt] at hlt
  exact hlt

end MemoryStore

end Curation
