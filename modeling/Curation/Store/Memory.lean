import Curation.Store.Basic
import Std.Data.ExtTreeMap

/-!
# Stores in memory

A store in memory is a map from namespaces and keys to documents. It fails on texts that are no
keys, and on nothing else.
-/

namespace Curation

/-- A store that keeps its documents in memory. -/
structure MemoryStore where
  /-- The documents, each by its path of namespace and key. -/
  documents : Std.ExtTreeMap (List String) Json := ∅

namespace MemoryStore

/-- The store without documents. -/
def empty : MemoryStore := {}

/-- The path of a document, if namespace and key are keys; the namespace is looked at first. -/
def path (space key : String) : Except Failure (List String) := do
  checkKey space
  checkKey key
  return [space, key]

/-- The number of documents. -/
def size (store : MemoryStore) : Nat := store.documents.size

/-- The document under a key, if there is one. -/
def get (store : MemoryStore) (space key : String) : Except Failure (Option Json) :=
  (path space key).map fun path => store.documents[path]?

/-- The store with a document under a key. -/
def put (store : MemoryStore) (space key : String) (document : Json) :
    Except Failure Unit × MemoryStore :=
  match path space key with
  | .ok path => (.ok (), { documents := store.documents.insert path document })
  | .error failure => (.error failure, store)

/-- The store without a document under a key, and whether there was one. -/
def delete (store : MemoryStore) (space key : String) : Except Failure Bool × MemoryStore :=
  match path space key with
  | .ok path =>
    (.ok (decide (path ∈ store.documents)), { documents := store.documents.erase path })
  | .error failure => (.error failure, store)

/-- The key of a path in a namespace. -/
def keyOf? (space : String) : List String → Option String
  | [other, key] => if other = space then some key else none
  | _ => none

/-- The keys of a namespace. -/
def keys (store : MemoryStore) (space : String) : Except Failure (List String) :=
  (checkKey space).map fun _ => store.documents.keys.filterMap (keyOf? space)

end MemoryStore

instance : DocumentStore MemoryStore where
  get := MemoryStore.get
  put := MemoryStore.put
  delete := MemoryStore.delete
  keys := MemoryStore.keys

end Curation
