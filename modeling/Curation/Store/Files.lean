import Curation.Json.Reader
import Curation.Json.Writer
import Curation.Store.Basic
import Curation.Store.FileTree

/-!
# Stores in files

A store in files keeps each document as a JSON text in a file of its own: in the directory of its
namespace, under the name of its key with the extension `json`. A document is first written to a
file with the extension `tmp`, which is then renamed.

* `FileStore.get`, `FileStore.put`, `FileStore.delete`, `FileStore.keys`: the operations of a store.
-/

namespace Curation

/-- A store that keeps its documents in the files below a directory. -/
structure FileStore where
  /-- What stands below the directory of the store. -/
  tree : FileTree := {}

namespace FileStore

/-- The extension of the files that hold documents. -/
def documentExtension : String := "json"

/-- The name of the file that holds the document of a key. -/
def fileName (key : String) : String := key ++ "." ++ documentExtension

/-- The key of the document that a file of that name holds. -/
def keyOf? (name : String) : Option String :=
  match FileName.split name with
  | (key, some extension) => if extension = documentExtension then some key else none
  | _ => none

/-- Refuses a key or a namespace that is none; the key is looked at first. -/
def checkAddress (space key : String) : Except Failure Unit := do
  checkKey key
  checkKey space

/-- The document that a file holds. -/
def readDocument (content : ByteArray) : Except Failure Json :=
  match (String.fromUTF8? content).bind Json.parse? with
  | some document => .ok document
  | none => .error .undecodable

/-- The content of a file that holds a document. -/
def writeDocument (document : Json) : ByteArray := document.pretty.toUTF8

/-- The document under a key, if there is one. -/
def get (store : FileStore) (space key : String) : Except Failure (Option Json) := do
  checkAddress space key
  match store.tree.read [space, fileName key] with
  | .ok content => (readDocument content).map some
  | .error .notFound => .ok none
  | .error _ => .error .inaccessible

/-- Keeps a document under a key. -/
def put (store : FileStore) (space key : String) (document : Json) :
    Except Failure Unit × FileStore :=
  match checkAddress space key with
  | .error failure => (.error failure, store)
  | .ok () =>
    match store.tree.replaceFile [space] (fileName key) (writeDocument document) with
    | (.ok (), tree) => (.ok (), { tree })
    | (.error _, tree) => (.error .inaccessible, { tree })

/-- Removes the document under a key, and tells whether there was one. -/
def delete (store : FileStore) (space key : String) : Except Failure Bool × FileStore :=
  match checkAddress space key with
  | .error failure => (.error failure, store)
  | .ok () =>
    match store.tree.remove [space, fileName key] with
    | (.ok (), tree) => (.ok true, { tree })
    | (.error .notFound, tree) => (.ok false, { tree })
    | (.error _, tree) => (.error .inaccessible, { tree })

/-- The keys of a namespace, in ascending order. -/
def keys (store : FileStore) (space : String) : Except Failure (List String) := do
  checkKey space
  match store.tree.list [space] with
  | .ok names => .ok ((names.filterMap keyOf?).mergeSort)
  | .error .notFound => .ok []
  | .error _ => .error .inaccessible

end FileStore

instance : DocumentStore FileStore where
  get := FileStore.get
  put := FileStore.put
  delete := FileStore.delete
  keys := FileStore.keys

end Curation
