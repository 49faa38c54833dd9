import Curation.Failure
import Curation.Json.Value

/-!
# Document stores

A document store keeps JSON documents, each under a key in a namespace. Keys and namespaces can be
names of files: they are not empty, do not lead out of a directory, and hold no separator.

* `isKey`: the texts that are keys.
* `DocumentStore`: what every store can do. Operations that change a store answer it as it is
  afterwards, also if they fail.
-/

namespace Curation

/-- Whether a character cannot stand in a key. -/
def isSeparator (c : Char) : Bool := c == '/' || c == '\\' || c.toNat == 0

/-- Whether a text is a key. -/
def isKey (key : String) : Bool :=
  key != "" && key != "." && key != ".." && key.toList.all (!isSeparator ·)

/-- Refuses a text that is no key. -/
def checkKey (key : String) : Except Failure Unit :=
  if isKey key then .ok () else .error (.invalidKey key)

/-- A store of documents by namespace and key. -/
class DocumentStore (σ : Type) where
  /-- The document under a key, if there is one. -/
  get : σ → String → String → Except Failure (Option Json)
  /-- Keeps a document under a key, instead of an earlier one. -/
  put : σ → String → String → Json → Except Failure Unit × σ
  /-- Removes the document under a key, and tells whether there was one. -/
  delete : σ → String → String → Except Failure Bool × σ
  /-- The keys of a namespace, in ascending order. -/
  keys : σ → String → Except Failure (List String)

end Curation
