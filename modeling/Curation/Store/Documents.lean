import Curation.Json.Writer
import Curation.Record.Rules

/-!
# Documents of records

A document is read as the record that its namespace holds. The ways to combine predicates are looked
at before anything else of the document: a wrong one is reported first, whatever else is wrong.

* `logicHolders`: where the ways to combine predicates stand in a document.
* `decodeDocument`: the record of a document, or why there is none.
-/

namespace Curation

/-- The namespace of filter sets. -/
def filterSetSpace : String := "filterSets"

/-- The namespace of rule sets. -/
def ruleSetSpace : String := "ruleSets"

/-- The namespace of catalogs. -/
def catalogSpace : String := "catalogs"

/-- The namespace of states of staleness. -/
def stalenessSpace : String := "staleness"

/-- The values of the members of an object, and none for any other value. -/
def memberValues : Option Json → List Json
  | some (.object members) => members.map (·.2)
  | _ => []

/-- The parts of a document that tell how predicates are combined: the document itself, or the
global rule set of a catalog and then its overrides. -/
def logicHolders (space : String) (document : Json) : List Json :=
  if space = filterSetSpace ∨ space = ruleSetSpace then [document]
  else if space = catalogSpace then
    (document.get? "global").toList ++ memberValues (document.get? "collectionOverrides")
  else []

/-- Refuses a value that names no way to combine predicates. -/
def checkLogic : Json → Except Failure Unit
  | .string text => (Combination.ofText text).map fun _ => ()
  | value => .error (.invalidLogic value.compact)

/-- Refuses a part of a document that tells no way to combine predicates where it should. -/
def checkHolder (holder : Json) : Except Failure Unit :=
  match holder.get? "logic" with
  | some value => checkLogic value
  | none => .ok ()

/-- Refuses the first of several parts that `checkHolder` refuses. -/
def checkHolders : List Json → Except Failure Unit
  | [] => .ok ()
  | holder :: holders => do
    checkHolder holder
    checkHolders holders

/-- The record of a document in a namespace. -/
def decodeDocument (read? : Json → Option α) (space : String) (document : Json) :
    Except Failure α := do
  checkHolders (logicHolders space document)
  match read? document with
  | some record => .ok record
  | none => .error .undecodable

end Curation
