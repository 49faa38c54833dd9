import Curation.Rule.Selection
import Std.Data.ExtTreeMap

/-!
# Catalogs

A catalog chooses the rule set for each collection: a global one, unless the collection has an
override. It tells which items to archive, each item by the rule set of its own collection; for
this every rule set is compiled once.

* `Catalog.ruleSetFor`: the rule set of a collection.
* `Catalog.compile`: a catalog with its rule sets compiled.
* `Catalog.candidates`: the items to archive.
-/

namespace Curation

/-- A global rule set and overrides for collections. -/
structure Catalog where
  /-- The rule set of the collections without an override. -/
  global : RuleSet
  /-- The rule sets of the other collections, by their names. -/
  overrides : Std.ExtTreeMap String RuleSet := ∅

/-- A catalog whose rule sets are compiled. -/
structure CatalogSelector where
  /-- The compiled rule set of the collections without an override. -/
  global : Selector
  /-- The compiled rule sets of the other collections, by their names. -/
  overrides : Std.ExtTreeMap String Selector

/-- Whether an item is to be archived, by the rules for its collection. -/
def CatalogSelector.isCandidate (selector : CatalogSelector) (item : Item) : Bool :=
  (selector.overrides[item.collectionName]?.getD selector.global).isMatch item

namespace Catalog

def ruleSetFor (catalog : Catalog) (collection : String) : RuleSet :=
  catalog.overrides[collection]?.getD catalog.global

/-- The catalog with an override for a collection, instead of an earlier one. -/
def setOverride (catalog : Catalog) (collection : String) (set : RuleSet) : Catalog :=
  { catalog with overrides := catalog.overrides.insert collection set }

/-- The catalog without an override for a collection. -/
def removeOverride (catalog : Catalog) (collection : String) : Catalog :=
  { catalog with overrides := catalog.overrides.erase collection }

/-- Compiles the global rule set and every override for a given now and calendar. -/
def compile (catalog : Catalog) (now : Instant) (calendar : Calendar) : CatalogSelector where
  global := catalog.global.compile now calendar
  overrides := catalog.overrides.map fun _ set => set.compile now calendar

/-- The items to archive, in their order. -/
def candidates (catalog : Catalog) (now : Instant) (calendar : Calendar) (items : List Item) :
    List Item :=
  items.filter (catalog.compile now calendar).isCandidate

end Catalog

end Curation
