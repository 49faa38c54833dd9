import Curation.Filter
import Curation.Proofs.Rule.Selection
import Curation.Proofs.Sort.Comparison
import Curation.Proofs.Sort.Stable

/-!
# Selection in batches

Items can be selected in batches, whose results are joined and sorted once more. An item is selected
for its own sake, and sorting the joined results restores the order of the whole, ties included.

* `SortOrder.sort_flatMap_sort`: sorted batches are joined to the sorted whole.
* `select_flatten`: rule sets and filter sets select from the whole what they do from its batches.
-/

namespace Curation

/-- Items are sorted as well by sorting batches of them first. -/
theorem SortOrder.sort_flatMap_sort (order : SortOrder) (batches : List (List Item)) :
    order.sort (batches.flatMap order.sort) = order.sort batches.flatten :=
  mergeSort_flatten order.compare batches

/-- Items that are filtered and sorted in batches are those of the whole. -/
theorem SortOrder.sort_flatMap_filter (order : SortOrder) (p : Item → Bool)
    (batches : List (List Item)) :
    order.sort (batches.flatMap fun batch => order.sort (batch.filter p)) =
      order.sort (batches.flatten.filter p) := by
  have hfilter := order.sort_flatMap_sort (batches.map (·.filter p))
  rwa [List.flatMap_map, ← List.filter_flatten] at hfilter

/-- What a rule set selects from the batches, joined and sorted by the order of the set if it has
one, is what it selects from all items; and likewise for a filter set and any order. -/
theorem select_flatten (set : RuleSet) (calendar : Calendar) (filters : FilterSet)
    (order : SortOrder) (now : Instant) (batches : List (List Item)) :
    let joined := batches.flatMap (set.select now calendar)
    set.sort.elim joined (·.sort joined) = set.select now calendar batches.flatten ∧
      order.sort (batches.flatMap (filters.select order now)) =
        filters.select order now batches.flatten := by
  intro joined
  constructor
  · have hselect : set.select now calendar = _ := funext (set.select_eq now calendar)
    simp only [joined, hselect]
    cases set.sort with
    | none => exact List.filter_flatten.symm
    | some rulesOrder => exact rulesOrder.sort_flatMap_filter _ batches
  · exact order.sort_flatMap_filter (filters.isMatch · now) batches

end Curation
