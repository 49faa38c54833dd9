import Curation.Proofs.Record.Reading
import Curation.Record.Filters

/-!
# Reading records of filters and sort orders

Filter sets and sort orders are read back from their records as they were.

* `SortOrder.ofJson?_toJson`: a sort order is read back.
* `FilterSet.ofJson?_toJson`: a filter set is read back.
-/

namespace Curation

open Record

theorem PlayStatus.ofJson?_toJson (status : PlayStatus) : ofJson? status.toJson = some status := by
  cases status <;> decide +kernel

theorem DownloadStatus.ofJson?_toJson (status : DownloadStatus) :
    ofJson? status.toJson = some status := by
  cases status <;> decide +kernel

/-- The name of a combination names it. -/
theorem Combination.ofText?_name (logic : Combination) : ofText? logic.name = some logic := by
  cases logic <;> decide +kernel

theorem Combination.ofJson?_toJson (logic : Combination) :
    ofJson? logic.toJson = some logic := by
  rw [ofJson?, toJson, string?, Option.bind_some, ofText?_name]

/-- A sort key is read back from its name. -/
theorem SortKey.ofJson?_name (key : SortKey) : ofJson? (.string key.name) = some key := by
  cases key <;> decide +kernel

theorem SortDirection.ofJson?_name (direction : SortDirection) :
    ofJson? (.string direction.name) = some direction := by
  cases direction <;> decide +kernel

/-- An order is read back from its record. -/
theorem SortOrder.ofJson?_toJson (order : SortOrder) : ofJson? order.toJson = some order := by
  rw [toJson, ofJson?, members?_object (by simp)]
  refine bind_eq_some rfl (bind_eq_some (a := order.key) ?_
    (bind_eq_some (a := order.direction) ?_ rfl))
  · exact (required?_of_lookup (by simp [List.lookup_cons])).trans (SortKey.ofJson?_name _)
  · exact (withDefault?_of_lookup (by simp)).trans (SortDirection.ofJson?_name _)

theorem SortOrder.toJson_ne_null (order : SortOrder) : order.toJson ≠ .null := nofun

/-- A criterion is read back from its record, its kind and its value. -/
theorem Criterion.ofJson?_toJson (criterion : Criterion) :
    ofJson? criterion.toJson = some criterion := by
  -- the name told leads to the alternative for it, and to no other one
  cases criterion <;>
    refine bind_tagged?_writeTagged (by decide) fun told htold => ?_ <;>
    dsimp only <;> split
  all_goals try first | contradiction | exact absurd htold (by decide)
  case h_1 => exact map_filled?_of_eq (PlayStatus.ofJson?_toJson _)
  case h_2 => exact map_filled?_of_eq (DownloadStatus.ofJson?_toJson _)
  case h_6 => exact map_filled?_of_eq (uint8?_ofNat _)
  case h_7 | h_8 => exact map_filled?_of_eq (uint32?_ofNat _)
  case h_9 | h_10 => exact map_filled?_of_eq (uint64?_ofNat _)
  -- flags and texts are read as they stand
  all_goals rfl

/-- A condition is read back from its record. -/
theorem Condition.ofJson?_toJson (condition : Condition) :
    ofJson? condition.toJson = some condition := by
  rw [toJson, ofJson?, members?_object (by simp)]
  refine bind_eq_some rfl (bind_eq_some (a := condition.criterion) ?_
    (bind_eq_some (a := condition.negated) ?_ rfl))
  · exact (required?_of_lookup (by simp)).trans (Criterion.ofJson?_toJson _)
  · exact withDefault?_of_lookup (v := .bool condition.negated) (by simp [List.lookup_cons])

/-- A filter set is read back from its record, whether it has an order or not. -/
theorem FilterSet.ofJson?_toJson (set : FilterSet) : ofJson? set.toJson = some set := by
  rw [toJson, ofJson?, members?_object (by simp)]
  refine bind_eq_some rfl (bind_eq_some (a := set.conditions) ?_
    (bind_eq_some (a := set.logic) ?_ rfl))
  · exact (withDefault?_of_lookup (by simp)).trans
      (list?_map fun condition _ => condition.ofJson?_toJson)
  · exact (required?_of_lookup (by simp [List.lookup_cons])).trans (Combination.ofJson?_toJson _)

end Curation
