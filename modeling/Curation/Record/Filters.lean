import Curation.Filter
import Curation.Record.Items

/-!
# Records of filters and sort orders
-/

namespace Curation

open Record

/-- Reads a combination. -/
def Combination.ofJson? (value : Json) : Option Combination :=
  (string? value).bind Combination.ofText?

/-- The combination as a value. -/
def Combination.toJson (logic : Combination) : Json := .string logic.name

/-- Reads an attribute to sort by. -/
def SortKey.ofJson? : Json → Option SortKey := choice? SortKey.all SortKey.name

/-- Reads a direction. -/
def SortDirection.ofJson? : Json → Option SortDirection :=
  choice? SortDirection.all SortDirection.name

/-- Reads a sort order. -/
def SortOrder.ofJson? (value : Json) : Option SortOrder := do
  let members ← members? ["key", "direction"] value
  let key ← required? members "key" SortKey.ofJson?
  let direction ← withDefault? members "direction" SortDirection.ofJson? .descending
  some { key, direction }

/-- The sort order as a value. -/
def SortOrder.toJson (order : SortOrder) : Json :=
  .object [("direction", .string order.direction.name), ("key", .string order.key.name)]

/-- Reads a criterion. -/
def Criterion.ofJson? (value : Json) : Option Criterion := do
  let (name, content) ← tagged? "type" "value" value
  match name with
  | "playStatus" => (filled? PlayStatus.ofJson? content).map .playStatus
  | "downloadStatus" => (filled? DownloadStatus.ofJson? content).map .downloadStatus
  | "isFavorited" => (filled? bool? content).map .isFavorited
  | "isBookmarked" => (filled? bool? content).map .isBookmarked
  | "isArchived" => (filled? bool? content).map .isArchived
  | "ratingAtLeast" => (filled? uint8? content).map .ratingAtLeast
  | "publishedWithinDays" => (filled? uint32? content).map .publishedWithinDays
  | "addedWithinDays" => (filled? uint32? content).map .addedWithinDays
  | "durationAtLeast" => (filled? uint64? content).map .durationAtLeast
  | "durationAtMost" => (filled? uint64? content).map .durationAtMost
  | "collectionName" => (filled? string? content).map .collectionName
  | "titleContains" => (filled? string? content).map .titleContains
  | _ => none

/-- The criterion as a value. -/
def Criterion.toJson (criterion : Criterion) : Json :=
  let write := writeTagged "type" "value"
  match criterion with
  | .playStatus status => write "playStatus" status.toJson
  | .downloadStatus status => write "downloadStatus" status.toJson
  | .isFavorited expected => write "isFavorited" (.bool expected)
  | .isBookmarked expected => write "isBookmarked" (.bool expected)
  | .isArchived expected => write "isArchived" (.bool expected)
  | .ratingAtLeast rating => write "ratingAtLeast" (ofNat rating.toNat)
  | .publishedWithinDays days => write "publishedWithinDays" (ofNat days.toNat)
  | .addedWithinDays days => write "addedWithinDays" (ofNat days.toNat)
  | .durationAtLeast secs => write "durationAtLeast" (ofNat secs.toNat)
  | .durationAtMost secs => write "durationAtMost" (ofNat secs.toNat)
  | .collectionName text => write "collectionName" (.string text)
  | .titleContains text => write "titleContains" (.string text)

/-- Reads a condition. -/
def Condition.ofJson? (value : Json) : Option Condition := do
  let members ← members? ["criterion", "negated"] value
  let criterion ← required? members "criterion" Criterion.ofJson?
  let negated ← withDefault? members "negated" bool? false
  some { criterion, negated }

/-- The condition as a value. -/
def Condition.toJson (condition : Condition) : Json :=
  .object [("criterion", condition.criterion.toJson), ("negated", .bool condition.negated)]

/-- Reads a filter set. -/
def FilterSet.ofJson? (value : Json) : Option FilterSet := do
  let members ← members? ["conditions", "logic"] value
  let conditions ← withDefault? members "conditions" (list? Condition.ofJson?) []
  let logic ← required? members "logic" Combination.ofJson?
  some { conditions, logic }

/-- The filter set as a value. -/
def FilterSet.toJson (set : FilterSet) : Json :=
  .object [("conditions", .array (set.conditions.map Condition.toJson)),
    ("logic", set.logic.toJson)]

end Curation
