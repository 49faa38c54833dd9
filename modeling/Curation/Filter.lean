import Curation.Combination
import Curation.SortOrder
import Curation.Text.Occurrence
import Curation.Time.Window

/-!
# Filters

A filter set is a list of conditions with a way to combine them. A condition is a criterion on one
attribute, perhaps negated; an item that lacks the attribute meets neither the condition nor its
negation. Archived items are left out unless a condition asks about them.

* `Criterion.test?`: what a criterion says of an item.
* `FilterSet.isMatch`: whether an item passes.
* `FilterSet.select`: the items that pass, sorted.
-/

namespace Curation

/-- A demand on one attribute of an item. -/
inductive Criterion where
  | playStatus (status : PlayStatus)
  | downloadStatus (status : DownloadStatus)
  | isFavorited (expected : Bool)
  | isBookmarked (expected : Bool)
  | isArchived (expected : Bool)
  | ratingAtLeast (rating : UInt8)
  | publishedWithinDays (days : UInt32)
  | addedWithinDays (days : UInt32)
  | durationAtLeast (secs : UInt64)
  | durationAtMost (secs : UInt64)
  | collectionName (text : String)
  | titleContains (text : String)
  deriving DecidableEq, Repr

/-- What the criterion says of an item, if the item has the attribute. -/
def Criterion.test? (criterion : Criterion) (item : Item) (now : Instant) : Option Bool :=
  match criterion with
  | playStatus status => some (item.playStatus == status)
  | downloadStatus status => some (item.downloadStatus == status)
  | isFavorited expected => some (item.isFavorited == expected)
  | isBookmarked expected => some (item.isBookmarked == expected)
  | isArchived expected => some (item.isArchived == expected)
  | ratingAtLeast bound => item.rating.map fun rating => bound ≤ rating
  | publishedWithinDays days =>
    item.publishDate.map fun t => (Window.trailingDays now days.toNat).contains t
  | addedWithinDays days =>
    some ((Window.trailingDays now days.toNat).contains item.dateAdded)
  | durationAtLeast bound => item.durationSecs.map fun secs => bound ≤ secs
  | durationAtMost bound => item.durationSecs.map fun secs => secs ≤ bound
  | collectionName text =>
    some (Text.foldString item.collectionName == Text.foldString text)
  | titleContains text =>
    some (Text.contains (Text.fold item.title.toList) (Text.fold text.toList))

/-- A criterion or its negation. -/
structure Condition where
  criterion : Criterion
  /-- Whether the criterion must not hold. -/
  negated : Bool := false
  deriving DecidableEq, Repr

/-- Whether the item has the attribute and meets the condition. -/
def Condition.isMet (condition : Condition) (item : Item) (now : Instant) : Bool :=
  match condition.criterion.test? item now with
  | some holds => holds != condition.negated
  | none => false

/-- Conditions and the way to combine them. -/
structure FilterSet where
  conditions : List Condition := []
  /-- How they are combined. -/
  logic : Combination
  deriving DecidableEq, Repr

namespace FilterSet

/-- Whether a condition asks about archived items. -/
def mentionsArchived (set : FilterSet) : Bool :=
  set.conditions.any fun condition =>
    match condition.criterion with
    | .isArchived _ => true
    | _ => false

/-- Whether the item passes the set. -/
def isMatch (set : FilterSet) (item : Item) (now : Instant) : Bool :=
  if item.isArchived && !set.mentionsArchived then false
  else set.logic.holds set.conditions (·.isMet item now)

/-- The items that pass the set, sorted. -/
def select (set : FilterSet) (order : SortOrder) (now : Instant) (items : List Item) :
    List Item :=
  order.sort (items.filter (set.isMatch · now))

end FilterSet

end Curation
