import Curation.Item
import Curation.Text.Fold

/-!
# Sort orders

Items are sorted by one of their attributes, in either direction. Items that lack the attribute
come last in both directions, and items that agree in it are in ascending order of their ids.

* `SortOrder.compare`: the order of items.
* `SortOrder.sort`: items in that order; equal ones keep their order.
-/

namespace Curation

/-- An attribute to sort by. -/
inductive SortKey where
  | publishDate
  | dateAdded
  | title
  | collectionName
  | duration
  | rating
  deriving DecidableEq, Repr

namespace SortKey

/-- All attributes. -/
def all : List SortKey := [publishDate, dateAdded, title, collectionName, duration, rating]

/-- The name of the attribute in records. -/
def name : SortKey → String
  | publishDate => "publishDate"
  | dateAdded => "dateAdded"
  | title => "title"
  | collectionName => "collectionName"
  | duration => "duration"
  | rating => "rating"

end SortKey

inductive SortDirection where
  | ascending
  | descending
  deriving DecidableEq, Repr

namespace SortDirection

/-- Both directions. -/
def all : List SortDirection := [ascending, descending]

/-- The name of the direction in records. -/
def name : SortDirection → String
  | ascending => "ascending"
  | descending => "descending"

/-- The ascending order of two values, turned into the direction. -/
def apply : SortDirection → Ordering → Ordering
  | ascending, order => order
  | descending, order => order.swap

end SortDirection

/-- An attribute and a direction to sort by. -/
structure SortOrder where
  /-- The attribute. -/
  key : SortKey
  direction : SortDirection := .descending
  deriving DecidableEq, Repr

namespace SortOrder

/-- The order in which items are listed unless another is asked for: the latest first. -/
def standard : SortOrder := { key := .publishDate }

/-- The order of values that items may lack. -/
def compareOptional [Ord α] (direction : SortDirection) : Option α → Option α → Ordering
  | some a, some b => direction.apply (Ord.compare a b)
  | some _, none => .lt
  | none, some _ => .gt
  | none, none => .eq

/-- The order of items by the attribute alone. -/
def compareKey (order : SortOrder) (a b : Item) : Ordering :=
  match order.key with
  | .publishDate => compareOptional order.direction a.publishDate b.publishDate
  | .dateAdded => order.direction.apply (Ord.compare a.dateAdded b.dateAdded)
  | .title => order.direction.apply (Text.compareText a.title b.title)
  | .collectionName => order.direction.apply (Text.compareText a.collectionName b.collectionName)
  | .duration => compareOptional order.direction a.durationSecs b.durationSecs
  | .rating => compareOptional order.direction a.rating b.rating

/-- The order of items: by the attribute, and by id where they agree in it. -/
def compare (order : SortOrder) (a b : Item) : Ordering :=
  (order.compareKey a b).then (Ord.compare a.id b.id)

/-- The items in order; equal ones keep their order. -/
def sort (order : SortOrder) (items : List Item) : List Item :=
  items.mergeSort fun a b => (order.compare a b).isLE

end SortOrder

end Curation
