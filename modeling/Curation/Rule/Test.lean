import Curation.Number.Double
import Curation.Rule.Basic
import Curation.Text.Fold
import Curation.Text.Occurrence

/-!
# Tests of attributes

What a rule asks of an item, once it is known to make sense: a test of one attribute. An item that
lacks the attribute has no answer.

* `RangeTest.passes`: the order tests of instants and numbers.
* `Test.answer?`: what a test says of an item.
-/

namespace Curation

/-- Values that are compared by order. -/
class Comparable (α : Type) where
  /-- Whether two values are equal. -/
  equal : α → α → Bool
  /-- Whether the first value is below the second. -/
  less : α → α → Bool
  /-- Whether the first value is not above the second. -/
  atMost : α → α → Bool

instance : Comparable Instant where
  equal a b := a == b
  less a b := a < b
  atMost a b := a ≤ b

instance : Comparable Double where
  equal := Double.equal
  less := Double.less
  atMost := Double.atMost

/-- A relation of a value to a bound. -/
inductive Relation where
  | equal
  | notEqual
  | above
  | notBelow
  | below
  | notAbove
  deriving DecidableEq, Repr

/-- Whether a value stands in the relation to a bound. -/
def Relation.holds [Comparable α] : Relation → α → α → Bool
  | equal, value, bound => Comparable.equal value bound
  | notEqual, value, bound => !Comparable.equal value bound
  | above, value, bound => Comparable.less bound value
  | notBelow, value, bound => Comparable.atMost bound value
  | below, value, bound => Comparable.less value bound
  | notAbove, value, bound => Comparable.atMost value bound

/-- The relation that a comparator asks for, if it is one of order. -/
def Comparator.relation? : Comparator → Option Relation
  | equals => some .equal
  | notEquals => some .notEqual
  | greaterThan => some .above
  | greaterThanOrEqual => some .notBelow
  | lessThan => some .below
  | lessThanOrEqual => some .notAbove
  | _ => none

/-- A test of a value against bounds. -/
inductive RangeTest (α : Type) where
  | relation (asked : Relation) (bound : α)
  -- the value is not below `lo` and not above `hi`
  | between (lo hi : α)
  -- the value is not below `start` and is below `stop`
  | within (start stop : α)
  -- the value is below `start` or not below `stop`
  | outside (start stop : α)
  deriving DecidableEq, Repr

/-- Whether a value passes the test. -/
def RangeTest.passes [Comparable α] : RangeTest α → α → Bool
  | relation asked bound, value => asked.holds value bound
  | between lo hi, value => Comparable.atMost lo value && Comparable.atMost value hi
  | within start stop, value => Comparable.atMost start value && Comparable.less value stop
  | outside start stop, value => !(Comparable.atMost start value && Comparable.less value stop)

/-- A test of a text against a folded text. -/
inductive TextTest where
  | equals (needle : List Char)
  | notEquals (needle : List Char)
  | contains (needle : List Char)
  | notContains (needle : List Char)
  deriving DecidableEq, Repr

/-- Whether a text passes the test, without regard to case. -/
def TextTest.passes (test : TextTest) (text : String) : Bool :=
  let folded := Text.fold text.toList
  match test with
  | equals needle => folded == needle
  | notEquals needle => folded != needle
  | contains needle => Text.contains folded needle
  | notContains needle => !Text.contains folded needle

/-- A test of one attribute of an item. -/
inductive Test where
  -- the item was played so far, or it was not if `equal` is false
  | playStatus (status : PlayStatus) (equal : Bool)
  -- the media are at hand to that degree, or they are not if `equal` is false
  | downloadStatus (status : DownloadStatus) (equal : Bool)
  | dateAdded (test : RangeTest Instant)
  | publishDate (test : RangeTest Instant)
  | duration (test : RangeTest Double)
  | rating (test : RangeTest Double)
  | collectionName (test : TextTest)
  | title (test : TextTest)
  | description (test : TextTest)
  | isFavorited (expected : Bool)
  | isBookmarked (expected : Bool)
  | isArchived (expected : Bool)
  deriving DecidableEq, Repr

/-- What the test says of an item, if the item has the attribute. -/
def Test.answer? (test : Test) (item : Item) : Option Bool :=
  match test with
  | playStatus status equal => some ((item.playStatus == status) == equal)
  | downloadStatus status equal => some ((item.downloadStatus == status) == equal)
  | dateAdded test => some (test.passes item.dateAdded)
  | publishDate test => item.publishDate.map test.passes
  | duration test => item.durationSecs.map fun secs => test.passes (Double.ofNat secs.toNat)
  | rating test => item.rating.map fun rating => test.passes (Double.ofNat rating.toNat)
  | collectionName test => some (test.passes item.collectionName)
  | title test => some (test.passes item.title)
  | description test => some (test.passes item.description)
  | isFavorited expected => some (item.isFavorited == expected)
  | isBookmarked expected => some (item.isBookmarked == expected)
  | isArchived expected => some (item.isArchived == expected)

end Curation
