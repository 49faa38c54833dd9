import Curation.Combination
import Curation.Number.Double
import Curation.SortOrder
import Curation.Time.Period

/-!
# Rules

A rule compares an attribute of an item with an operand. Rules are written down freely: whether a
rule makes sense is found out when it is compiled. A rule set is a named list of rules with a way to
combine them, and tells how long its result stays valid.

* `RuleSet.refreshMillis`, `RuleSet.refreshNanos`: the time for which a result stays valid.
-/

namespace Curation

/-- An attribute that a rule reads. -/
inductive Attribute where
  | playStatus
  | downloadStatus
  | dateAdded
  | publishDate
  | duration
  | rating
  | collectionName
  | title
  | description
  | isFavorited
  | isBookmarked
  | isArchived
  deriving DecidableEq, Repr

namespace Attribute

def all : List Attribute :=
  [playStatus, downloadStatus, dateAdded, publishDate, duration, rating, collectionName, title,
    description, isFavorited, isBookmarked, isArchived]

/-- The name of the attribute in records and messages. -/
def name : Attribute → String
  | playStatus => "playStatus"
  | downloadStatus => "downloadStatus"
  | dateAdded => "dateAdded"
  | publishDate => "publishDate"
  | duration => "duration"
  | rating => "rating"
  | collectionName => "collectionName"
  | title => "title"
  | description => "description"
  | isFavorited => "isFavorited"
  | isBookmarked => "isBookmarked"
  | isArchived => "isArchived"

end Attribute

/-- A way to compare an attribute with an operand. -/
inductive Comparator where
  | equals
  | notEquals
  | contains
  | notContains
  | isWithin
  | isBetween
  | greaterThan
  | greaterThanOrEqual
  | lessThan
  | lessThanOrEqual
  | isTrue
  | isFalse
  deriving DecidableEq, Repr

namespace Comparator

def all : List Comparator :=
  [equals, notEquals, contains, notContains, isWithin, isBetween, greaterThan,
    greaterThanOrEqual, lessThan, lessThanOrEqual, isTrue, isFalse]

/-- The name of the comparator in records and messages. -/
def name : Comparator → String
  | equals => "equals"
  | notEquals => "notEquals"
  | contains => "contains"
  | notContains => "notContains"
  | isWithin => "isWithin"
  | isBetween => "isBetween"
  | greaterThan => "greaterThan"
  | greaterThanOrEqual => "greaterThanOrEqual"
  | lessThan => "lessThan"
  | lessThanOrEqual => "lessThanOrEqual"
  | isTrue => "isTrue"
  | isFalse => "isFalse"

end Comparator

/-- What an attribute is compared with. -/
inductive Operand where
  | none
  -- a text, which may also tell a status, a number or a date
  | text (text : String)
  | number (number : Double)
  | bool (bool : Bool)
  | date (instant : Instant)
  | period (period : Period)
  | numberRange (lo hi : Double)
  | dateRange (start stop : Instant)
  deriving DecidableEq, Repr

/-- The name of the kind of operand in records and messages. -/
def Operand.kind : Operand → String
  | none => "none"
  | text _ => "text"
  | number _ => "number"
  | bool _ => "bool"
  | date _ => "date"
  | period _ => "period"
  | numberRange _ _ => "numberRange"
  | dateRange _ _ => "dateRange"

/-- A comparison of an attribute with an operand. -/
structure Rule where
  subject : Attribute
  /-- How it is compared. -/
  comparator : Comparator
  /-- What it is compared with. -/
  operand : Operand := .none
  /-- Whether the comparison must not hold. -/
  negated : Bool := false
  /-- Whether favorites never match. -/
  excludeFavorites : Bool := false
  /-- Whether items with a bookmark never match. -/
  excludeBookmarked : Bool := false
  deriving DecidableEq, Repr

namespace Rule

/-- The rule that asks that the comparison does not hold. -/
def negate (rule : Rule) : Rule := { rule with negated := true }

/-- The rule that never matches favorites. -/
def excludingFavorites (rule : Rule) : Rule := { rule with excludeFavorites := true }

/-- The rule that never matches items with a bookmark. -/
def excludingBookmarked (rule : Rule) : Rule := { rule with excludeBookmarked := true }

end Rule

/-- A named list of rules. -/
structure RuleSet where
  /-- What tells the set from others. -/
  id : String
  /-- The name, empty if there is none. -/
  name : String := ""
  rules : List Rule := []
  /-- How the rules are combined. -/
  logic : Combination
  /-- The number of seconds for which a result stays valid. -/
  refreshIntervalSecs : UInt64 := 3600
  /-- When the set was last evaluated. -/
  lastEvaluated : Option Instant := .none
  /-- The order of the result; without one, items keep their order. -/
  sort : Option SortOrder := .none
  deriving DecidableEq, Repr

/-- Spans of time are at most this number of milliseconds, the greatest of 64 bits. -/
def maxSpanMillis : Int := 9223372036854775807

/-- A number of seconds as milliseconds, at most the longest span. -/
def spanMillis (secs : Int) : Int :=
  if secs * 1000 ≤ maxSpanMillis then secs * 1000 else maxSpanMillis

/-- The milliseconds for which a result stays valid. -/
def RuleSet.refreshMillis (set : RuleSet) : Int := spanMillis set.refreshIntervalSecs.toNat

/-- The nanoseconds for which a result stays valid. -/
def RuleSet.refreshNanos (set : RuleSet) : Int := set.refreshMillis * 1000000

end Curation
