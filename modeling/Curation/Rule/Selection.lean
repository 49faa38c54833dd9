import Curation.Rule.Compiled

/-!
# Selection by rule sets

A rule set selects items by its rules that make sense; the others are passed over and reported.
Archived items are left out unless one of the rules that make sense asks about them.

* `RuleSet.select`: the items that a rule set selects.
* `RuleSet.invalidRules`: the rules without meaning, which neither now nor the calendar changes.
-/

namespace Curation

/-- A rule set whose rules are compiled. -/
structure Selector where
  /-- How the rules are combined. -/
  logic : Combination
  /-- The rules that make sense. -/
  rules : List CompiledRule
  /-- The positions of the other rules and the causes why they do not. -/
  skipped : List (Nat × InvalidRule)
  /-- The order of the result; without one, items keep their order. -/
  sort : Option SortOrder
  deriving DecidableEq, Repr

/-- The compiled forms of the rules that make sense. -/
def compiledRules (rules : List Rule) (now : Instant) (calendar : Calendar) : List CompiledRule :=
  rules.filterMap fun rule => (rule.compile now calendar).toOption

/-- The positions, counted from `first` on, of the rules without meaning, and the causes. -/
def skippedRules (now : Instant) (calendar : Calendar) : Nat → List Rule → List (Nat × InvalidRule)
  | _, [] => []
  | first, rule :: rules =>
    match rule.compile now calendar with
    | .ok _ => skippedRules now calendar (first + 1) rules
    | .error cause => (first, cause) :: skippedRules now calendar (first + 1) rules

/-- Compiles the rules of a set for a given now and calendar. -/
def RuleSet.compile (set : RuleSet) (now : Instant) (calendar : Calendar) : Selector where
  logic := set.logic
  rules := compiledRules set.rules now calendar
  skipped := skippedRules now calendar 0 set.rules
  sort := set.sort

namespace Selector

/-- Whether a rule asks about archived items. -/
def mentionsArchived (selector : Selector) : Bool :=
  selector.rules.any (·.mentionsArchived)

/-- Whether the item is selected. -/
def isMatch (selector : Selector) (item : Item) : Bool :=
  if item.isArchived && !selector.mentionsArchived then false
  else selector.logic.holds selector.rules (·.isMatch item)

/-- Items in the order of the result. -/
def arrange (selector : Selector) (items : List Item) : List Item :=
  match selector.sort with
  | some order => order.sort items
  | none => items

/-- The items that are selected, in the order of the result. -/
def select (selector : Selector) (items : List Item) : List Item :=
  selector.arrange (items.filter selector.isMatch)

end Selector

namespace RuleSet

def select (set : RuleSet) (now : Instant) (calendar : Calendar) (items : List Item) : List Item :=
  (set.compile now calendar).select items

/-- The positions of the rules without meaning, and the causes. -/
def invalidRules (set : RuleSet) : List (Nat × InvalidRule) :=
  skippedRules ⟨0, 0⟩ (Calendar.utc .mon) 0 set.rules

end RuleSet

end Curation
