import Curation.Number.Decimal
import Curation.Rule.Invalid
import Curation.Rule.Test

/-!
# Compiled rules

A rule that makes sense is compiled into a test of its attribute. Periods and calendar dates are
turned into instants at that time, for a given now and calendar. Which rules make sense depends on
neither.

* `Rule.compile`: the test of a rule, or the cause why there is none.
* `CompiledRule.isMatch`: whether an item matches.
-/

namespace Curation

namespace Rule

/-- The cause that the comparator is none for the attribute. -/
def badComparator (rule : Rule) : InvalidRule :=
  .incompatibleComparator rule.subject rule.comparator

/-- The cause that the comparator takes no operand of that kind. -/
def badOperand (rule : Rule) : InvalidRule :=
  .incompatibleValue rule.subject rule.comparator rule.operand.kind

/-- The status that a rule asks for, read by `read?`, and whether it asks for it or against it. -/
def compileStatus (rule : Rule) (read? : String → Option α) : Except InvalidRule (α × Bool) :=
  let status (equal : Bool) : Except InvalidRule (α × Bool) :=
    match rule.operand with
    | .text text =>
      match read? text with
      | some status => .ok (status, equal)
      | none => .error (.unknownStatus rule.subject text)
    | _ => .error rule.badOperand
  match rule.comparator with
  | .equals => status true
  | .notEquals => status false
  | _ => .error rule.badComparator

/-- The truth value that a rule asks for. -/
def compileFlag (rule : Rule) : Except InvalidRule Bool :=
  match rule.comparator, rule.operand with
  | .isTrue, _ => .ok true
  | .isFalse, _ => .ok false
  | .equals, .bool expected => .ok expected
  | .notEquals, .bool expected => .ok (!expected)
  | .equals, _ => .error rule.badOperand
  | .notEquals, _ => .error rule.badOperand
  | _, _ => .error rule.badComparator

/-- The text that a rule compares with, which must not be blank. -/
def compileNeedle (rule : Rule) : Except InvalidRule (List Char) :=
  match rule.operand with
  | .text text =>
    if (Text.trim text.toList).isEmpty then .error .emptyText else .ok (Text.fold text.toList)
  | _ => .error rule.badOperand

/-- The test of a text that a rule asks for. -/
def compileText (rule : Rule) : Except InvalidRule TextTest :=
  match rule.comparator with
  | .equals => rule.compileNeedle.map .equals
  | .notEquals => rule.compileNeedle.map .notEquals
  | .contains => rule.compileNeedle.map .contains
  | .notContains => rule.compileNeedle.map .notContains
  | _ => .error rule.badComparator

/-- The name of a double that is not finite. -/
def nonFiniteName (d : Double) : String :=
  if d.isNaN then "NaN" else if d.negative then "-inf" else "inf"

/-- The double, which has to be finite. -/
def finite (d : Double) : Except InvalidRule Double :=
  if d.isFinite then .ok d else .error (.invalidNumber (nonFiniteName d))

/-- The number that a rule compares with: a number, or a text that tells one between blanks. -/
def compileBound (rule : Rule) : Except InvalidRule Double :=
  match rule.operand with
  | .number number => finite number
  | .text text =>
    match Double.readNumeral? (Text.trim text.toList) with
    | some number => finite number
    | none => .error (.invalidNumber text)
  | _ => .error rule.badOperand

/-- The test of a number that a rule asks for. -/
def compileNumber (rule : Rule) : Except InvalidRule (RangeTest Double) :=
  match rule.comparator with
  | .isBetween =>
    match rule.operand with
    | .numberRange lo hi =>
      if lo.isFinite && hi.isFinite then
        if hi.less lo then .error .reversedRange else .ok (.between lo hi)
      else .error rule.badOperand
    | .none => .error (.missingBounds rule.comparator)
    | _ => .error rule.badOperand
  | comparator =>
    match comparator.relation? with
    | some relation => rule.compileBound.map (.relation relation)
    | none => .error rule.badComparator

/-- The test that an instant stands in a relation to a local calendar day: on it or not, after its
end or its start, before its start or its end. -/
def dayTest (relation : Relation) (day : Window) : RangeTest Instant :=
  match relation with
  | .equal => .within day.start day.stop
  | .notEqual => .outside day.start day.stop
  | .above => .relation .notBelow day.stop
  | .notBelow => .relation .notBelow day.start
  | .below => .relation .below day.start
  | .notAbove => .relation .below day.stop

/-- The test that an instant stands in a relation to another one; equal instants are those of one
local calendar day. -/
def instantTest (relation : Relation) (calendar : Calendar) (t : Instant) : RangeTest Instant :=
  match relation with
  -- Instants are too fine to be equal by intent, days are not.
  | .equal => dayTest .equal (Window.dayOf calendar t)
  | .notEqual => dayTest .notEqual (Window.dayOf calendar t)
  | relation => .relation relation t

/-- The test of an instant that a rule asks for. -/
def compileDate (rule : Rule) (now : Instant) (calendar : Calendar) :
    Except InvalidRule (RangeTest Instant) :=
  match rule.comparator with
  | .isWithin =>
    match rule.operand with
    | .period period =>
      let window := period.resolve now calendar
      .ok (.within window.start window.stop)
    | .none => .error (.missingBounds rule.comparator)
    | _ => .error rule.badOperand
  | .isBetween =>
    match rule.operand with
    | .dateRange start stop =>
      if stop < start then .error .reversedRange else .ok (.between start stop)
    | .none => .error (.missingBounds rule.comparator)
    | _ => .error rule.badOperand
  | comparator =>
    match comparator.relation? with
    | none => .error rule.badComparator
    | some relation =>
      match rule.operand with
      | .date t => .ok (instantTest relation calendar t)
      | .text text =>
        match Date.ofText? text with
        | some d => .ok (dayTest relation (Window.ofDate calendar d))
        | none => .error (.invalidDate text)
      | _ => .error rule.badOperand

/-- The test of the attribute that a rule asks for. -/
def compileTest (rule : Rule) (now : Instant) (calendar : Calendar) : Except InvalidRule Test :=
  match rule.subject with
  | .playStatus => (rule.compileStatus PlayStatus.ofText?).map fun (status, equal) =>
      .playStatus status equal
  | .downloadStatus => (rule.compileStatus DownloadStatus.ofText?).map fun (status, equal) =>
      .downloadStatus status equal
  | .dateAdded => (rule.compileDate now calendar).map .dateAdded
  | .publishDate => (rule.compileDate now calendar).map .publishDate
  | .duration => rule.compileNumber.map .duration
  | .rating => rule.compileNumber.map .rating
  | .collectionName => rule.compileText.map .collectionName
  | .title => rule.compileText.map .title
  | .description => rule.compileText.map .description
  | .isFavorited => rule.compileFlag.map .isFavorited
  | .isBookmarked => rule.compileFlag.map .isBookmarked
  | .isArchived => rule.compileFlag.map .isArchived

end Rule

/-- A rule that makes sense. -/
structure CompiledRule where
  /-- The test of the attribute. -/
  test : Test
  /-- Whether the test must not be passed. -/
  negated : Bool
  /-- Whether favorites never match. -/
  excludeFavorites : Bool
  /-- Whether items with a bookmark never match. -/
  excludeBookmarked : Bool
  deriving DecidableEq, Repr

/-- Compiles a rule for a given now and calendar. -/
def Rule.compile (rule : Rule) (now : Instant) (calendar : Calendar) :
    Except InvalidRule CompiledRule :=
  (rule.compileTest now calendar).map fun test =>
    { test
      negated := rule.negated
      excludeFavorites := rule.excludeFavorites
      excludeBookmarked := rule.excludeBookmarked }

namespace CompiledRule

/-- Whether the rule never matches the item because of a mark that the owner put on it. -/
def excludes (rule : CompiledRule) (item : Item) : Bool :=
  rule.excludeFavorites && item.isFavorited || rule.excludeBookmarked && item.isBookmarked

/-- Whether the item has the attribute, passes or fails the test as asked, and is not excluded. -/
def isMatch (rule : CompiledRule) (item : Item) : Bool :=
  match rule.test.answer? item with
  | some answer => answer != rule.negated && !rule.excludes item
  | none => false

/-- Whether the rule asks about archived items. -/
def mentionsArchived (rule : CompiledRule) : Bool :=
  match rule.test with
  | .isArchived _ => true
  | _ => false

end CompiledRule

end Curation
