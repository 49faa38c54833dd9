import Curation.Filter
import Curation.Proofs.Number.Exact
import Curation.Rule.Selection

/-!
# Filters as rules

Whatever a filter asks for can be asked for by a rule: a criterion names its attribute, and implies
a comparator and the kind of its operand. Numbers are compared as doubles then, which makes no
difference up to 2⁵³, and texts must not be blank, for a rule without a text has no meaning.

* `FilterSet.toRuleSet`: the rules that a filter set stands for.
* `Condition.compileTest_toRule`: the rule of a condition has a meaning, which is
  `Criterion.toTest`.
* `FilterSet.select_toRuleSet`: both select the same items, in the same order.
-/

namespace Curation

namespace Criterion

/-- The rule that asks for what the criterion asks for. -/
def toRule : Criterion → Rule
  | playStatus status =>
    { subject := .playStatus, comparator := .equals, operand := .text status.name }
  | downloadStatus status =>
    { subject := .downloadStatus, comparator := .equals, operand := .text status.name }
  | isFavorited expected =>
    { subject := .isFavorited, comparator := .equals, operand := .bool expected }
  | isBookmarked expected =>
    { subject := .isBookmarked, comparator := .equals, operand := .bool expected }
  | isArchived expected =>
    { subject := .isArchived, comparator := .equals, operand := .bool expected }
  | ratingAtLeast bound =>
    { subject := .rating, comparator := .greaterThanOrEqual
      operand := .number (Double.ofNat bound.toNat) }
  | publishedWithinDays days =>
    { subject := .publishDate, comparator := .isWithin, operand := .period (.lastDays days) }
  | addedWithinDays days =>
    { subject := .dateAdded, comparator := .isWithin, operand := .period (.lastDays days) }
  | durationAtLeast bound =>
    { subject := .duration, comparator := .greaterThanOrEqual
      operand := .number (Double.ofNat bound.toNat) }
  | durationAtMost bound =>
    { subject := .duration, comparator := .lessThanOrEqual
      operand := .number (Double.ofNat bound.toNat) }
  | collectionName text =>
    { subject := .collectionName, comparator := .equals, operand := .text text }
  | titleContains text => { subject := .title, comparator := .contains, operand := .text text }

/-- A rule can ask for what the criterion asks for: its text is not blank, and its number is one
that doubles tell from all others. -/
def IsExpressible : Criterion → Prop
  | durationAtLeast bound | durationAtMost bound => bound.toNat ≤ Double.exactLimit
  | collectionName text | titleContains text => Text.trim text.toList ≠ []
  | _ => True

/-- The test that the rule of the criterion is compiled to. -/
def toTest (now : Instant) : Criterion → Test
  | playStatus status => .playStatus status true
  | downloadStatus status => .downloadStatus status true
  | isFavorited expected => .isFavorited expected
  | isBookmarked expected => .isBookmarked expected
  | isArchived expected => .isArchived expected
  | ratingAtLeast bound => .rating (.relation .notBelow (Double.ofNat bound.toNat))
  | publishedWithinDays days =>
    let window := Window.trailingDays now days.toNat
    .publishDate (.within window.start window.stop)
  | addedWithinDays days =>
    let window := Window.trailingDays now days.toNat
    .dateAdded (.within window.start window.stop)
  | durationAtLeast bound => .duration (.relation .notBelow (Double.ofNat bound.toNat))
  | durationAtMost bound => .duration (.relation .notAbove (Double.ofNat bound.toNat))
  | collectionName text => .collectionName (.equals (Text.fold text.toList))
  | titleContains text => .title (.contains (Text.fold text.toList))

end Criterion

namespace PlayStatus

@[simp]
theorem ofText?_name (status : PlayStatus) : ofText? status.name = some status := by
  cases status <;> decide +kernel

end PlayStatus

namespace DownloadStatus

@[simp]
theorem ofText?_name (status : DownloadStatus) : ofText? status.name = some status := by
  cases status <;> decide +kernel

end DownloadStatus

namespace Rule

/-- A rule that compares with a natural number up to 2⁵³ has a meaning. -/
theorem compileNumber_ofNat (rule : Rule) {relation : Relation} {n : Nat}
    (hrelation : rule.comparator.relation? = some relation)
    (hoperand : rule.operand = .number (Double.ofNat n)) (hn : n ≤ Double.exactLimit) :
    rule.compileNumber = .ok (.relation relation (Double.ofNat n)) := by
  have hbound : rule.compileBound = .ok (Double.ofNat n) := by
    rw [compileBound, hoperand]
    exact if_pos (Double.isFinite_ofNat hn)
  rw [compileNumber]
  split
  · next hbetween => simp [hbetween, Comparator.relation?] at hrelation
  · rw [hrelation, hbound]
    rfl

/-- A rule that compares with a text has a meaning if the text is not blank. -/
theorem compileNeedle_text (rule : Rule) {text : String} (hoperand : rule.operand = .text text)
    (htext : Text.trim text.toList ≠ []) : rule.compileNeedle = .ok (Text.fold text.toList) := by
  rw [compileNeedle, hoperand]
  exact if_neg (by simpa using htext)

end Rule

/-- The item has no duration, or one that doubles tell from all others. -/
def Item.HasExactDuration (item : Item) : Prop :=
  ∀ secs, item.durationSecs = some secs → secs.toNat ≤ Double.exactLimit

/-- Ratings are numbers that doubles tell apart. -/
theorem toNat_le_of_uint8 (n : UInt8) : n.toNat ≤ Double.exactLimit :=
  Nat.le_trans (Nat.le_of_lt n.toNat_lt) (by decide)

/-- Exact numbers pass a lower bound as natural numbers do. -/
theorem RangeTest.passes_notBelow {bound n : Nat} (hbound : bound ≤ Double.exactLimit)
    (hn : n ≤ Double.exactLimit) :
    (relation .notBelow (Double.ofNat bound)).passes (Double.ofNat n) = decide (bound ≤ n) := by
  rw [passes, Relation.holds, Comparable.atMost, instComparableDouble]
  exact Double.atMost_ofNat hbound hn

/-- Exact numbers pass an upper bound as natural numbers do. -/
theorem RangeTest.passes_notAbove {bound n : Nat} (hbound : bound ≤ Double.exactLimit)
    (hn : n ≤ Double.exactLimit) :
    (relation .notAbove (Double.ofNat bound)).passes (Double.ofNat n) = decide (n ≤ bound) := by
  rw [passes, Relation.holds, Comparable.atMost, instComparableDouble]
  exact Double.atMost_ofNat hn hbound

/-- The test of a criterion answers what the criterion does. -/
theorem Criterion.answer?_toTest {criterion : Criterion} (h : criterion.IsExpressible)
    {item : Item} (hitem : item.HasExactDuration) (now : Instant) :
    (criterion.toTest now).answer? item = criterion.test? item now := by
  -- rules compare numbers as doubles, which keeps the order of those that are exact
  cases criterion with
  | playStatus | downloadStatus => simp [toTest, Test.answer?, test?]
  | isFavorited | isBookmarked | isArchived => rfl
  | publishedWithinDays | addedWithinDays => rfl
  | ratingAtLeast bound =>
    refine Option.map_congr fun rating _ => ?_
    rw [RangeTest.passes_notBelow (toNat_le_of_uint8 bound) (toNat_le_of_uint8 rating)]
    rfl
  | durationAtLeast bound =>
    refine Option.map_congr fun secs hsecs => ?_
    rw [RangeTest.passes_notBelow h (hitem secs hsecs)]
    rfl
  | durationAtMost bound =>
    refine Option.map_congr fun secs hsecs => ?_
    rw [RangeTest.passes_notAbove h (hitem secs hsecs)]
    rfl
  | collectionName text =>
    refine congrArg some ?_
    rw [Bool.eq_iff_iff]
    simp [TextTest.passes, Text.foldString, String.ofList_inj]
  | titleContains text => rfl

namespace Condition

/-- The rule that asks for what the condition asks for. -/
def toRule (condition : Condition) : Rule :=
  { condition.criterion.toRule with negated := condition.negated }

/-- The rule of the condition, compiled. -/
def compiled (now : Instant) (condition : Condition) : CompiledRule where
  test := condition.criterion.toTest now
  negated := condition.negated
  excludeFavorites := false
  excludeBookmarked := false

/-- The rule of a condition has a meaning. -/
theorem compileTest_toRule {condition : Condition} (h : condition.criterion.IsExpressible)
    (now : Instant) (calendar : Calendar) :
    condition.toRule.compileTest now calendar = .ok (condition.criterion.toTest now) := by
  obtain ⟨criterion, negated⟩ := condition
  cases criterion with
  | playStatus | downloadStatus =>
    simp [toRule, Criterion.toRule, Criterion.toTest, Rule.compileTest, Rule.compileStatus,
      Except.map]
  | isFavorited | isBookmarked | isArchived => rfl
  | publishedWithinDays | addedWithinDays => rfl
  -- the bounds are whole numbers that a double holds exactly
  | ratingAtLeast bound =>
    have hnumber := Rule.compileNumber_ofNat (toRule ⟨.ratingAtLeast bound, negated⟩)
      rfl rfl (toNat_le_of_uint8 bound)
    rw [Rule.compileTest, hnumber]
    rfl
  | durationAtLeast bound =>
    have hnumber := Rule.compileNumber_ofNat (toRule ⟨.durationAtLeast bound, negated⟩)
      rfl rfl h
    rw [Rule.compileTest, hnumber]
    rfl
  | durationAtMost bound =>
    have hnumber := Rule.compileNumber_ofNat (toRule ⟨.durationAtMost bound, negated⟩)
      rfl rfl h
    rw [Rule.compileTest, hnumber]
    rfl
  -- an expressible text is not blank, so it is a needle
  | collectionName text =>
    have hneedle := Rule.compileNeedle_text (toRule ⟨.collectionName text, negated⟩) rfl h
    rw [Rule.compileTest, Rule.compileText, hneedle]
    rfl
  | titleContains text =>
    have hneedle := Rule.compileNeedle_text (toRule ⟨.titleContains text, negated⟩) rfl h
    rw [Rule.compileTest, Rule.compileText, hneedle]
    rfl

/-- The rule of a condition compiles, and to the test that is told of it. -/
theorem compile_toRule {condition : Condition} (h : condition.criterion.IsExpressible)
    (now : Instant) (calendar : Calendar) :
    condition.toRule.compile now calendar = .ok (condition.compiled now) := by
  rw [Rule.compile, compileTest_toRule h]
  obtain ⟨criterion, negated⟩ := condition
  cases criterion <;> rfl

/-- An item matches the rule of a condition if it meets the condition. -/
theorem isMatch_compiled {condition : Condition} (h : condition.criterion.IsExpressible)
    {item : Item} (hitem : item.HasExactDuration) (now : Instant) :
    (condition.compiled now).isMatch item = condition.isMet item now := by
  have hanswer := Criterion.answer?_toTest h hitem now
  rw [CompiledRule.isMatch, compiled, hanswer, isMet]
  cases condition.criterion.test? item now with
  | some answer => simp [CompiledRule.excludes]
  | none => rfl

/-- The rule of a condition asks about archived items if the condition does. -/
theorem mentionsArchived_compiled (condition : Condition) (now : Instant) :
    (condition.compiled now).mentionsArchived =
      match condition.criterion with
      | .isArchived _ => true
      | _ => false := by
  obtain ⟨criterion, negated⟩ := condition
  cases criterion <;> rfl

end Condition

/-- The rules of several conditions all have a meaning. -/
theorem compiledRules_toRule {conditions : List Condition}
    (h : ∀ condition ∈ conditions, condition.criterion.IsExpressible) (now : Instant)
    (calendar : Calendar) :
    compiledRules (conditions.map (·.toRule)) now calendar =
      conditions.map (·.compiled now) := by
  induction conditions with
  | nil => rfl
  | cons condition conditions ih =>
    have hfirst := condition.compile_toRule (h condition List.mem_cons_self) now calendar
    have hrest := ih fun other hother => h other (List.mem_cons_of_mem _ hother)
    rw [compiledRules] at hrest ⊢
    rw [List.map_cons, List.filterMap_cons, hfirst, hrest]
    rfl

namespace FilterSet

variable {set : FilterSet}

/-- The rule set that asks for what the filter set asks for, in an order, with the id, the name and
the times of another rule set. -/
def toRuleSet (set : FilterSet) (order : SortOrder) (base : RuleSet) : RuleSet :=
  { base with rules := set.conditions.map (·.toRule), logic := set.logic, sort := some order }

/-- Rules can ask for what every condition of the set asks for. -/
def IsExpressible (set : FilterSet) : Prop :=
  ∀ condition ∈ set.conditions, condition.criterion.IsExpressible

/-- The rules of a filter set ask about archived items if one of its conditions does. -/
theorem mentionsArchived_compiled (set : FilterSet) (now : Instant) :
    (set.conditions.map (·.compiled now)).any (·.mentionsArchived) = set.mentionsArchived := by
  rw [List.any_map, mentionsArchived]
  exact List.any_congr rfl fun condition => condition.mentionsArchived_compiled now

/-- An item matches the rules of a filter set if it passes the filter set. -/
theorem isMatch_compile_toRuleSet (h : set.IsExpressible) (order : SortOrder) (base : RuleSet)
    (now : Instant) (calendar : Calendar) {item : Item} (hitem : item.HasExactDuration) :
    ((set.toRuleSet order base).compile now calendar).isMatch item = set.isMatch item now := by
  have hrules := compiledRules_toRule h now calendar
  have hholds : set.logic.holds (set.conditions.map (·.compiled now)) (·.isMatch item) =
      set.logic.holds set.conditions (·.isMet item now) := by
    rw [Combination.holds_map]
    exact Combination.holds_congr fun condition hcondition =>
      condition.isMatch_compiled (h condition hcondition) hitem now
  rw [Selector.isMatch, Selector.mentionsArchived, RuleSet.compile, toRuleSet, hrules,
    mentionsArchived_compiled, hholds, isMatch]

/-- A filter set and its rules select the same items in the same order. -/
theorem select_toRuleSet {set : FilterSet} (hset : set.IsExpressible) {items : List Item}
    (hitems : ∀ item ∈ items, item.HasExactDuration) (order : SortOrder) (base : RuleSet)
    (now : Instant) (calendar : Calendar) :
    (set.toRuleSet order base).select now calendar items = set.select order now items := by
  have hfilter : items.filter ((set.toRuleSet order base).compile now calendar).isMatch =
      items.filter (set.isMatch · now) :=
    List.filter_congr fun item hitem =>
      isMatch_compile_toRuleSet hset order base now calendar (hitems item hitem)
  rw [RuleSet.select, Selector.select, hfilter, select]
  rfl

/-- A negated condition on the duration passes over an item without one, and an archived item is
selected for its own sake only. -/
theorem select_toRuleSet_long_news :
    let set : FilterSet :=
      { conditions :=
          [{ criterion := .durationAtMost 3600, negated := true }, ⟨.titleContains "NEWS", false⟩,
            ⟨.publishedWithinDays 7, false⟩, ⟨.isArchived false, true⟩]
        logic := .and }
    let long : Item :=
      { id := "long", title := "Evening News", collectionName := "Daily"
        durationSecs := some 9007199254740992, publishDate := some ⟨86400, 0⟩
        dateAdded := ⟨0, 0⟩, isArchived := true }
    let items := [{ long with id := "short", durationSecs := some 3600 },
      { long with id := "unknown", durationSecs := none }, long,
      { long with id := "current", isArchived := false }]
    let now : Instant := ⟨172800, 0⟩
    set.IsExpressible ∧ (∀ item ∈ items, item.HasExactDuration) ∧
      (set.toRuleSet .standard { id := "news", logic := .or }).select now (.utc .mon) items =
        [long] := by
  intro set long items now
  have hset : set.IsExpressible := by
    simp only [set, IsExpressible, List.forall_mem_cons, Criterion.IsExpressible, List.not_mem_nil,
      false_implies, implies_true]
    decide
  have hlimit : Double.exactLimit = 9007199254740992 := rfl
  have hitems : ∀ item ∈ items, item.HasExactDuration := by
    simp [items, long, Item.HasExactDuration, hlimit]
  have hfilter : items.filter (set.isMatch · now) = [long] := by decide +kernel
  refine ⟨hset, hitems, ?_⟩
  -- one item is left, so there is nothing to sort
  rw [select_toRuleSet hset hitems, select, hfilter]
  exact List.mergeSort_singleton long

end FilterSet

end Curation
