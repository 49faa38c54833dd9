import Curation.Proofs.Rule.Dates

/-!
# Opposite comparators

Most comparators have an opposite one. The rule with the opposite comparator has a meaning if the
rule has one, and matches the items that the negated rule matches. An item that lacks the attribute,
or that the rule excludes, is matched neither by the rule nor by its negation, and every other item
by one of them.

* `Comparator.opposite?`, `Relation.holds_opposite`: comparators and relations that exclude each
  other.
* `Rule.compileTest_opposite`: the test with the opposite comparator gives the other answer.
* `Rule.compile_opposite`: rules, their negations, and rules with the opposite comparator.
-/

namespace Curation

/-- The comparator that holds where a comparator does not. -/
def Comparator.opposite? : Comparator → Option Comparator
  | equals => some notEquals
  | notEquals => some equals
  | contains => some notContains
  | notContains => some contains
  | greaterThan => some lessThanOrEqual
  | lessThanOrEqual => some greaterThan
  | lessThan => some greaterThanOrEqual
  | greaterThanOrEqual => some lessThan
  | isTrue => some isFalse
  | isFalse => some isTrue
  | isWithin | isBetween => none

/-- The relation that holds where a relation does not. -/
def Relation.opposite : Relation → Relation
  | equal => notEqual
  | notEqual => equal
  | above => notAbove
  | notAbove => above
  | below => notBelow
  | notBelow => below

/-- The opposite comparator asks for the opposite relation. -/
theorem Comparator.relation?_opposite {comparator other : Comparator} {relation : Relation}
    (hopposite : comparator.opposite? = some other)
    (hrelation : comparator.relation? = some relation) :
    other.relation? = some relation.opposite := by
  cases comparator with
  | equals | notEquals | greaterThan | greaterThanOrEqual | lessThan | lessThanOrEqual =>
    cases hrelation
    cases hopposite
    rfl
  | _ => cases hrelation

section Comparable

/-- Of two values, either one is below the other, or the other is at most the first. -/
def Comparable.Connected [Comparable α] (a b : α) : Prop :=
  (Comparable.less a b = !Comparable.atMost b a) ∧ (Comparable.less b a = !Comparable.atMost a b)

/-- Any two instants can be compared. -/
theorem Instant.connected (a b : Instant) : Comparable.Connected a b := by
  have hless : ∀ a b : Instant, decide (a < b) = !decide (b ≤ a) := by
    intro a b
    rw [← decide_not]
    simp only [Instant.not_le]
  exact ⟨hless a b, hless b a⟩

/-- Any two numbers can be compared, if neither is NaN. -/
theorem Double.connected {a b : Double} (ha : a.isNaN = false) (hb : b.isNaN = false) :
    Comparable.Connected a b :=
  ⟨less_eq_not_atMost ha hb, less_eq_not_atMost hb ha⟩

/-- Of a relation and its opposite one, one holds. -/
theorem Relation.holds_opposite [Comparable α] {value bound : α}
    (h : Comparable.Connected value bound) (relation : Relation) :
    relation.opposite.holds value bound = !relation.holds value bound := by
  obtain ⟨hless, hless'⟩ := h
  cases relation with
  | equal => rfl
  | notEqual => exact (Bool.not_not _).symm
  | above | below | notAbove | notBelow => simp [opposite, holds, hless, hless']

end Comparable

/-- The test that a value passes where it does not pass a test; there is none for a range with both
bounds in it. -/
def RangeTest.opposite? : RangeTest α → Option (RangeTest α)
  | relation asked bound => some (relation asked.opposite bound)
  | within start stop => some (outside start stop)
  | outside start stop => some (within start stop)
  | between _ _ => none

/-- A value passes the opposite of a test if it does not pass the test, where it can be compared
with the bound. -/
theorem RangeTest.passes_opposite? [Comparable α] {test test' : RangeTest α} {value : α}
    (h : test.opposite? = some test')
    (hconnected : ∀ asked bound, test = .relation asked bound → Comparable.Connected value bound) :
    test'.passes value = !test.passes value := by
  cases test with
  | relation asked bound =>
    cases h
    exact Relation.holds_opposite (hconnected asked bound rfl) asked
  | within start stop =>
    cases h
    rfl
  | outside start stop =>
    cases h
    exact (Bool.not_not _).symm
  -- an inclusive range has no opposite
  | between lo hi => cases h

/-- The test that a text passes where it does not pass a test. -/
def TextTest.opposite : TextTest → TextTest
  | equals needle => notEquals needle
  | notEquals needle => equals needle
  | contains needle => notContains needle
  | notContains needle => contains needle

/-- A text passes the opposite of a test if it does not pass the test. -/
theorem TextTest.passes_opposite (test : TextTest) (text : String) :
    test.opposite.passes text = !test.passes text := by
  cases test <;> simp [opposite, passes, bne]

/-- The item does not have the attribute. -/
def Item.Lacks (item : Item) : Attribute → Prop
  | .publishDate => item.publishDate = none
  | .duration => item.durationSecs = none
  | .rating => item.rating = none
  | _ => False

namespace Rule

variable {rule : Rule} {other : Comparator} {now : Instant} {calendar : Calendar}

/-- The test of a day has an opposite, the test with the opposite relation. -/
theorem dayTest_opposite (relation : Relation) (day : Window) :
    (dayTest relation day).opposite? = some (dayTest relation.opposite day) := by
  cases relation <;> rfl

theorem instantTest_opposite (relation : Relation) (calendar : Calendar) (i : Instant) :
    (instantTest relation calendar i).opposite? =
      some (instantTest relation.opposite calendar i) := by
  cases relation <;> rfl

/-- A rule about dates asks for a relation if its comparator has an opposite one. -/
theorem exists_relation?_of_compileDate (hopposite : rule.comparator.opposite? = some other)
    {test : RangeTest Instant} (h : rule.compileDate now calendar = .ok test) :
    ∃ relation, rule.comparator.relation? = some relation := by
  unfold compileDate at h
  -- the comparators for periods and ranges have no opposite one
  split at h
  · next hwithin =>
    rw [hwithin] at hopposite
    cases hopposite
  · next hbetween =>
    rw [hbetween] at hopposite
    cases hopposite
  · split at h
    · cases h
    · next relation hrelation => exact ⟨relation, hrelation⟩

/-- With the opposite comparator, a rule about dates asks for the opposite test. -/
theorem compileDate_opposite (hopposite : rule.comparator.opposite? = some other)
    {test : RangeTest Instant} (h : rule.compileDate now calendar = .ok test) :
    ∃ test', { rule with comparator := other }.compileDate now calendar = .ok test' ∧
      test.opposite? = some test' := by
  obtain ⟨relation, hrelation⟩ := exists_relation?_of_compileDate hopposite h
  have hother := Comparator.relation?_opposite hopposite hrelation
  rw [compileDate_eq hrelation] at h
  rw [compileDate_eq hother]
  -- both comparators read the operand in the same way
  split at h
  · next i hoperand =>
    simp only [hoperand]
    cases h
    exact ⟨_, rfl, instantTest_opposite relation calendar i⟩
  · next text hoperand =>
    simp only [hoperand]
    split at h
    · cases h
      exact ⟨_, rfl, dayTest_opposite relation _⟩
    · cases h
  · cases h

/-- Bounds that are not refused are finite. -/
theorem isFinite_of_finite {number bound : Double} (h : finite number = .ok bound) :
    bound.isFinite = true := by
  unfold finite at h
  split at h
  · next hfinite =>
    cases h
    exact hfinite
  · cases h

/-- The bound of a rule about numbers is finite, whatever the comparator is. -/
theorem compileBound_eq_ok {bound : Double} (h : rule.compileBound = .ok bound)
    (other : Comparator) :
    bound.isFinite = true ∧ { rule with comparator := other }.compileBound = .ok bound := by
  unfold compileBound at h ⊢
  split at h
  · next number hoperand =>
    simp only [hoperand]
    exact ⟨isFinite_of_finite h, h⟩
  -- a text counts if it reads as a finite number
  · next text hoperand =>
    simp only [hoperand]
    split at h
    · exact ⟨isFinite_of_finite h, h⟩
    · cases h
  · cases h

/-- A rule that compares numbers by order asks for a test made from its bound. -/
theorem compileNumber_eq {relation : Relation}
    (hrelation : rule.comparator.relation? = some relation) :
    rule.compileNumber = rule.compileBound.map (.relation relation) := by
  unfold compileNumber
  split
  · next hbetween =>
    rw [hbetween] at hrelation
    cases hrelation
  · rw [hrelation]

/-- With the opposite comparator, a rule about numbers asks for the opposite relation to a finite
bound. -/
theorem compileNumber_opposite (hopposite : rule.comparator.opposite? = some other)
    {test : RangeTest Double} (h : rule.compileNumber = .ok test) :
    ∃ relation bound, test = .relation relation bound ∧ bound.isFinite = true ∧
      { rule with comparator := other }.compileNumber =
        .ok (.relation relation.opposite bound) := by
  unfold compileNumber at h
  -- the comparator for ranges has no opposite one
  split at h
  · next hbetween =>
    rw [hbetween] at hopposite
    cases hopposite
  · split at h
    · next relation hrelation =>
      obtain ⟨bound, hbound, rfl⟩ := map_eq_ok_iff.mp h
      obtain ⟨hfinite, hbound'⟩ := compileBound_eq_ok hbound other
      refine ⟨relation, bound, rfl, hfinite, ?_⟩
      rw [compileNumber_eq (Comparator.relation?_opposite hopposite hrelation), hbound']
      rfl
    · cases h

/-- With the opposite comparator, a rule about a status asks for it if the rule asks against it. -/
theorem compileStatus_opposite (hopposite : rule.comparator.opposite? = some other)
    {read? : String → Option α} {status : α} {equal : Bool}
    (h : rule.compileStatus read? = .ok (status, equal)) :
    { rule with comparator := other }.compileStatus read? = .ok (status, !equal) := by
  obtain ⟨subject, comparator, operand, negated, excludeFavorites, excludeBookmarked⟩ := rule
  unfold compileStatus at h ⊢
  cases comparator with
  | equals | notEquals =>
    cases hopposite
    cases operand with
    | text text =>
      simp only at h ⊢
      cases hread : read? text with
      | some status' =>
        rw [hread] at h
        cases h
        rfl
      | none =>
        rw [hread] at h
        cases h
    | _ => cases h
  -- no other comparator compares statuses
  | _ => cases h

/-- With the opposite comparator, a rule about a truth value asks for the other one. -/
theorem compileFlag_opposite (hopposite : rule.comparator.opposite? = some other) {expected : Bool}
    (h : rule.compileFlag = .ok expected) :
    { rule with comparator := other }.compileFlag = .ok (!expected) := by
  obtain ⟨subject, comparator, operand, negated, excludeFavorites, excludeBookmarked⟩ := rule
  cases comparator with
  | isTrue | isFalse =>
    cases hopposite
    cases h
    rfl
  | equals | notEquals =>
    cases hopposite
    cases operand with
    | bool expected' =>
      cases h
      simp [compileFlag]
    | _ => cases h
  | _ => cases h

/-- The text that a rule compares with is the same, whatever the comparator is. -/
theorem compileNeedle_eq_ok {needle : List Char} (h : rule.compileNeedle = .ok needle)
    (other : Comparator) : { rule with comparator := other }.compileNeedle = .ok needle := by
  unfold compileNeedle at h ⊢
  split at h
  · next text hoperand =>
    simp only [hoperand]
    exact h
  · cases h

/-- With the opposite comparator, a rule about a text asks for the opposite test. -/
theorem compileText_opposite (hopposite : rule.comparator.opposite? = some other)
    {test : TextTest} (h : rule.compileText = .ok test) :
    { rule with comparator := other }.compileText = .ok test.opposite := by
  obtain ⟨subject, comparator, operand, negated, excludeFavorites, excludeBookmarked⟩ := rule
  unfold compileText at h ⊢
  cases comparator with
  | equals | notEquals | contains | notContains =>
    cases hopposite
    obtain ⟨needle, hneedle, rfl⟩ := map_eq_ok_iff.mp h
    exact map_eq_ok_iff.mpr ⟨needle, compileNeedle_eq_ok hneedle _, rfl⟩
  | _ => cases h

/-- With the opposite comparator, a rule that has a meaning asks for a test with the other answer of
every item that has one. -/
theorem compileTest_opposite (hopposite : rule.comparator.opposite? = some other) {test : Test}
    (h : rule.compileTest now calendar = .ok test) :
    ∃ test', { rule with comparator := other }.compileTest now calendar = .ok test' ∧
      ∀ item, test'.answer? item = (test.answer? item).map (!·) := by
  obtain ⟨subject, comparator, operand, negated, excludeFavorites, excludeBookmarked⟩ := rule
  have hbeq : ∀ a b : Bool, (a == !b) = !(a == b) := by decide
  -- one case for each kind of value
  cases subject with
  | playStatus | downloadStatus =>
    obtain ⟨⟨status, equal⟩, hstatus, rfl⟩ := map_eq_ok_iff.mp h
    refine ⟨_, map_eq_ok_iff.mpr ⟨_, compileStatus_opposite hopposite hstatus, rfl⟩, fun item => ?_⟩
    exact congrArg some (hbeq _ _)
  | dateAdded | publishDate =>
    obtain ⟨dateTest, hdate, rfl⟩ := map_eq_ok_iff.mp h
    obtain ⟨dateTest', hdate', htest'⟩ := compileDate_opposite hopposite hdate
    have hpasses : dateTest'.passes = fun t => !dateTest.passes t := funext fun t =>
      RangeTest.passes_opposite? htest' fun _ bound _ => Instant.connected t bound
    refine ⟨_, map_eq_ok_iff.mpr ⟨dateTest', hdate', rfl⟩, fun item => ?_⟩
    simp only [Test.answer?, hpasses, Option.map_some, Option.map_map, Function.comp_def]
  | duration | rating =>
    obtain ⟨_, hnumber, rfl⟩ := map_eq_ok_iff.mp h
    obtain ⟨relation, bound, rfl, hfinite, hnumber'⟩ := compileNumber_opposite hopposite hnumber
    -- values are natural and bounds are finite: an undefined number would stand in no relation
    have hholds : ∀ n, relation.opposite.holds (Double.ofNat n) bound =
        !relation.holds (Double.ofNat n) bound := fun n =>
      Relation.holds_opposite
        (Double.connected (Double.isNaN_ofNat n) (Double.isNaN_of_isFinite hfinite)) relation
    refine ⟨_, map_eq_ok_iff.mpr ⟨_, hnumber', rfl⟩, fun item => ?_⟩
    simp only [Test.answer?, RangeTest.passes, hholds, Option.map_map, Function.comp_def]
  | collectionName | title | description =>
    obtain ⟨textTest, htext, rfl⟩ := map_eq_ok_iff.mp h
    refine ⟨_, map_eq_ok_iff.mpr ⟨_, compileText_opposite hopposite htext, rfl⟩, fun item => ?_⟩
    exact congrArg some (textTest.passes_opposite _)
  | isFavorited | isBookmarked | isArchived =>
    obtain ⟨expected, hexpected, rfl⟩ := map_eq_ok_iff.mp h
    refine ⟨_, map_eq_ok_iff.mpr ⟨_, compileFlag_opposite hopposite hexpected, rfl⟩, fun item => ?_⟩
    exact congrArg some (hbeq _ _)

/-- The test of a rule has no answer of the items that lack the attribute, and of no others. -/
theorem answer?_eq_none_iff {test : Test} (h : rule.compileTest now calendar = .ok test)
    (item : Item) : test.answer? item = none ↔ item.Lacks rule.subject := by
  obtain ⟨subject, comparator, operand, negated, excludeFavorites, excludeBookmarked⟩ := rule
  cases subject
  all_goals
    obtain ⟨content, -, rfl⟩ := map_eq_ok_iff.mp h
    simp [Test.answer?, Item.Lacks]

/-- The rule excludes the item because of a mark that the owner put on it. -/
def Excludes (rule : Rule) (item : Item) : Prop :=
  rule.excludeFavorites = true ∧ item.isFavorited = true ∨
    rule.excludeBookmarked = true ∧ item.isBookmarked = true

/-- A rule has a meaning, and the same test, whether it is negated or not. -/
theorem compile_negated {test : Test} (h : rule.compileTest now calendar = .ok test)
    (negated : Bool) :
    { rule with negated }.compile now calendar =
      .ok ⟨test, negated, rule.excludeFavorites, rule.excludeBookmarked⟩ :=
  map_eq_ok_iff.mpr ⟨test, h, rfl⟩

/-- A compiled rule excludes the items that the rule excludes. -/
theorem excludes_iff (rule : Rule) (test : Test) (negated : Bool) (item : Item) :
    CompiledRule.excludes ⟨test, negated, rule.excludeFavorites, rule.excludeBookmarked⟩ item =
      true ↔ rule.Excludes item := by
  simp [CompiledRule.excludes, Excludes]

/-- A rule does not match the items that it excludes or that lack the attribute, whether it is
negated or not. -/
theorem isMatch_of_lacks_or_excludes {test : Test} {item : Item}
    (h : rule.compileTest now calendar = .ok test)
    (hitem : item.Lacks rule.subject ∨ rule.Excludes item) (negated : Bool) :
    CompiledRule.isMatch ⟨test, negated, rule.excludeFavorites, rule.excludeBookmarked⟩ item =
      false := by
  unfold CompiledRule.isMatch
  rcases hitem with hlacks | hexcludes
  · rw [(answer?_eq_none_iff h item).mpr hlacks]
  · rw [(rule.excludes_iff test negated item).mpr hexcludes]
    split
    · exact Bool.and_false _
    · rfl

/-- A rule matches any other item if the answer of its test is not the one that it asks against. -/
theorem isMatch_of_answers {test : Test} {item : Item}
    (h : rule.compileTest now calendar = .ok test) (hlacks : ¬ item.Lacks rule.subject)
    (hexcludes : ¬ rule.Excludes item) :
    ∃ answer, test.answer? item = some answer ∧ ∀ negated,
      CompiledRule.isMatch ⟨test, negated, rule.excludeFavorites, rule.excludeBookmarked⟩ item =
        (answer != negated) := by
  obtain ⟨answer, hanswer⟩ := Option.ne_none_iff_exists'.mp
    (mt (answer?_eq_none_iff h item).mp hlacks)
  refine ⟨answer, hanswer, fun negated => ?_⟩
  have hkept := mt (rule.excludes_iff test negated item).mp hexcludes
  rw [CompiledRule.isMatch, hanswer, Bool.eq_false_iff.mpr hkept]
  exact Bool.and_true _

/-- A rule and its negation match none of the items that lack the attribute or that they exclude,
and of every other item one of them matches. A rule with the opposite comparator matches the items
that the negation matches. -/
theorem compile_opposite {compiled : CompiledRule} (h : rule.compile now calendar = .ok compiled) :
    ∃ flipped, { rule with negated := !rule.negated }.compile now calendar = .ok flipped ∧
      (∀ other, rule.comparator.opposite? = some other →
        ∃ swapped, { rule with comparator := other }.compile now calendar = .ok swapped ∧
          ∀ item, swapped.isMatch item = flipped.isMatch item) ∧
      ∀ item,
        (item.Lacks rule.subject ∨ rule.Excludes item →
          compiled.isMatch item = false ∧ flipped.isMatch item = false) ∧
        (¬ item.Lacks rule.subject → ¬ rule.Excludes item →
          compiled.isMatch item = !flipped.isMatch item) := by
  obtain ⟨test, htest, rfl⟩ := map_eq_ok_iff.mp h
  refine ⟨_, compile_negated htest _, fun other hopposite => ?_, fun item =>
    ⟨fun hitem => ?_, fun hlacks hexcludes => ?_⟩⟩
  · obtain ⟨test', htest', hanswer⟩ := compileTest_opposite hopposite htest
    refine ⟨_, map_eq_ok_iff.mpr ⟨test', htest', rfl⟩, fun item => ?_⟩
    -- the other answer, asked for, is the answer, asked against
    have hne : ∀ a b : Bool, ((!a) != b) = (a != !b) := by decide
    simp only [CompiledRule.isMatch, hanswer]
    cases test.answer? item with
    | none => rfl
    | some answer => exact congrArg (· && _) (hne answer rule.negated)
  · have hmatch := isMatch_of_lacks_or_excludes htest hitem
    exact ⟨hmatch _, hmatch _⟩
  · obtain ⟨answer, -, hmatch⟩ := isMatch_of_answers htest hlacks hexcludes
    rw [hmatch, hmatch]
    have hne : ∀ a b : Bool, (a != b) = !(a != !b) := by decide
    exact hne answer rule.negated

/-- A rating above zero is one that is not at most zero, and a lacking rating is neither. -/
theorem compile_opposite_rating :
    let rule : Rule :=
      { subject := .rating, comparator := .greaterThan, operand := .number .zero }
    let calendar := Calendar.utc .mon
    ∃ compiled swapped, rule.compile ⟨0, 0⟩ calendar = .ok compiled ∧
      { rule with comparator := .lessThanOrEqual }.compile ⟨0, 0⟩ calendar = .ok swapped ∧
      ∀ item, (item.rating = none → compiled.isMatch item = false ∧ swapped.isMatch item = false) ∧
        (item.rating ≠ none → compiled.isMatch item = !swapped.isMatch item) := by
  intro rule calendar
  have hcompile : ∃ compiled, rule.compile ⟨0, 0⟩ calendar = .ok compiled := ⟨_, rfl⟩
  obtain ⟨compiled, hcompiled⟩ := hcompile
  obtain ⟨flipped, -, hswapped, hitems⟩ := compile_opposite hcompiled
  obtain ⟨swapped, hcompile', hmatch⟩ := hswapped _ rfl
  refine ⟨compiled, swapped, hcompiled, hcompile', fun item => ?_⟩
  -- the rule excludes no items, so only an absent rating is apart
  have hexcludes : ¬ rule.Excludes item := by simp [rule, Excludes]
  rw [hmatch item]
  exact ⟨fun hnone => (hitems item).1 (Or.inl hnone), fun hsome => (hitems item).2 hsome hexcludes⟩

end Rule

end Curation
