import Curation.Proofs.Rule.Table
import Curation.Proofs.Time.LocalDay

/-!
# Date rules

Rules about dates compare local calendar days. A text names a day, with which the local date of an
item is compared. An instant stands for its local day where a rule asks for equality, and for itself
where a rule asks for an order.

* `Comparator.Compares`: what a comparator says of two values that have an order.
* `Rule.dayTest_passes_iff`: the test made from a local day compares local dates.
* `Rule.compile_of_compileDate`: a plain rule matches the items that pass its test.
* `Rule.compile_date`: which items a plain rule about dates matches, for every operand it takes.
-/

namespace Curation

/-- The instant that an item has for an attribute, if the attribute is a date and the item has
one. -/
def Attribute.instant? : Attribute → Item → Option Instant
  | dateAdded, item => some item.dateAdded
  | publishDate, item => item.publishDate
  | _, _ => none

/-- What a comparator says of a value and a bound, if it is one of order. -/
def Comparator.Compares [LT α] [LE α] : Comparator → α → α → Prop
  | equals, value, bound => value = bound
  | notEquals, value, bound => value ≠ bound
  | greaterThan, value, bound => bound < value
  | greaterThanOrEqual, value, bound => bound ≤ value
  | lessThan, value, bound => value < bound
  | lessThanOrEqual, value, bound => value ≤ bound
  | _, _, _ => False

namespace Rule

variable {rule : Rule} {comparator : Comparator} {relation : Relation} {now i t : Instant}
  {calendar : Calendar} {d : Date}

/-- The rule asks that the comparison holds, and excludes no items. -/
def IsPlain (rule : Rule) : Prop :=
  rule.negated = false ∧ rule.excludeFavorites = false ∧ rule.excludeBookmarked = false

/-- The rule has a meaning, and of the items that have the date it reads, it matches those whose
date is one of `p`. -/
def MatchesDates (rule : Rule) (now : Instant) (calendar : Calendar) (p : Instant → Prop) : Prop :=
  ∃ compiled, rule.compile now calendar = .ok compiled ∧
    ∀ item t, rule.subject.instant? item = some t → (compiled.isMatch item = true ↔ p t)

/-- The test made from a local day compares the local date of an instant with the day. -/
theorem dayTest_passes_iff (hrelation : comparator.relation? = some relation)
    (hday : calendar.HoldsDay d) (t : Instant) :
    (dayTest relation (Window.ofDate calendar d)).passes t = true ↔
      comparator.Compares (calendar.localDate t) d := by
  have hstart : (Window.ofDate calendar d).start ≤ t ↔ d ≤ calendar.localDate t :=
    Window.start_ofDate_le_iff hday
  have hstop : t < (Window.ofDate calendar d).stop ↔ calendar.localDate t ≤ d :=
    Window.lt_stop_ofDate_iff hday
  have hcontains : (Window.ofDate calendar d).contains t = true ↔ calendar.localDate t = d :=
    Window.contains_ofDate hday
  -- after the day is from its end on, and before the day is before its start
  cases comparator with
  | equals =>
    cases hrelation
    exact hcontains
  | notEquals =>
    cases hrelation
    show (!(Window.ofDate calendar d).contains t) = true ↔ _
    rw [Bool.not_eq_true', ← Bool.not_eq_true, hcontains]
    rfl
  | greaterThan =>
    cases hrelation
    show decide ((Window.ofDate calendar d).stop ≤ t) = true ↔ _
    rw [decide_eq_true_eq, ← Instant.not_lt, hstop, Date.not_le]
    rfl
  | greaterThanOrEqual =>
    cases hrelation
    show decide ((Window.ofDate calendar d).start ≤ t) = true ↔ _
    rw [decide_eq_true_eq, hstart]
    rfl
  | lessThan =>
    cases hrelation
    show decide (t < (Window.ofDate calendar d).start) = true ↔ _
    rw [decide_eq_true_eq, ← Instant.not_le, hstart, Date.not_le]
    rfl
  | lessThanOrEqual =>
    cases hrelation
    show decide (t < (Window.ofDate calendar d).stop) = true ↔ _
    rw [decide_eq_true_eq, hstop]
    rfl
  | _ => cases hrelation

/-- The test made from an instant compares local days where equality is asked for. -/
theorem instantTest_passes_iff_of_mem (hrelation : comparator.relation? = some relation)
    (hequality : comparator ∈ Comparator.equality) (hday : calendar.HoldsDay (calendar.localDate i))
    (t : Instant) :
    (instantTest relation calendar i).passes t = true ↔
      comparator.Compares (calendar.localDate t) (calendar.localDate i) := by
  rw [← dayTest_passes_iff hrelation hday]
  simp only [Comparator.equality, List.mem_cons, List.not_mem_nil, or_false] at hequality
  rcases hequality with rfl | rfl
  all_goals
    cases hrelation
    rfl

/-- The test made from an instant compares with it where an order is asked for. -/
theorem instantTest_passes_iff_of_not_mem (hrelation : comparator.relation? = some relation)
    (hequality : comparator ∉ Comparator.equality) (calendar : Calendar) (i t : Instant) :
    (instantTest relation calendar i).passes t = true ↔ comparator.Compares t i := by
  cases comparator with
  | equals | notEquals => simp [Comparator.equality] at hequality
  | greaterThan | greaterThanOrEqual | lessThan | lessThanOrEqual =>
    cases hrelation
    exact decide_eq_true_iff
  | _ => cases hrelation

/-- A rule that compares dates by order asks for a test made from an instant or a local day. -/
theorem compileDate_eq (hrelation : rule.comparator.relation? = some relation) (now : Instant)
    (calendar : Calendar) :
    rule.compileDate now calendar =
      match rule.operand with
      | .date i => .ok (instantTest relation calendar i)
      | .text text =>
        match Date.ofText? text with
        | some d => .ok (dayTest relation (Window.ofDate calendar d))
        | none => .error (.invalidDate text)
      | _ => .error rule.badOperand := by
  unfold compileDate
  split
  · next hwithin =>
    rw [hwithin] at hrelation
    cases hrelation
  · next hbetween =>
    rw [hbetween] at hrelation
    cases hrelation
  · generalize rule.comparator.relation? = asked at hrelation ⊢
    cases hrelation
    rfl

/-- A plain rule about dates matches the items whose date passes its test. -/
theorem matchesDates_of_compileDate (hsubject : rule.subject.valueKind = .date)
    (hplain : rule.IsPlain) {test : RangeTest Instant}
    (htest : rule.compileDate now calendar = .ok test) {p : Instant → Prop}
    (hpasses : ∀ t, test.passes t = true ↔ p t) : rule.MatchesDates now calendar p := by
  obtain ⟨subject, comparator, operand, negated, excludeFavorites, excludeBookmarked⟩ := rule
  obtain ⟨rfl, rfl, rfl⟩ := hplain
  cases subject with
  -- every item has this date
  | dateAdded =>
    refine ⟨⟨.dateAdded test, false, false, false⟩, ?_, fun item t hdate => ?_⟩
    · rw [compile, compileTest, htest]
      rfl
    · cases hdate
      rw [← hpasses, CompiledRule.isMatch, Test.answer?]
      simp [CompiledRule.excludes]
  -- only items with this date are asked about
  | publishDate =>
    refine ⟨⟨.publishDate test, false, false, false⟩, ?_, fun item t hdate => ?_⟩
    · rw [compile, compileTest, htest]
      rfl
    · have hpublish : item.publishDate = some t := hdate
      rw [← hpasses, CompiledRule.isMatch, Test.answer?, hpublish]
      simp [CompiledRule.excludes]
  | _ => cases hsubject

/-- A plain rule about dates compares local days with a text that names one, and with an instant if
it asks for equality; otherwise it compares instants. -/
theorem compile_date (hsubject : rule.subject.valueKind = .date)
    (hcomparator : rule.comparator ∈ Comparator.ordering) (hplain : rule.IsPlain) (now : Instant)
    (calendar : Calendar) :
    (∀ text d, rule.operand = .text text → Date.ofText? text = some d → calendar.HoldsDay d →
      rule.MatchesDates now calendar fun t =>
        rule.comparator.Compares (calendar.localDate t) d) ∧
    (∀ i, rule.operand = .date i →
      (rule.comparator ∈ Comparator.equality → calendar.HoldsDay (calendar.localDate i) →
        rule.MatchesDates now calendar fun t =>
          rule.comparator.Compares (calendar.localDate t) (calendar.localDate i)) ∧
      (rule.comparator ∉ Comparator.equality →
        rule.MatchesDates now calendar fun t => rule.comparator.Compares t i)) ∧
    ∀ i : Instant, i.IsInside 2 → calendar.HoldsDay (calendar.localDate i) := by
  obtain ⟨relation, hrelation⟩ := Comparator.mem_ordering_iff.mp hcomparator
  have hcompile := compileDate_eq hrelation now calendar
  refine ⟨fun text d hoperand htext hday => ?_, fun i hoperand => ⟨fun hequality hday => ?_,
    fun hequality => ?_⟩, fun i => calendar.holdsDay_localDate⟩
  -- a text that names a date is compared with the whole of its day
  · simp only [hoperand, htext] at hcompile
    exact matchesDates_of_compileDate hsubject hplain hcompile (dayTest_passes_iff hrelation hday)
  -- equality with an instant asks for the day of that instant
  · rw [hoperand] at hcompile
    exact matchesDates_of_compileDate hsubject hplain hcompile
      (instantTest_passes_iff_of_mem hrelation hequality hday)
  -- every other comparison is with the instant itself
  · rw [hoperand] at hcompile
    exact matchesDates_of_compileDate hsubject hplain hcompile
      (instantTest_passes_iff_of_not_mem hrelation hequality calendar i)

/-- East of universal time a local day ends in the evening: its last nanosecond is before half past
six. -/
theorem compile_date_endOfDay :
    let calendar : Calendar := { weekStart := .mon, offsetMinutes := 330 }
    let rule : Rule :=
      { subject := .publishDate, comparator := .lessThanOrEqual, operand := .text "2025-01-15" }
    let d : Date := ⟨2025, 1, 15, by decide, by decide, by decide, by decide⟩
    rule.subject.valueKind = .date ∧ rule.comparator ∈ Comparator.ordering ∧ rule.IsPlain ∧
      rule.MatchesDates ⟨0, 0⟩ calendar (fun t => calendar.localDate t ≤ d) ∧
      calendar.localDate ⟨1736965799, 999999999⟩ ≤ d ∧
      ¬ calendar.localDate ⟨1736965800, 0⟩ ≤ d := by
  intro calendar rule d
  have hsubject : rule.subject.valueKind = .date := rfl
  have hcomparator : rule.comparator ∈ Comparator.ordering := by decide
  have hplain : rule.IsPlain := ⟨rfl, rfl, rfl⟩
  have htext : Date.ofText? "2025-01-15" = some d := by decide +kernel
  have hday : calendar.HoldsDay d := by decide
  have hmatches := (compile_date hsubject hcomparator hplain ⟨0, 0⟩ calendar).1 _ d rfl htext hday
  exact ⟨hsubject, hcomparator, hplain, hmatches, by decide, by decide⟩

end Rule

end Curation
