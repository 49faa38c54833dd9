import Curation.Rule.Selection

/-!
# Rules without meaning

Whether a rule has a meaning is a matter of its own: the instant and the calendar that it is
compiled for only decide which instants its test compares with. So the rules that a selection
passes over are known beforehand, and the selection is that of the other rules alone.

* `Rule.cause?_compile`: why a rule has no meaning does not depend on now and the calendar.
* `mem_skippedRules_iff`, `skippedRules_eq`: the rules passed over, told by their positions.
* `Rule.mentionsArchived_of_compile`: only rules that have a meaning ask about archived items.
* `RuleSet.select_eraseRules`: a rule set selects what it does without the rules it passes over.
-/

namespace Curation

/-- The cause of a failure, if it is one. -/
def cause? : Except ε α → Option ε
  | .ok _ => none
  | .error cause => some cause

@[simp]
theorem cause?_ok (a : α) : cause? (.ok a : Except ε α) = none := rfl

@[simp]
theorem cause?_error (cause : ε) : cause? (.error cause : Except ε α) = some cause := rfl

/-- What is made of a result does not change the cause of a failure. -/
@[simp]
theorem cause?_map (f : α → β) (x : Except ε α) : cause? (x.map f) = cause? x := by
  cases x <;> rfl

/-- There is a cause exactly if there is a failure. -/
theorem cause?_eq_some_iff {x : Except ε α} {cause : ε} :
    cause? x = some cause ↔ x = .error cause := by
  cases x <;> simp [cause?]

/-- What is made of a result succeeds if the result does. -/
theorem map_eq_ok_iff {f : α → β} {x : Except ε α} {b : β} :
    x.map f = .ok b ↔ ∃ a, x = .ok a ∧ f a = b := by
  cases x <;> simp [Except.map]

namespace Rule

variable {rule : Rule} {now : Instant} {calendar : Calendar}

/-- Why a rule asks for no test of an instant depends on the rule alone. -/
theorem cause?_compileDate (rule : Rule) (now now' : Instant) (calendar calendar' : Calendar) :
    cause? (rule.compileDate now calendar) = cause? (rule.compileDate now' calendar') := by
  obtain ⟨subject, comparator, operand, negated, excludeFavorites, excludeBookmarked⟩ := rule
  -- now and the calendar turn up in tests only, next to the comparators that ask for instants
  cases comparator with
  | isWithin => cases operand <;> simp only [compileDate, cause?_ok, cause?_error]
  | equals | notEquals | greaterThan | greaterThanOrEqual | lessThan | lessThanOrEqual =>
    cases operand with
    | text text =>
      simp only [compileDate, Comparator.relation?]
      cases Date.ofText? text <;> simp only [cause?_ok, cause?_error]
    | _ => simp only [compileDate, Comparator.relation?, cause?_ok, cause?_error]
  | isBetween => simp only [compileDate]
  | contains | notContains | isTrue | isFalse => simp only [compileDate, Comparator.relation?]

/-- Why a rule has no meaning depends on the rule alone. -/
theorem cause?_compile (rule : Rule) (now now' : Instant) (calendar calendar' : Calendar) :
    cause? (rule.compile now calendar) = cause? (rule.compile now' calendar') := by
  simp only [compile, cause?_map]
  unfold compileTest
  cases rule.subject with
  | dateAdded | publishDate =>
    simp only [cause?_map]
    exact cause?_compileDate rule now now' calendar calendar'
  | _ => rfl

/-- A rule that has a meaning asks about archived items if that is what it reads. -/
theorem mentionsArchived_of_compile {compiled : CompiledRule}
    (h : rule.compile now calendar = .ok compiled) :
    compiled.mentionsArchived = decide (rule.subject = .isArchived) := by
  obtain ⟨test, htest, rfl⟩ := map_eq_ok_iff.mp h
  unfold compileTest at htest
  -- every attribute has tests of its own
  split at htest
  all_goals
    next hsubject =>
      obtain ⟨content, -, rfl⟩ := map_eq_ok_iff.mp htest
      rw [hsubject]
      rfl

end Rule

section Skipped

variable {now : Instant} {calendar : Calendar} {rules : List Rule}

/-- The rules passed over do not depend on now and the calendar. -/
theorem skippedRules_eq (now now' : Instant) (calendar calendar' : Calendar) (first : Nat)
    (rules : List Rule) :
    skippedRules now calendar first rules = skippedRules now' calendar' first rules := by
  induction rules generalizing first with
  | nil => rfl
  | cons rule rules ih =>
    -- each rule is passed over at both instants or at neither
    have hcause := rule.cause?_compile now now' calendar calendar'
    rw [skippedRules, skippedRules, ih]
    cases hcompile : rule.compile now calendar with
    | ok compiled =>
      cases hcompile' : rule.compile now' calendar' with
      | ok compiled' => rfl
      | error cause => simp [hcompile, hcompile', cause?] at hcause
    | error cause =>
      rw [hcompile] at hcause
      rw [cause?_eq_some_iff.mp hcause.symm]

/-- The rules passed over are those without meaning, each told by its position and the cause. -/
theorem mem_skippedRules_iff {first n : Nat} {cause : InvalidRule} :
    (n, cause) ∈ skippedRules now calendar first rules ↔
      ∃ i rule, n = first + i ∧ rules[i]? = some rule ∧
        rule.compile now calendar = .error cause := by
  induction rules generalizing first with
  | nil => simp [skippedRules]
  | cons head rules ih =>
    -- places among the later rules are counted from `first + 1`
    have hrest : (n, cause) ∈ skippedRules now calendar (first + 1) rules ↔
        ∃ i rule, n = first + (i + 1) ∧ (head :: rules)[i + 1]? = some rule ∧
          rule.compile now calendar = .error cause := by
      simp only [ih, List.getElem?_cons_succ, Nat.add_right_comm first 1, Nat.add_assoc]
    rw [skippedRules]
    constructor
    · intro h
      -- a rule that compiles adds nothing in front of those behind it
      cases hcompile : head.compile now calendar with
      | ok compiled =>
        rw [hcompile] at h
        obtain ⟨i, rule, hrule⟩ := hrest.mp h
        exact ⟨i + 1, rule, hrule⟩
      | error cause' =>
        rw [hcompile] at h
        rcases List.mem_cons.mp h with heq | h
        · cases heq
          exact ⟨0, head, rfl, rfl, hcompile⟩
        · obtain ⟨i, rule, hrule⟩ := hrest.mp h
          exact ⟨i + 1, rule, hrule⟩
    · rintro ⟨i, rule, hn, hget, herror⟩
      cases i with
      | zero =>
        obtain rfl : head = rule := by simpa using hget
        rw [herror]
        exact List.mem_cons.mpr (Or.inl (by simp [hn]))
      | succ i =>
        have hmem := hrest.mpr ⟨i, rule, hn, hget, herror⟩
        cases head.compile now calendar with
        | ok compiled => exact hmem
        | error cause' => exact List.mem_cons_of_mem _ hmem

/-- The positions of the rules passed over, counted from `first` on. -/
private theorem le_of_mem_skippedRules {first n : Nat}
    (h : n ∈ (skippedRules now calendar first rules).map (·.1)) : first ≤ n := by
  obtain ⟨⟨m, cause⟩, hmem, rfl⟩ := List.mem_map.mp h
  obtain ⟨i, rule, hn, -⟩ := mem_skippedRules_iff.mp hmem
  exact hn ▸ Nat.le_add_right first i

/-- The rules at other positions than those passed over are the rules with a meaning. -/
theorem erase_skippedRules (now : Instant) (calendar : Calendar) (first : Nat)
    (rules : List Rule) :
    ((rules.zipIdx first).filter fun entry =>
        entry.2 ∉ (skippedRules now calendar first rules).map (·.1)).map (·.1) =
      rules.filter fun rule => (cause? (rule.compile now calendar)).isNone := by
  induction rules generalizing first with
  | nil => rfl
  | cons rule rules ih =>
    have hfirst : first ∉ (skippedRules now calendar (first + 1) rules).map (·.1) := fun h =>
      Nat.not_succ_le_self first (le_of_mem_skippedRules h)
    rw [List.zipIdx_cons, skippedRules]
    cases hcompile : rule.compile now calendar with
    | ok compiled =>
      rw [List.filter_cons_of_pos (by simpa using hfirst), List.map_cons, ih,
        List.filter_cons_of_pos (by simp [hcompile])]
    | error cause =>
      -- the positions of the other rules are behind that of this one
      have hrest : (rules.zipIdx (first + 1)).filter (fun entry =>
            entry.2 ∉ ((first, cause) :: skippedRules now calendar (first + 1) rules).map (·.1)) =
          (rules.zipIdx (first + 1)).filter fun entry =>
            entry.2 ∉ (skippedRules now calendar (first + 1) rules).map (·.1) := by
        refine List.filter_congr fun entry hentry => ?_
        have hle := List.le_snd_of_mem_zipIdx hentry
        simp only [List.map_cons, List.mem_cons, not_or, decide_eq_decide, and_iff_right_iff_imp]
        intro _
        omega
      rw [List.filter_cons_of_neg (by simp), hrest, ih,
        List.filter_cons_of_neg (by simp [hcompile])]

/-- The compiled rules are what the rules that compile are compiled to. -/
theorem mem_compiledRules_iff {compiled : CompiledRule} :
    compiled ∈ compiledRules rules now calendar ↔
      ∃ rule ∈ rules, rule.compile now calendar = .ok compiled := by
  have hoption : ∀ x : Except InvalidRule CompiledRule,
      x.toOption = some compiled ↔ x = .ok compiled := by
    intro x
    cases x <;> simp [Except.toOption]
  simp only [compiledRules, List.mem_filterMap, hoption]

/-- The rules with a meaning are compiled to what all rules are compiled to. -/
theorem compiledRules_filter (now : Instant) (calendar : Calendar) (rules : List Rule) :
    compiledRules (rules.filter fun rule => (cause? (rule.compile now calendar)).isNone) now
        calendar = compiledRules rules now calendar := by
  unfold compiledRules
  rw [List.filterMap_filter]
  congr 1
  funext rule
  cases rule.compile now calendar <;> rfl

end Skipped

namespace RuleSet

/-- What a rule set selects are the items that match its rules, in its order if it has one. -/
theorem select_eq (set : RuleSet) (now : Instant) (calendar : Calendar) (items : List Item) :
    set.select now calendar items =
      let found := items.filter (set.compile now calendar).isMatch
      set.sort.elim found (·.sort found) := by
  rw [select, Selector.select, Selector.arrange]
  cases hsort : set.sort <;> simp [compile, hsort]

/-- The rule set without the rules at some positions. -/
def eraseRules (set : RuleSet) (positions : List Nat) : RuleSet :=
  { set with rules := (set.rules.zipIdx.filter fun entry => entry.2 ∉ positions).map (·.1) }

/-- A rule set is compiled to the same rules without those that are passed over. -/
theorem compiledRules_eraseRules (set : RuleSet) (now : Instant) (calendar : Calendar) :
    compiledRules (set.eraseRules (set.invalidRules.map (·.1))).rules now calendar =
      compiledRules set.rules now calendar := by
  have hskipped : set.invalidRules = skippedRules now calendar 0 set.rules := skippedRules_eq ..
  rw [hskipped]
  exact (congrArg (compiledRules · now calendar)
    (erase_skippedRules now calendar 0 set.rules)).trans (compiledRules_filter now calendar _)

/-- A rule set whose rules about archived items are all without meaning selects no archived item. -/
theorem isArchived_eq_false_of_mem_select {set : RuleSet} {now : Instant} {calendar : Calendar}
    {items : List Item} (h : ∀ rule ∈ set.rules, rule.subject = .isArchived →
      ∃ cause, rule.compile now calendar = .error cause)
    {item : Item} (hitem : item ∈ set.select now calendar items) : item.isArchived = false := by
  -- every rule about archived items fails to compile, so no compiled rule mentions them
  have hmentions : (set.compile now calendar).mentionsArchived = false := by
    refine List.any_eq_false.mpr fun compiled hcompiled => ?_
    obtain ⟨rule, hrule, hcompile⟩ := mem_compiledRules_iff.mp hcompiled
    rw [Rule.mentionsArchived_of_compile hcompile, decide_eq_true_eq]
    intro hsubject
    obtain ⟨cause, herror⟩ := h rule hrule hsubject
    rw [hcompile] at herror
    cases herror
  -- sorting keeps the items that match
  have hmatch : (set.compile now calendar).isMatch item = true := by
    rw [select_eq] at hitem
    cases hsort : set.sort with
    | none =>
      rw [hsort] at hitem
      exact (List.mem_filter.mp hitem).2
    | some order =>
      rw [hsort] at hitem
      exact (List.mem_filter.mp (List.mem_mergeSort.mp hitem)).2
  rw [Selector.isMatch, hmentions] at hmatch
  cases harchived : item.isArchived with
  | false => rfl
  | true => simp [harchived] at hmatch

/-- A rule set without a rule that has a meaning selects the items that are not archived. -/
theorem select_of_compiledRules_eq_nil {set : RuleSet} {now : Instant} {calendar : Calendar}
    (h : compiledRules set.rules now calendar = []) (items : List Item) :
    set.select now calendar items =
      let shown := items.filter (!·.isArchived)
      set.sort.elim shown (·.sort shown) := by
  have hmatch : (set.compile now calendar).isMatch = fun item => !item.isArchived := by
    funext item
    rw [Selector.isMatch, Selector.mentionsArchived, compile, h]
    cases item.isArchived <;> rfl
  rw [select_eq, hmatch]

/-- The rules without meaning are those that are passed over whenever items are selected, and the
others select the same items without them: archived items only if one of these asks about archived
items, and all items that are not archived if there are no others. -/
theorem select_eraseRules (set : RuleSet) (now : Instant) (calendar : Calendar)
    (items : List Item) :
    let positions := set.invalidRules.map (·.1)
    (∀ i cause, (i, cause) ∈ set.invalidRules ↔
      ∃ rule, set.rules[i]? = some rule ∧ rule.compile now calendar = .error cause) ∧
    (set.compile now calendar).skipped = set.invalidRules ∧
    set.select now calendar items = (set.eraseRules positions).select now calendar items ∧
    ((∀ i rule, set.rules[i]? = some rule → rule.subject = .isArchived → i ∈ positions) →
      ∀ item ∈ set.select now calendar items, item.isArchived = false) ∧
    ((∀ i < set.rules.length, i ∈ positions) →
      let shown := items.filter (!·.isArchived)
      set.select now calendar items = set.sort.elim shown (·.sort shown)) := by
  intro positions
  have hskipped : (set.compile now calendar).skipped = set.invalidRules := skippedRules_eq ..
  have hmem : ∀ i cause, (i, cause) ∈ set.invalidRules ↔
      ∃ rule, set.rules[i]? = some rule ∧ rule.compile now calendar = .error cause := by
    intro i cause
    rw [← hskipped, compile, mem_skippedRules_iff]
    simp
  -- a position is that of a rule without meaning
  have herror : ∀ {i rule}, set.rules[i]? = some rule → i ∈ positions →
      ∃ cause, rule.compile now calendar = .error cause := by
    intro i rule hrule hi
    obtain ⟨⟨j, cause⟩, hj, rfl⟩ := List.mem_map.mp hi
    obtain ⟨other, hother, herror⟩ := (hmem j cause).mp hj
    obtain rfl : rule = other := Option.some_inj.mp (hrule.symm.trans hother)
    exact ⟨cause, herror⟩
  refine ⟨hmem, hskipped, ?_, fun harchived item hitem => ?_, fun hall => ?_⟩
  · have hrules := compiledRules_eraseRules set now calendar
    rw [select, select, compile, compile, hrules]
    rfl
  · refine isArchived_eq_false_of_mem_select (fun rule hrule hsubject => ?_) hitem
    obtain ⟨i, hi⟩ := List.mem_iff_getElem?.mp hrule
    exact herror hi (harchived i rule hi hsubject)
  · refine select_of_compiledRules_eq_nil (List.eq_nil_iff_forall_not_mem.mpr ?_) items
    intro compiled hcompiled
    obtain ⟨rule, hrule, hcompile⟩ := mem_compiledRules_iff.mp hcompiled
    obtain ⟨i, hi⟩ := List.mem_iff_getElem?.mp hrule
    obtain ⟨hlt, -⟩ := List.getElem?_eq_some_iff.mp hi
    obtain ⟨cause, hcause⟩ := herror hi (hall i hlt)
    rw [hcompile] at hcause
    cases hcause

/-- A rule that asks in vain about archived items does not bring them back. -/
theorem select_eraseRules_news :
    let set : RuleSet :=
      { id := "news"
        rules :=
          [{ subject := .isArchived, comparator := .contains, operand := .bool true },
            { subject := .title, comparator := .contains, operand := .text "NEWS" },
            { subject := .publishDate, comparator := .equals, operand := .text "2025-02-30" }]
        logic := .or }
    let news : Item :=
      { id := "news", title := "Evening News", collectionName := "Daily", dateAdded := ⟨0, 0⟩ }
    let items := [{ news with id := "old", isArchived := true }, news, { news with title := "" }]
    set.invalidRules =
        [(0, .incompatibleComparator .isArchived .contains), (2, .invalidDate "2025-02-30")] ∧
      (∀ item ∈ set.select ⟨0, 0⟩ (.utc .mon) items, item.isArchived = false) ∧
      set.select ⟨0, 0⟩ (.utc .mon) items = [news] := by
  intro set news items
  have hinvalid : set.invalidRules =
      [(0, .incompatibleComparator .isArchived .contains), (2, .invalidDate "2025-02-30")] := by
    decide +kernel
  obtain ⟨-, -, -, harchived, -⟩ := select_eraseRules set ⟨0, 0⟩ (.utc .mon) items
  -- the rule about archived items is one of the two that are reported
  refine ⟨hinvalid, harchived fun i rule hrule hsubject => ?_, by decide +kernel⟩
  rw [hinvalid]
  match i with
  | 0 | 2 => decide
  | 1 => cases hrule; cases hsubject
  | i + 3 => simp [set] at hrule

end RuleSet

end Curation
