import Curation.Proofs.Number.Order
import Curation.Proofs.Rule.Selection

/-!
# The table of rules

Which attributes, comparators and operands make sense together is a table of eleven rows. A rule is
compiled exactly if it is in the table, and otherwise the first thing that is wrong with it is told:
the comparator if no operand would do, then the kind of the operand if no other one of that kind
would do, then what the operand says.

* `IsListed`: the table, one row a constructor.
* `Rule.HasCause`: when a rule has no meaning, cause by cause, told by the table.
* `Rule.HasCause.unique`, `Rule.not_hasCause_of_isListed`: a rule has one cause, or none if it is in
  the table.
* `Rule.compile_by_table`: rules are compiled by the table, whatever now and the calendar are.
-/

namespace Curation

/-- A kind of value that attributes have. -/
inductive ValueKind where
  | status
  | date
  | number
  | text
  | flag
  deriving DecidableEq, Repr

/-- The kind of value that an attribute has. -/
def Attribute.valueKind : Attribute → ValueKind
  | playStatus | downloadStatus => .status
  | dateAdded | publishDate => .date
  | duration | rating => .number
  | collectionName | title | description => .text
  | isFavorited | isBookmarked | isArchived => .flag

/-- The text names a status of the kind that the attribute has. -/
def Attribute.NamesStatus : Attribute → String → Prop
  | playStatus, text => (PlayStatus.ofText? text).isSome
  | downloadStatus, text => (DownloadStatus.ofText? text).isSome
  | _, _ => False

/-- The double that a text tells between blanks. -/
def numberOfText? (text : String) : Option Double := Double.readNumeral? (Text.trim text.toList)

namespace Comparator

/-- The comparators that ask whether two values are one. -/
def equality : List Comparator := [equals, notEquals]

/-- The comparators that ask for the order of two values. -/
def ordering : List Comparator :=
  [equals, notEquals, greaterThan, greaterThanOrEqual, lessThan, lessThanOrEqual]

/-- The comparators that look for a text in another one. -/
def containment : List Comparator := [equals, notEquals, contains, notContains]

/-- The comparators that ask for bounds. -/
def bounded : List Comparator := [isWithin, isBetween]

/-- The comparators that ask for a truth value by themselves. -/
def assertion : List Comparator := [isTrue, isFalse]

/-- The comparators of an order are those that stand for a relation. -/
theorem mem_ordering_iff {comparator : Comparator} :
    comparator ∈ ordering ↔ ∃ relation, comparator.relation? = some relation := by
  cases comparator <;> simp [ordering, relation?]

end Comparator

/-- The attribute, the comparator and the operand make sense together. -/
inductive IsListed (subject : Attribute) (comparator : Comparator) : Operand → Prop where
  | status (hsubject : subject.valueKind = .status) (hcomparator : comparator ∈ Comparator.equality)
      {text : String} (htext : subject.NamesStatus text) : IsListed subject comparator (.text text)
  | period (hsubject : subject.valueKind = .date) (hcomparator : comparator = .isWithin)
      (period : Period) : IsListed subject comparator (.period period)
  | dateRange (hsubject : subject.valueKind = .date) (hcomparator : comparator = .isBetween)
      {start stop : Instant} (hle : start ≤ stop) :
      IsListed subject comparator (.dateRange start stop)
  | date (hsubject : subject.valueKind = .date) (hcomparator : comparator ∈ Comparator.ordering)
      (t : Instant) : IsListed subject comparator (.date t)
  | dateText (hsubject : subject.valueKind = .date)
      (hcomparator : comparator ∈ Comparator.ordering) {text : String} {d : Date}
      (htext : Date.ofText? text = some d) : IsListed subject comparator (.text text)
  | numberRange (hsubject : subject.valueKind = .number) (hcomparator : comparator = .isBetween)
      {lo hi : Double} (hlo : lo.isFinite = true) (hhi : hi.isFinite = true)
      (hle : lo.units ≤ hi.units) : IsListed subject comparator (.numberRange lo hi)
  | number (hsubject : subject.valueKind = .number)
      (hcomparator : comparator ∈ Comparator.ordering) {number : Double}
      (hnumber : number.isFinite = true) : IsListed subject comparator (.number number)
  | numberText (hsubject : subject.valueKind = .number)
      (hcomparator : comparator ∈ Comparator.ordering) {text : String} {number : Double}
      (htext : numberOfText? text = some number) (hnumber : number.isFinite = true) :
      IsListed subject comparator (.text text)
  | text (hsubject : subject.valueKind = .text) (hcomparator : comparator ∈ Comparator.containment)
      {text : String} (htext : Text.trim text.toList ≠ []) :
      IsListed subject comparator (.text text)
  | assertion (hsubject : subject.valueKind = .flag)
      (hcomparator : comparator ∈ Comparator.assertion) (operand : Operand) :
      IsListed subject comparator operand
  | bool (hsubject : subject.valueKind = .flag) (hcomparator : comparator ∈ Comparator.equality)
      (expected : Bool) : IsListed subject comparator (.bool expected)

/-- The comparator is one for the attribute, with some operand. -/
def Attribute.Takes (subject : Attribute) (comparator : Comparator) : Prop :=
  ∃ operand, IsListed subject comparator operand

/-- The comparator takes some operand of a kind. -/
def Attribute.TakesKind (subject : Attribute) (comparator : Comparator) (kind : String) : Prop :=
  ∃ operand, operand.kind = kind ∧ IsListed subject comparator operand

/-- The names of the kinds of operand. -/
def Operand.kinds : List String :=
  ["none", "text", "number", "bool", "date", "period", "numberRange", "dateRange"]

/-- The kind of an operand is one of the kinds. -/
theorem Operand.kind_mem_kinds (operand : Operand) : operand.kind ∈ kinds := by
  cases operand <;> simp [kinds, kind]

/-- There is an operand of each kind. -/
theorem Operand.exists_kind {kind : String} (h : kind ∈ kinds) :
    ∃ operand : Operand, operand.kind = kind := by
  simp only [kinds, List.mem_cons, List.not_mem_nil, or_false] at h
  rcases h with rfl | rfl | rfl | rfl | rfl | rfl | rfl | rfl
  · exact ⟨.none, rfl⟩
  · exact ⟨.text "", rfl⟩
  · exact ⟨.number .zero, rfl⟩
  · exact ⟨.bool true, rfl⟩
  · exact ⟨.date ⟨0, 0⟩, rfl⟩
  · exact ⟨.period .today, rfl⟩
  · exact ⟨.numberRange .zero .zero, rfl⟩
  · exact ⟨.dateRange ⟨0, 0⟩ ⟨0, 0⟩, rfl⟩

/-- The kinds of operand that a comparator takes for a kind of value; none if it is no comparator
for such values. -/
def ValueKind.operandKinds (kind : ValueKind) (comparator : Comparator) : List String :=
  match kind with
  | .status => if comparator ∈ Comparator.equality then ["text"] else []
  | .date =>
    if comparator = .isWithin then ["period"]
    else if comparator = .isBetween then ["dateRange"]
    else if comparator ∈ Comparator.ordering then ["date", "text"] else []
  | .number =>
    if comparator = .isBetween then ["numberRange"]
    else if comparator ∈ Comparator.ordering then ["number", "text"] else []
  | .text => if comparator ∈ Comparator.containment then ["text"] else []
  | .flag =>
    if comparator ∈ Comparator.assertion then Operand.kinds
    else if comparator ∈ Comparator.equality then ["bool"] else []

namespace ValueKind

variable {comparator : Comparator}

/-- A date is put in order with dates and texts. -/
theorem operandKinds_date (h : comparator ∈ Comparator.ordering) :
    date.operandKinds comparator = ["date", "text"] := by
  cases comparator <;> simp_all [Comparator.ordering, operandKinds]

theorem operandKinds_number (h : comparator ∈ Comparator.ordering) :
    number.operandKinds comparator = ["number", "text"] := by
  cases comparator <;> simp_all [Comparator.ordering, operandKinds]

end ValueKind

namespace Attribute

variable {subject : Attribute} {comparator : Comparator} {kind : String}

/-- Some text names a status of each kind. -/
theorem exists_namesStatus (h : subject.valueKind = .status) :
    ∃ text, subject.NamesStatus text := by
  cases subject with
  | playStatus => exact ⟨"played", show (PlayStatus.ofText? "played").isSome by decide +kernel⟩
  | downloadStatus =>
    exact ⟨"failed", show (DownloadStatus.ofText? "failed").isSome by decide +kernel⟩
  | _ => cases h

/-- The operand of a row is of a kind that the comparator takes. -/
theorem kind_mem_operandKinds {operand : Operand} (h : IsListed subject comparator operand) :
    operand.kind ∈ subject.valueKind.operandKinds comparator := by
  cases h with
  | status hsubject hcomparator | text hsubject hcomparator | period hsubject hcomparator
  | dateRange hsubject hcomparator | numberRange hsubject hcomparator =>
    simp [ValueKind.operandKinds, hsubject, hcomparator, Operand.kind]
  | assertion hsubject hcomparator operand =>
    simp [ValueKind.operandKinds, hsubject, hcomparator, operand.kind_mem_kinds]
  | date hsubject hcomparator | dateText hsubject hcomparator =>
    simp [hsubject, ValueKind.operandKinds_date hcomparator, Operand.kind]
  | number hsubject hcomparator | numberText hsubject hcomparator =>
    simp [hsubject, ValueKind.operandKinds_number hcomparator, Operand.kind]
  | bool hsubject hcomparator =>
    -- no comparator asks for equality and for a truth value by itself
    cases comparator <;>
      simp_all [ValueKind.operandKinds, Comparator.equality, Comparator.assertion, Operand.kind]

/-- Every kind of operand that a comparator takes is that of a row. -/
theorem exists_isListed (h : kind ∈ subject.valueKind.operandKinds comparator) :
    ∃ operand, operand.kind = kind ∧ IsListed subject comparator operand := by
  cases hsubject : subject.valueKind with
  | status =>
    simp only [ValueKind.operandKinds, hsubject, List.mem_ite_nil_right, List.mem_singleton] at h
    obtain ⟨hcomparator, rfl⟩ := h
    obtain ⟨text, htext⟩ := exists_namesStatus hsubject
    exact ⟨_, rfl, .status hsubject hcomparator htext⟩
  | date =>
    simp only [ValueKind.operandKinds, hsubject] at h
    split at h
    · next hcomparator =>
      obtain rfl := List.mem_singleton.mp h
      exact ⟨_, rfl, .period hsubject hcomparator .today⟩
    split at h
    · next hcomparator =>
      obtain rfl := List.mem_singleton.mp h
      exact ⟨_, rfl, .dateRange hsubject hcomparator (Instant.le_refl ⟨0, 0⟩)⟩
    · simp only [List.mem_ite_nil_right, List.mem_cons, List.not_mem_nil, or_false] at h
      obtain ⟨hcomparator, rfl | rfl⟩ := h
      · exact ⟨_, rfl, .date hsubject hcomparator ⟨0, 0⟩⟩
      · have htext : Date.ofText? "1970-01-01" = some (Date.ofDayNumber 0) := by decide +kernel
        exact ⟨_, rfl, .dateText hsubject hcomparator htext⟩
  | number =>
    simp only [ValueKind.operandKinds, hsubject] at h
    split at h
    · next hcomparator =>
      obtain rfl := List.mem_singleton.mp h
      have hfinite : Double.zero.isFinite = true := rfl
      exact ⟨_, rfl, .numberRange hsubject hcomparator hfinite hfinite (Int.le_refl _)⟩
    · simp only [List.mem_ite_nil_right, List.mem_cons, List.not_mem_nil, or_false] at h
      obtain ⟨hcomparator, rfl | rfl⟩ := h
      · exact ⟨.number .zero, rfl, .number hsubject hcomparator rfl⟩
      · have htext : numberOfText? "0" = some .zero := by decide +kernel
        exact ⟨_, rfl, .numberText hsubject hcomparator htext rfl⟩
  | text =>
    simp only [ValueKind.operandKinds, hsubject, List.mem_ite_nil_right, List.mem_singleton] at h
    obtain ⟨hcomparator, rfl⟩ := h
    exact ⟨.text "a", rfl, .text hsubject hcomparator (by decide)⟩
  | flag =>
    simp only [ValueKind.operandKinds, hsubject] at h
    split at h
    · next hcomparator =>
      obtain ⟨operand, rfl⟩ := Operand.exists_kind h
      exact ⟨operand, rfl, .assertion hsubject hcomparator operand⟩
    · simp only [List.mem_ite_nil_right, List.mem_singleton] at h
      obtain ⟨hcomparator, rfl⟩ := h
      exact ⟨_, rfl, .bool hsubject hcomparator true⟩

/-- The kinds of operand of the rows with an attribute and a comparator. -/
theorem takesKind_iff :
    subject.TakesKind comparator kind ↔ kind ∈ subject.valueKind.operandKinds comparator := by
  constructor
  · rintro ⟨operand, rfl, h⟩
    exact kind_mem_operandKinds h
  · exact exists_isListed

/-- A comparator is one for an attribute exactly if it takes some kind of operand. -/
theorem takes_iff :
    subject.Takes comparator ↔ subject.valueKind.operandKinds comparator ≠ [] := by
  constructor
  · rintro ⟨operand, h⟩
    exact List.ne_nil_of_mem (kind_mem_operandKinds h)
  · intro h
    obtain ⟨kind, hkind⟩ := List.exists_mem_of_ne_nil _ h
    obtain ⟨operand, -, hlisted⟩ := exists_isListed hkind
    exact ⟨operand, hlisted⟩

end Attribute

namespace Rule

/-- The comparator asks for bounds, and there is no operand. -/
def LacksBounds (rule : Rule) : Prop :=
  rule.comparator ∈ Comparator.bounded ∧ rule.subject.Takes rule.comparator ∧ rule.operand = .none

/-- The operand is a range of numbers that is not finite, as the comparator asks. -/
def HasInfiniteRange (rule : Rule) : Prop :=
  rule.subject.valueKind = .number ∧ rule.comparator = .isBetween ∧
    ∃ lo hi, rule.operand = .numberRange lo hi ∧ ¬ (lo.isFinite = true ∧ hi.isFinite = true)

/-- The operand is a range whose bounds are reversed. -/
def HasReversedRange (rule : Rule) : Prop :=
  rule.comparator = .isBetween ∧
    (rule.subject.valueKind = .date ∧
        (∃ start stop, rule.operand = .dateRange start stop ∧ stop < start) ∨
      rule.subject.valueKind = .number ∧
        ∃ lo hi, rule.operand = .numberRange lo hi ∧ lo.isFinite = true ∧ hi.isFinite = true ∧
          hi.units < lo.units)

/-- The operand tells no finite number; the message names the text or the number. -/
def HasBadNumber (rule : Rule) (told : String) : Prop :=
  (∃ text, rule.operand = .text text ∧ numberOfText? text = none ∧ told = text) ∨
    ∃ number, (rule.operand = .number number ∨
        ∃ text, rule.operand = .text text ∧ numberOfText? text = some number) ∧
      number.isFinite = false ∧ told = nonFiniteName number

/-- The rule has no meaning for that cause. -/
def HasCause (rule : Rule) : InvalidRule → Prop
  | .incompatibleComparator subject comparator =>
    subject = rule.subject ∧ comparator = rule.comparator ∧ ¬ subject.Takes comparator
  | .incompatibleValue subject comparator kind =>
    subject = rule.subject ∧ comparator = rule.comparator ∧ kind = rule.operand.kind ∧
      subject.Takes comparator ∧ ¬ rule.LacksBounds ∧
      (¬ subject.TakesKind comparator kind ∨ rule.HasInfiniteRange)
  | .missingBounds comparator => comparator = rule.comparator ∧ rule.LacksBounds
  | .reversedRange => rule.HasReversedRange
  | .unknownStatus subject text =>
    subject = rule.subject ∧ subject.valueKind = .status ∧ rule.comparator ∈ Comparator.equality ∧
      rule.operand = .text text ∧ ¬ subject.NamesStatus text
  | .emptyText =>
    rule.subject.valueKind = .text ∧ rule.comparator ∈ Comparator.containment ∧
      ∃ text, rule.operand = .text text ∧ Text.trim text.toList = []
  | .invalidDate text =>
    rule.subject.valueKind = .date ∧ rule.comparator ∈ Comparator.ordering ∧
      rule.operand = .text text ∧ Date.ofText? text = none
  | .invalidNumber told =>
    rule.subject.valueKind = .number ∧ rule.comparator ∈ Comparator.ordering ∧
      rule.HasBadNumber told

variable {rule : Rule}

/-- A rule has one cause at most. -/
theorem HasCause.unique {cause other : InvalidRule} (h : rule.HasCause cause)
    (h' : rule.HasCause other) : cause = other := by
  -- two causes ask for different kinds of value, comparators, operands or contents
  cases cause
  all_goals
    cases other
    all_goals
      simp only [HasCause] at h h'
      grind [LacksBounds, HasInfiniteRange, HasReversedRange, HasBadNumber, Attribute.takes_iff,
        Attribute.takesKind_iff, ValueKind.operandKinds, ValueKind.operandKinds_date,
        ValueKind.operandKinds_number, Operand.kind]

end Rule

end Curation
