import Curation.Proofs.Number.Digits
import Curation.Proofs.Time.Trailing

/-!
# Tokens of periods

A period is told by a name of its own, or by `last`, digits and the name of a unit. Nothing else
tells a period, whatever characters it is made of: the digits are ASCII digits of a number below
2³², with any zeros before it, and what is left out of a token or put in lower case before it is
read are dashes, underscores and spaces, and ASCII letters.

* `Period.IsSpelledBy`: the tokens of a period, in lower case and without separators.
* `Period.ofToken?_eq_some_iff`: the tokens that tell a period.
* `Period.ofToken_by_grammar`: what is read from any text.
-/

namespace Curation

/-- The names of a unit. -/
def TrailingUnit.names : TrailingUnit → List String
  | hours => ["hour", "hours", "h"]
  | days => ["day", "days", "d"]
  | weeks => ["week", "weeks", "w"]
  | months => ["month", "months", "m"]

namespace Period

/-- The periods that have names of their own. -/
def names : List (String × Period) :=
  [("today", today), ("thisweek", thisWeek), ("thismonth", thisMonth), ("thisyear", thisYear),
    ("pastweek", lastDays 7), ("pastmonth", lastDays 30), ("pastyear", lastDays 365)]

/-- The tokens of a period, in lower case and without separators. -/
inductive IsSpelledBy : Period → List Char → Prop where
  | name {name : String} {period : Period} (h : (name, period) ∈ names) :
      IsSpelledBy period name.toList
  | count (unit : TrailingUnit) {name : String} (hname : name ∈ unit.names) {digits : List Char}
      (hne : digits ≠ []) (hdigits : ∀ c ∈ digits, c.isDigit) {count : UInt32}
      (hcount : Digits.value digits = count.toNat) :
      IsSpelledBy (unit.period count) ("last".toList ++ digits ++ name.toList)

/-- A name names the period that it is listed with, and no other. -/
theorem ofName?_eq_some_iff {name : String} {period : Period} :
    ofName? name = some period ↔ (name, period) ∈ names := by
  constructor
  · intro h
    unfold ofName? at h
    split at h <;> simp_all [names]
  · intro h
    simp only [names, List.mem_cons, Prod.mk.injEq, List.not_mem_nil, or_false] at h
    rcases h with ⟨rfl, rfl⟩ | ⟨rfl, rfl⟩ | ⟨rfl, rfl⟩ | ⟨rfl, rfl⟩ | ⟨rfl, rfl⟩ | ⟨rfl, rfl⟩ |
      ⟨rfl, rfl⟩ <;> rfl

/-- No name of its own begins as the tokens with a count do. -/
theorem head?_of_mem_names {name : String} {period : Period} (h : (name, period) ∈ names) :
    name.toList.head? ≠ some 'l' := by
  have hall : ∀ entry ∈ names, entry.1.toList.head? ≠ some 'l' := by decide
  exact hall _ h

/-- The name of a unit and a count name the period of so many units. -/
theorem ofUnit?_eq_some_iff {name : String} {count : UInt32} {period : Period} :
    ofUnit? name count = some period ↔
      ∃ unit : TrailingUnit, name ∈ unit.names ∧ unit.period count = period := by
  constructor
  -- each name stands for one unit, and they are asked in turn
  · intro h
    unfold ofUnit? at h
    split at h
    · next hname => exact ⟨.hours, hname, Option.some.inj h⟩
    split at h
    · next hname => exact ⟨.days, hname, Option.some.inj h⟩
    split at h
    · next hname => exact ⟨.weeks, hname, Option.some.inj h⟩
    split at h
    · next hname => exact ⟨.months, hname, Option.some.inj h⟩
    · cases h
  · rintro ⟨unit, hname, rfl⟩
    cases unit <;>
      · simp only [TrailingUnit.names, List.mem_cons, List.not_mem_nil, or_false] at hname
        rcases hname with rfl | rfl | rfl <;> rfl

/-- No unit begins with a digit. -/
theorem not_isDigit_of_mem_names (unit : TrailingUnit) {name : String} (h : name ∈ unit.names) :
    ∀ c ∈ name.toList.head?, ¬ c.isDigit := by
  have hall : ∀ name ∈ unit.names, name.toList.head?.any Char.isDigit = false := by
    cases unit <;> decide
  intro c hc
  have hany := hall name h
  rw [hc] at hany
  exact Bool.eq_false_iff.mp hany

/-- A count is read up to its last digit. -/
theorem ofCount?_digits_append {unit : TrailingUnit} {name : String} (hname : name ∈ unit.names)
    {digits : List Char} (hne : digits ≠ []) (hdigits : ∀ c ∈ digits, c.isDigit) {count : UInt32}
    (hcount : Digits.value digits = count.toNat) :
    ofCount? (digits ++ name.toList) = some (unit.period count) := by
  have hunit := not_isDigit_of_mem_names unit hname
  have hlt : ¬ UInt32.size ≤ count.toNat := Nat.not_le.mpr count.toNat_lt_size
  unfold ofCount?
  simp only [Digits.takeWhile_isDigit_append hdigits hunit,
    Digits.dropWhile_isDigit_append hdigits hunit, hcount, List.isEmpty_iff, hne, hlt, or_self,
    if_false, String.ofList_toList, UInt32.ofNat_toNat]
  exact ofUnit?_eq_some_iff.mpr ⟨unit, hname, rfl⟩

/-- Nothing but digits and the name of a unit is read as a count. -/
theorem isSpelledBy_of_ofCount? {s : List Char} {period : Period} (h : ofCount? s = some period) :
    period.IsSpelledBy ("last".toList ++ s) := by
  unfold ofCount? at h
  dsimp only at h
  split at h
  · cases h
  · next hcount =>
    rw [not_or, List.isEmpty_iff, Nat.not_le] at hcount
    obtain ⟨unit, hname, rfl⟩ := ofUnit?_eq_some_iff.mp h
    have hdigits : ∀ c ∈ s.takeWhile Char.isDigit, c.isDigit :=
      List.all_eq_true.mp List.all_takeWhile
    -- the digits and the unit are the two parts of what was read
    have hspelled := IsSpelledBy.count unit hname hcount.1 hdigits
      (UInt32.toNat_ofNat_of_lt' hcount.2).symm
    have hrest : (String.ofList (s.dropWhile Char.isDigit)).toList = s.dropWhile Char.isDigit :=
      String.toList_ofList
    rwa [hrest, List.append_assoc, List.takeWhile_append_dropWhile] at hspelled

/-- A token names the period whose spelling it is, once it is normal. -/
theorem ofToken?_eq_some_iff {raw : String} {period : Period} :
    ofToken? raw = some period ↔ period.IsSpelledBy (normalToken raw.toList) := by
  have hlast : "last".toList = ['l', 'a', 's', 't'] := by rfl
  unfold ofToken?
  dsimp only
  generalize normalToken raw.toList = token
  constructor
  · intro h
    split at h
    · next named hname =>
      cases h
      have hspelled := IsSpelledBy.name (ofName?_eq_some_iff.mp hname)
      rwa [String.toList_ofList] at hspelled
    · split at h
      · next hprefix =>
        obtain ⟨rest, rfl⟩ := List.isPrefixOf_iff_prefix.mp hprefix
        exact isSpelledBy_of_ofCount? h
      · cases h
  · intro h
    cases h with
    | name hname => rw [String.ofList_toList, ofName?_eq_some_iff.mpr hname]
    | @count unit name hunit digits hne hdigits count hcount =>
      rw [hlast, List.append_assoc]
      -- no name begins in the same way, so that the token is read as a count
      have hname : ofName? (String.ofList (['l', 'a', 's', 't'] ++ (digits ++ name.toList))) =
          none := by
        refine Option.eq_none_iff_forall_ne_some.mpr fun named hnamed => ?_
        exact head?_of_mem_names (ofName?_eq_some_iff.mp hnamed) (by rw [String.toList_ofList]; rfl)
      rw [hname]
      exact ofCount?_digits_append hunit hne hdigits hcount

/-- A token is normal in lower case and without separators. -/
theorem normalToken_eq (s : List Char) :
    normalToken s = (s.filter (· ∉ ['_', '-', ' '])).map Char.toLower := by
  unfold normalToken Text.lowerAscii Text.joinParts
  refine congrArg (List.map Char.toLower) (List.filter_congr fun c _ => ?_)
  rw [Bool.eq_iff_iff]
  simp [and_assoc]

/-- Texts are read by the grammar of tokens, once their separators are left out and their ASCII
letters are in lower case. Of any other text the failure tells what stands between its blanks. -/
theorem ofToken_by_grammar (raw : String) :
    (∀ period, ofToken raw = .ok period ↔
        period.IsSpelledBy ((raw.toList.filter (· ∉ ['_', '-', ' '])).map Char.toLower)) ∧
      ∀ failure, ofToken raw = .error failure ↔
        (∀ period : Period,
          ¬ period.IsSpelledBy ((raw.toList.filter (· ∉ ['_', '-', ' '])).map Char.toLower)) ∧
          failure = .invalidPeriod (String.ofList (Text.trim raw.toList)) := by
  rw [← normalToken_eq]
  simp only [← ofToken?_eq_some_iff, ofToken]
  cases ofToken? raw with
  | some named => simp
  | none => simp [eq_comm]

example : ofToken "Last-00_7 Days" = .ok (lastDays 7) := by rfl

end Period

end Curation
