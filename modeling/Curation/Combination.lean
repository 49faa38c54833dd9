import Curation.Failure
import Curation.Text.Blank

/-!
# Combination of predicates

Predicates on an item are combined by `AND` or `OR`. Predicates are tested from the left until one
decides the answer; no predicates match everything.

* `Combination.ofText?`: the accepted spellings.
* `holds_iff`: what a combination asks of its predicates.
* `Combination.testedCount`: how many predicates are tested.
-/

namespace Curation

/-- A way to combine predicates. -/
inductive Combination where
  | and
  | or
  deriving DecidableEq, Repr

namespace Combination

/-- The name of the combination in records. -/
def name : Combination → String
  | .and => "AND"
  | .or => "OR"

/-- The combination that a text names, between blanks. -/
def ofText? (raw : String) : Option Combination :=
  let text := String.ofList (Text.trim raw.toList)
  if text ∈ ["AND", "and", "all"] then some .and
  else if text ∈ ["OR", "or", "any"] then some .or
  else none

/-- The combination that a text names, or the failure that tells the text between its blanks. -/
def ofText (raw : String) : Except Failure Combination :=
  match ofText? raw with
  | some logic => .ok logic
  | none => .error (.invalidLogic (String.ofList (Text.trim raw.toList)))

/-- Whether the combination of predicates holds; no predicates hold. -/
def holds (logic : Combination) (predicates : List α) (test : α → Bool) : Bool :=
  predicates.isEmpty ||
    match logic with
    | .and => predicates.all test
    | .or => predicates.any test

/-- The number of predicates tested, up to and with the first one that decides. -/
def testedCount (logic : Combination) (predicates : List α) (test : α → Bool) : Nat :=
  match predicates.findIdx? fun p => test p == (logic == .or) with
  | some i => i + 1
  | none => predicates.length

/-- A combination without predicates holds; else it asks for all of them, or for one. -/
theorem holds_iff {logic : Combination} {predicates : List α} {test : α → Bool} :
    logic.holds predicates test = true ↔
      predicates = [] ∨
        match logic with
        | .and => ∀ p ∈ predicates, test p = true
        | .or => ∃ p ∈ predicates, test p = true := by
  cases logic <;> simp [holds]

/-- Predicates that are made from others are combined as these are. -/
theorem holds_map (logic : Combination) (f : α → β) (predicates : List α) (test : β → Bool) :
    logic.holds (predicates.map f) test = logic.holds predicates fun p => test (f p) := by
  cases logic <;> simp [holds, Function.comp_def]

/-- A combination asks its own predicates only. -/
theorem holds_congr {logic : Combination} {predicates : List α} {test other : α → Bool}
    (h : ∀ p ∈ predicates, test p = other p) :
    logic.holds predicates test = logic.holds predicates other := by
  rw [Bool.eq_iff_iff, holds_iff, holds_iff]
  refine or_congr_right ?_
  cases logic with
  | and => exact forall₂_congr fun p hp => by rw [h p hp]
  | or => exact exists_congr fun p => and_congr_right fun hp => by rw [h p hp]

end Combination

end Curation
