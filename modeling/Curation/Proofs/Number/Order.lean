import Curation.Number.Double

/-!
# The order of doubles

Doubles that are numbers are ordered by their values, so that of two of them one is below the other
or not below it. Finite doubles are numbers, and so is the double nearest to a natural number,
which is infinite at most.

* `Double.isNaN_of_isFinite`, `Double.isNaN_ofNat`: doubles that are numbers.
* `Double.less_eq_not_atMost`: below and not below exclude each other, and one of them holds.
-/

namespace Curation.Double

variable {a b d : Double}

/-- A finite number is a number. -/
theorem isNaN_of_isFinite (h : d.isFinite = true) : d.isNaN = false :=
  decide_eq_false (Nat.lt_asymm (of_decide_eq_true h))

theorem isNaN_ofNat (n : Nat) : (ofNat n).isNaN = false :=
  decide_eq_false (Nat.not_lt.mpr (Nat.min_le_right _ _))

/-- One double is below another one if its value is. -/
theorem less_eq (ha : a.isNaN = false) (hb : b.isNaN = false) :
    a.less b = decide (a.units < b.units) := by
  simp only [less, ha, hb, Bool.not_false, Bool.true_and]

/-- One double is not above another one if its value is not. -/
theorem atMost_eq (ha : a.isNaN = false) (hb : b.isNaN = false) :
    a.atMost b = decide (a.units ≤ b.units) := by
  simp only [atMost, ha, hb, Bool.not_false, Bool.true_and]

/-- Of two numbers, one is below the other exactly if the other is not below it or equal to it. -/
theorem less_eq_not_atMost (ha : a.isNaN = false) (hb : b.isNaN = false) :
    a.less b = !b.atMost a := by
  rw [less_eq ha hb, atMost_eq hb ha, ← decide_not]
  simp only [Int.not_le]

end Curation.Double
