/-!
# Doubles

The 64-bit binary floating-point numbers of IEEE 754, as exact data: a sign, and a rank, which is
the exponent and fraction fields read as one number. Ranks order the doubles of one sign by
magnitude. Magnitudes and values are counted in units of 2⁻¹⁰⁷⁴, the smallest positive double, so
that every finite value is an integer.

Arithmetic rounds to the nearest double, and of two nearest ones to the one of even rank.

* `Double.units`: the value of a finite double, in units.
* `Double.ofRatio`: the double nearest to a ratio.
* `Double.totalOrder`: the order of all doubles, in which only equal doubles are equal.
-/

namespace Curation

/-- A 64-bit binary floating-point number. -/
structure Double where
  /-- Whether the sign is negative. -/
  negative : Bool
  /-- The exponent and fraction fields, read as one number. -/
  rank : Nat
  /-- The two fields have 63 bits together. -/
  rank_lt : rank < Nat.pow 2 63 := by decide
  deriving DecidableEq, Repr

namespace Double

/-- The rank of infinity, above the rank of every finite double. -/
def infiniteRank : Nat := 2047 * Nat.pow 2 52

/-- The rank of infinity leaves the sign bit free. -/
theorem infiniteRank_lt : infiniteRank < Nat.pow 2 63 := by decide

theorem zeroRank_lt : 0 < Nat.pow 2 63 := by decide

/-- Positive zero. -/
def zero : Double := ⟨false, 0, zeroRank_lt⟩

/-- The infinity of a sign. -/
def infinity (negative : Bool) : Double := ⟨negative, infiniteRank, infiniteRank_lt⟩

/-- Whether the double is neither infinite nor the result of an undefined operation. -/
def isFinite (d : Double) : Bool := d.rank < infiniteRank

/-- Whether the double is the result of an undefined operation. -/
def isNaN (d : Double) : Bool := infiniteRank < d.rank

/-- The 64 bits of the double, as a number. -/
def bits (d : Double) : Nat := (if d.negative then Nat.pow 2 63 else 0) + d.rank

/-- The magnitude in units of the double of a rank. -/
def magnitudeOf (rank : Nat) : Nat :=
  let exponent := rank / Nat.pow 2 52
  let fraction := rank % Nat.pow 2 52
  if exponent = 0 then fraction else (Nat.pow 2 52 + fraction) * Nat.pow 2 (exponent - 1)

/-- The magnitude in units. -/
def magnitude (d : Double) : Nat := magnitudeOf d.rank

/-- The value in units; for an infinite double, a value beyond every finite one. -/
def units (d : Double) : Int := if d.negative then -(d.magnitude : Int) else d.magnitude

/-- Number of units in one. -/
def one : Nat := Nat.pow 2 1074

/-- The rank of the double nearest to `num / den` units, ties going to the even rank; at most the
rank of infinity. -/
def nearestRank (num den : Nat) : Nat :=
  -- Doubles of this size are multiples of `2 ^ shift` units, so that 53 bits are left.
  let shift := (num / den).log2 - 52
  let step := den * Nat.pow 2 shift
  let quotient := num / step
  let rest := num % step
  let rounded :=
    if 2 * rest < step then quotient
    else if step < 2 * rest then quotient + 1
    else quotient + quotient % 2
  min (shift * Nat.pow 2 52 + rounded) infiniteRank

/-- The rank nearest to a ratio leaves the sign bit free, as no rank is above infinity. -/
theorem nearestRank_lt (num den : Nat) : nearestRank num den < Nat.pow 2 63 :=
  Nat.lt_of_le_of_lt (Nat.min_le_right _ _) infiniteRank_lt

/-- The double nearest to `num / den`, with the given sign; `den` must not be zero. -/
def ofRatio (negative : Bool) (num den : Nat) : Double :=
  ⟨negative, nearestRank (num * one) den, nearestRank_lt _ _⟩

/-- The double nearest to a natural number. -/
def ofNat (n : Nat) : Double := ofRatio false n 1

/-- The double nearest to an integer. -/
def ofInt (n : Int) : Double := ofRatio (n < 0) n.natAbs 1

/-- The double nearest to the sum of two finite doubles. -/
def add (a b : Double) : Double :=
  let sum := a.units + b.units
  if sum = 0 then ⟨a.negative && b.negative, 0, zeroRank_lt⟩
  else ⟨sum < 0, nearestRank sum.natAbs 1, nearestRank_lt _ _⟩

/-- The double nearest to the product of two finite doubles. -/
def mul (a b : Double) : Double :=
  ⟨a.negative ^^ b.negative, nearestRank (a.magnitude * b.magnitude) one, nearestRank_lt _ _⟩

/-- The double nearest to the quotient of two finite doubles, of which the second is not zero. -/
def div (a b : Double) : Double :=
  ofRatio (a.negative ^^ b.negative) a.magnitude b.magnitude

/-- The double of the other sign. -/
def neg (d : Double) : Double := ⟨!d.negative, d.rank, d.rank_lt⟩

/-- The smaller of two doubles that are numbers, by value. -/
def min (a b : Double) : Double := if b.units < a.units then b else a

/-- Whether two doubles are numbers of one value: both zeros are one value. -/
def equal (a b : Double) : Bool := !a.isNaN && !b.isNaN && a.units == b.units

/-- Whether two doubles are numbers, the first of the smaller value. -/
def less (a b : Double) : Bool := !a.isNaN && !b.isNaN && a.units < b.units

/-- Whether two doubles are numbers, the first of a value not above the second's. -/
def atMost (a b : Double) : Bool := !a.isNaN && !b.isNaN && a.units ≤ b.units

/-- The position in the order of all doubles: negative before positive, and by magnitude. -/
def totalKey (d : Double) : Int := if d.negative then -(d.rank : Int) - 1 else d.rank

/-- The order of all doubles, in which only equal doubles are equal. -/
def totalOrder (a b : Double) : Ordering := compare a.totalKey b.totalKey

/-- A natural number is not negative. -/
@[simp]
theorem negative_ofNat (n : Nat) : (ofNat n).negative = false := rfl

/-- Numbers with one place in the total order are the same number. -/
theorem totalKey_inj {a b : Double} (h : a.totalKey = b.totalKey) : a = b := by
  obtain ⟨s, r, hr⟩ := a
  obtain ⟨t, q, hq⟩ := b
  cases s <;> cases t <;> simp only [totalKey] at h <;> simp at h ⊢ <;> omega

/-- Only equal doubles are equal in the order of all doubles. -/
theorem totalOrder_eq_eq {a b : Double} : totalOrder a b = .eq ↔ a = b := by
  rw [totalOrder, Std.LawfulEqOrd.compare_eq_iff_eq]
  exact ⟨totalKey_inj, congrArg _⟩

end Double

end Curation
