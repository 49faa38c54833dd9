import Curation.Proofs.Number.Order

/-!
# Natural numbers as doubles

Every natural number up to 2⁵³ is a double, so that rounding keeps it and doubles compare such
numbers as they are.

* `Double.exactLimit`: the number 2⁵³.
* `Double.units_ofNat`: the value of the double nearest to such a number.
* `Double.atMost_ofNat`: the order of such numbers as doubles.
-/

namespace Curation.Double

/-- Up to this number, every natural number is a double. -/
def exactLimit : Nat := Nat.pow 2 53

/-- The rank of a number that has 53 significant bits: none of them is rounded away. -/
theorem nearestRank_significant {q shift : Nat} (hlow : Nat.pow 2 52 ≤ q) (hhigh : q < exactLimit)
    (hshift : shift ≤ 2000) :
    nearestRank (q * Nat.pow 2 shift) 1 = shift * Nat.pow 2 52 + q := by
  have hpos : 0 < Nat.pow 2 shift := Nat.two_pow_pos shift
  have hq : 0 < q := Nat.lt_of_lt_of_le (by decide) hlow
  have hne : q * Nat.pow 2 shift ≠ 0 := Nat.mul_ne_zero (Nat.ne_of_gt hq) (Nat.ne_of_gt hpos)
  -- the number has 53 binary digits before `shift` zeros
  have hlog : (q * Nat.pow 2 shift).log2 = 52 + shift := by
    rw [Nat.log2_eq_iff hne, Nat.pow_add, Nat.add_right_comm, Nat.pow_add]
    exact ⟨Nat.mul_le_mul_right _ hlow, Nat.mul_lt_mul_of_pos_right hhigh hpos⟩
  -- the exponent stays below that of infinity
  have hbound : shift * Nat.pow 2 52 + q ≤ infiniteRank := by
    have hlt : q < 9007199254740992 := hhigh
    show shift * 4503599627370496 + q ≤ 2047 * 4503599627370496
    omega
  simp only [nearestRank, Nat.div_one, hlog, Nat.add_sub_cancel_left, Nat.one_mul,
    Nat.mul_div_cancel _ hpos, Nat.mul_mod_left, Nat.mul_zero, hpos, if_true]
  exact Nat.min_eq_left hbound

/-- The magnitude that the rank of a number with 53 significant bits stands for. -/
theorem magnitudeOf_significant {q shift : Nat} (hlow : Nat.pow 2 52 ≤ q) (hhigh : q < exactLimit) :
    magnitudeOf (shift * Nat.pow 2 52 + q) = q * Nat.pow 2 shift := by
  have hle : 4503599627370496 ≤ q := hlow
  have hlt : q < 9007199254740992 := hhigh
  -- the leading digit is not stored, but it adds one to the exponent
  have hexponent : (shift * Nat.pow 2 52 + q) / Nat.pow 2 52 = shift + 1 := by
    show (shift * 4503599627370496 + q) / 4503599627370496 = shift + 1
    omega
  have hfraction : (shift * Nat.pow 2 52 + q) % Nat.pow 2 52 = q - Nat.pow 2 52 := by
    show (shift * 4503599627370496 + q) % 4503599627370496 = q - 4503599627370496
    omega
  simp only [magnitudeOf, hexponent, hfraction, Nat.add_one_ne_zero, if_false, Nat.add_sub_cancel,
    Nat.add_sub_cancel' hlow]

theorem pow_mul_pow (m n : Nat) : Nat.pow 2 m * Nat.pow 2 n = Nat.pow 2 (m + n) :=
  (Nat.pow_add 2 m n).symm

/-- A number up to the limit that is not zero has 53 significant bits when it is counted in small
units. -/
theorem exists_significant {n e unit : Nat} (hpos : 0 < n) (hn : n ≤ exactLimit)
    (hunit : unit = Nat.pow 2 e) (he : 52 ≤ e) :
    ∃ q shift, Nat.pow 2 52 ≤ q ∧ q < exactLimit ∧ shift ≤ e + 1 ∧
      q * Nat.pow 2 shift = n * unit := by
  subst hunit
  have hne := Nat.ne_of_gt hpos
  rcases Nat.lt_or_eq_of_le hn with hlt | rfl
  · have hlog : n.log2 < 53 := (Nat.log2_lt hne).mpr hlt
    refine ⟨n * Nat.pow 2 (52 - n.log2), n.log2 + (e - 52), ?_, ?_, by omega, ?_⟩
    · calc
        Nat.pow 2 52 = Nat.pow 2 n.log2 * Nat.pow 2 (52 - n.log2) := by
          rw [pow_mul_pow, Nat.add_sub_cancel' (Nat.le_of_lt_succ hlog)]
        _ ≤ n * Nat.pow 2 (52 - n.log2) := Nat.mul_le_mul_right _ (Nat.log2_self_le hne)
    · calc
        n * Nat.pow 2 (52 - n.log2) < Nat.pow 2 (n.log2 + 1) * Nat.pow 2 (52 - n.log2) :=
          Nat.mul_lt_mul_of_pos_right Nat.lt_log2_self (Nat.two_pow_pos _)
        _ = exactLimit := by
          rw [pow_mul_pow, show n.log2 + 1 + (52 - n.log2) = 53 by omega, exactLimit]
    · rw [Nat.mul_assoc, pow_mul_pow, show 52 - n.log2 + (n.log2 + (e - 52)) = e by omega]
  · -- the limit itself has one bit more, and that one is zero
    refine ⟨Nat.pow 2 52, e + 1, Nat.le_refl _, by decide, Nat.le_refl _, ?_⟩
    rw [exactLimit, pow_mul_pow, pow_mul_pow, show 52 + (e + 1) = 53 + e by omega]

/-- One is 2¹⁰⁷⁴ times the smallest positive number. -/
theorem one_eq : one = Nat.pow 2 1074 := by decide +kernel

theorem one_pos : 0 < one := by decide +kernel

/-- The rank of a number up to the limit is that of a finite double, and stands for the number. -/
theorem rank_ofNat {n : Nat} (hn : n ≤ exactLimit) :
    (ofNat n).rank < infiniteRank ∧ magnitudeOf (ofNat n).rank = n * one := by
  rcases Nat.eq_zero_or_pos n with rfl | hpos
  · decide +kernel
  -- a positive number is written with all 53 digits of the significand
  · obtain ⟨q, shift, hlow, hhigh, hshift, hq⟩ :=
      exists_significant hpos hn one_eq (by decide)
    have hrank : (ofNat n).rank = shift * Nat.pow 2 52 + q := calc
      (ofNat n).rank = nearestRank (n * one) 1 := rfl
      _ = nearestRank (q * Nat.pow 2 shift) 1 := by rw [hq]
      _ = shift * Nat.pow 2 52 + q :=
        nearestRank_significant hlow hhigh (Nat.le_trans hshift (by decide))
    rw [hrank, magnitudeOf_significant hlow hhigh]
    refine ⟨?_, hq⟩
    have hlt : q < 9007199254740992 := hhigh
    show shift * 4503599627370496 + q < 2047 * 4503599627370496
    omega

/-- A natural number that is exact is finite. -/
theorem isFinite_ofNat {n : Nat} (hn : n ≤ exactLimit) : (ofNat n).isFinite = true :=
  decide_eq_true (rank_ofNat hn).1

/-- The double nearest to a number up to the limit is that number. -/
theorem units_ofNat {n : Nat} (hn : n ≤ exactLimit) : (ofNat n).units = (n * one : Nat) := by
  rw [units, negative_ofNat, if_neg Bool.false_ne_true, magnitude, (rank_ofNat hn).2]

/-- Numbers up to the limit are in order as doubles as they are. -/
theorem atMost_ofNat {m n : Nat} (hm : m ≤ exactLimit) (hn : n ≤ exactLimit) :
    (ofNat m).atMost (ofNat n) = decide (m ≤ n) := by
  simp only [atMost_eq (isNaN_ofNat m) (isNaN_ofNat n), units_ofNat hm, units_ofNat hn,
    Int.ofNat_le, Nat.mul_le_mul_right_iff one_pos]

end Curation.Double
