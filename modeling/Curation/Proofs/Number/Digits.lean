import Curation.Number.Digits

/-!
# Written numbers

The digits of a number denote it, with zeros before them or without, and are read to the end if no
digit follows.

* `Digits.value_ofNat`, `Digits.value_padded`: reading undoes writing.
* `Digits.head?_ofNat_ne_zero`: a written number starts with zero only if it is zero.
-/

namespace Curation.Digits

/-- The digits of a number denote it. -/
theorem value_ofNat (n : Nat) : value (ofNat n) = n := Nat.ofDigitChars_ten_toDigits

/-- A number is written in digits only. -/
theorem isDigit_of_mem_ofNat {c : Char} {n : Nat} (h : c ∈ ofNat n) : c.isDigit :=
  Nat.isDigit_of_mem_toDigits (by decide) (by decide) h

theorem ofNat_ne_nil (n : Nat) : ofNat n ≠ [] := Nat.toDigits_ne_nil

/-- A written number starts with zero only if it is zero. -/
theorem head?_ofNat_ne_zero {n : Nat} (h : n ≠ 0) : (ofNat n).head? ≠ some '0' := by
  induction n using Nat.strongRecOn with
  | ind n ih =>
    by_cases hlt : n < 10
    -- a single digit other than zero
    · rw [ofNat, Nat.toDigits_of_lt_base hlt, List.head?_cons, Ne, Option.some_inj]
      intro hzero
      have hcode := congrArg Char.toNat hzero
      rw [Nat.toNat_digitChar_of_lt_ten hlt] at hcode
      exact h (Nat.add_left_cancel hcode)
    -- the first digit is the one of the number without its last digit
    · have hhead := ih (n / 10) (by omega) (by omega)
      obtain ⟨c, s, hdigits⟩ := List.exists_cons_of_ne_nil (ofNat_ne_nil (n / 10))
      rw [ofNat, Nat.toDigits_of_base_le (by decide) (Nat.not_lt.mp hlt)]
      rw [ofNat] at hdigits hhead
      rw [hdigits] at hhead ⊢
      exact hhead

/-- Zeros before the digits do not matter. -/
theorem value_padded (width n : Nat) : value (padded width n) = n := by
  have happend := Nat.ofDigitChars_append (b := 10) (l := .replicate (width - (ofNat n).length) '0')
    (m := ofNat n) 0
  rw [Nat.ofDigitChars_replicate_zero, Nat.mul_zero] at happend
  exact happend.trans (value_ofNat n)

theorem isDigit_of_mem_padded {c : Char} {width n : Nat} (h : c ∈ padded width n) : c.isDigit := by
  rw [padded, List.mem_append] at h
  rcases h with h | h
  · rw [List.eq_of_mem_replicate h]
    rfl
  · exact isDigit_of_mem_ofNat h

/-- A number that fits in the width is padded to just that width. -/
theorem length_padded {width n : Nat} (hwidth : 0 < width) (h : n < Nat.pow 10 width) :
    (padded width n).length = width := by
  have hlength : (ofNat n).length ≤ width := (Nat.length_toDigits_le_iff (by decide) hwidth).mpr h
  rw [padded, List.length_append, List.length_replicate]
  omega

section Reading

variable {digits rest : List Char}

/-- The digits in front are all that is taken, if no digit follows them. -/
theorem takeWhile_isDigit_append (hdigits : ∀ c ∈ digits, c.isDigit)
    (hrest : ∀ c ∈ rest.head?, ¬ c.isDigit) :
    (digits ++ rest).takeWhile Char.isDigit = digits := by
  rw [List.takeWhile_append_of_pos hdigits]
  cases rest with
  | nil => simp
  | cons c rest => rw [List.takeWhile_cons_of_neg (hrest c rfl), List.append_nil]

/-- The digits in front are all that is dropped, if no digit follows them. -/
theorem dropWhile_isDigit_append (hdigits : ∀ c ∈ digits, c.isDigit)
    (hrest : ∀ c ∈ rest.head?, ¬ c.isDigit) :
    (digits ++ rest).dropWhile Char.isDigit = rest := by
  rw [List.dropWhile_append_of_pos hdigits]
  cases rest with
  | nil => rfl
  | cons c rest => rw [List.dropWhile_cons_of_neg (hrest c rfl)]

end Reading

end Curation.Digits
