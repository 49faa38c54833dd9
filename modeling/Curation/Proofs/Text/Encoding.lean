import Curation.Proofs.Text.Occurrence
import Curation.Text.Fold

/-!
# Encoded texts

A text is stored as bytes, and its folded form is searched byte by byte. The places found so are
those found character by character: a text cannot stand between two characters of another, and
folding keeps the encoded width of every character.

* `find?_utf8`: the search of bytes finds the bytes before the place in characters.
* `byteOffset_fold`: the bytes before a place in a folded text are those before it in the text.
-/

namespace Curation.Text

/-- The bytes that encode a text. -/
def utf8 (s : List Char) : List UInt8 :=
  s.flatMap String.utf8EncodeChar

/-- The number of bytes before a character. -/
def byteOffset (s : List Char) (n : Nat) : Nat :=
  (utf8 (s.take n)).length

/-- The bytes of a text are decoded to the text. -/
theorem fromUTF8?_toUTF8 (text : String) : String.fromUTF8? text.toUTF8 = some text :=
  dif_pos text.isValidUTF8

@[simp]
theorem utf8_nil : utf8 [] = [] := rfl

@[simp]
theorem utf8_cons (c : Char) (s : List Char) :
    utf8 (c :: s) = String.utf8EncodeChar c ++ utf8 s :=
  List.flatMap_cons

@[simp]
theorem utf8_append (s t : List Char) : utf8 (s ++ t) = utf8 s ++ utf8 t :=
  List.flatMap_append

@[simp]
theorem byteOffset_zero (s : List Char) : byteOffset s 0 = 0 := rfl

/-- The first character is counted by its encoded width. -/
@[simp]
theorem byteOffset_cons_succ (c : Char) (s : List Char) (n : Nat) :
    byteOffset (c :: s) (n + 1) = c.utf8Size + byteOffset s n := by
  simp [byteOffset]

/-- Without the bytes before a place, those of the characters from there on are left. -/
theorem drop_byteOffset (s : List Char) (n : Nat) :
    (utf8 s).drop (byteOffset s n) = utf8 (s.drop n) := by
  conv => lhs; arg 2; rw [← List.take_append_drop n s, utf8_append]
  exact List.drop_left

/-- The bytes before a later place are those before an earlier one and those between. -/
theorem byteOffset_eq_add (s : List Char) {i j : Nat} (h : i ≤ j) :
    byteOffset s j = byteOffset s i + (utf8 ((s.drop i).take (j - i))).length := by
  have htake : s.take j = s.take i ++ (s.drop i).take (j - i) := by
    rw [← List.take_add, Nat.add_sub_cancel' h]
  rw [byteOffset, htake, utf8_append, List.length_append, byteOffset]

/-- No more bytes stand before a place than the text has. -/
theorem byteOffset_le_length {s : List Char} {i : Nat} (hi : i ≤ s.length) :
    byteOffset s i ≤ (utf8 s).length := by
  have hlength := byteOffset_eq_add s hi
  rw [byteOffset, List.take_length] at hlength
  omega

/-- A text whose bytes come first in those of another comes first in it. -/
theorem utf8_prefix_iff {w s : List Char} : utf8 w <+: utf8 s ↔ w <+: s := by
  constructor
  · rintro ⟨bytes, h⟩
    refine List.isPrefix_of_utf8Encode_append_eq_utf8Encode bytes.toByteArray ?_
    rw [List.utf8Encode, List.utf8Encode, ← List.toByteArray_append]
    exact congrArg List.toByteArray h
  · rintro ⟨t, rfl⟩
    exact ⟨utf8 t, (utf8_append w t).symm⟩

/-- The first byte of a character is not found inside another character. -/
private theorem eq_zero_of_utf8_cons_prefix {c d : Char} {w s : List Char} {k : Nat}
    (hk : k < d.utf8Size) (h : utf8 (c :: w) <+: (utf8 (d :: s)).drop k) : k = 0 := by
  have hd : k < (String.utf8EncodeChar d).length := by
    rwa [String.length_utf8EncodeChar]
  have hc : 0 < (String.utf8EncodeChar c).length := by
    rw [String.length_utf8EncodeChar]
    exact c.utf8Size_pos
  -- a first byte tells itself from all bytes inside characters
  have hbyte : (String.utf8EncodeChar c)[0] = (String.utf8EncodeChar d)[k] := by
    have hw : 0 < (utf8 (c :: w)).length := by
      rw [utf8_cons, List.length_append]
      exact Nat.lt_of_lt_of_le hc (Nat.le_add_right _ _)
    have hget := h.getElem hw
    simpa [List.getElem_append, c.utf8Size_pos, hk] using hget
  have hfirst : ((String.utf8EncodeChar c)[0]).IsUTF8FirstByte :=
    UInt8.isUTF8FirstByte_getElem_utf8EncodeChar.mpr rfl
  rw [hbyte] at hfirst
  exact UInt8.isUTF8FirstByte_getElem_utf8EncodeChar.mp hfirst

/-- Bytes that encode a text and stand in those of another start where a character does. -/
theorem exists_byteOffset_of_prefix {c : Char} {w s : List Char} {k : Nat}
    (h : utf8 (c :: w) <+: (utf8 s).drop k) : ∃ i ≤ s.length, k = byteOffset s i := by
  induction s generalizing k with
  | nil =>
    have hne := String.utf8EncodeChar_ne_nil (c := c)
    simp [hne] at h
  | cons d s ih =>
    -- the bytes start inside the first character or behind it
    rcases Nat.lt_or_ge k d.utf8Size with hk | hk
    · exact ⟨0, Nat.zero_le _, eq_zero_of_utf8_cons_prefix hk h⟩
    · obtain ⟨k, rfl⟩ := Nat.exists_eq_add_of_le hk
      rw [utf8_cons d, ← String.length_utf8EncodeChar d, List.drop_length_add_append] at h
      obtain ⟨i, hi, rfl⟩ := ih h
      exact ⟨i + 1, Nat.succ_le_succ hi, (byteOffset_cons_succ d s i).symm⟩

/-- The search of bytes finds the bytes before the place in characters. -/
theorem find?_utf8 (w s : List Char) :
    find? (utf8 w) (utf8 s) = (find? w s).map (byteOffset s) := by
  cases w with
  | nil =>
    have hempty : ∀ (α : Type) [BEq α] (t : List α), find? [] t = some 0 := by
      intro α _ t
      cases t <;> rfl
    rw [utf8_nil, hempty, hempty]
    rfl
  | cons c w =>
    -- a place in bytes is one in characters
    have hplace : ∀ k, utf8 (c :: w) <+: (utf8 s).drop k →
        ∃ i ≤ s.length, k = byteOffset s i ∧ c :: w <+: s.drop i := by
      intro k hk
      obtain ⟨i, hi, rfl⟩ := exists_byteOffset_of_prefix hk
      rw [drop_byteOffset, utf8_prefix_iff] at hk
      exact ⟨i, hi, rfl, hk⟩
    cases hfind : find? (c :: w) s with
    | none =>
      rw [Option.map_none, Option.eq_none_iff_forall_ne_some]
      intro k hk
      obtain ⟨i, -, -, hi⟩ := hplace k (find?_eq_some_iff.mp hk).2.1
      have hsome : (find? (c :: w) s).isSome = true :=
        isSome_find?_iff.mpr (hi.isInfix.trans (List.drop_suffix i s).isInfix)
      rw [hfind] at hsome
      cases hsome
    | some i =>
      obtain ⟨hi, hprefix, hfirst⟩ := find?_eq_some_iff.mp hfind
      rw [Option.map_some, find?_eq_some_iff, drop_byteOffset, utf8_prefix_iff]
      refine ⟨byteOffset_le_length hi, hprefix, ?_⟩
      intro k hk hbytes
      obtain ⟨j, -, rfl, hj⟩ := hplace k hbytes
      rcases Nat.lt_or_ge j i with hji | hij
      · exact hfirst j hji hj
      · rw [byteOffset_eq_add s hij] at hk
        omega

/-- An ASCII character is folded to an ASCII character. -/
private theorem toNat_toLower_lt {c : Char} (hc : c.toNat < 128) : c.toLower.toNat < 128 := by
  unfold Char.toLower
  split
  · next h =>
    have hz : c.val.toNat ≤ 90 := UInt32.le_iff_toNat_le.mp h.2
    show (c.val + 32).toNat < 128
    rw [UInt32.toNat_add]
    -- a capital letter is at most 90, and its lower-case form 32 further on
    have h32 : (32 : UInt32).toNat = 32 := rfl
    omega
  · exact hc

/-- Folding keeps the encoded width of a character. -/
theorem utf8Size_foldChar_eq (c : Char) : (foldChar c).utf8Size = c.utf8Size := by
  rcases Nat.lt_or_ge c.toNat 128 with hc | hc
  · have hwidth : ∀ d : Char, d.toNat < 128 → d.utf8Size = 1 := by
      intro d hd
      rw [Char.utf8Size_eq_one_iff, UInt32.le_iff_toNat_le]
      exact Nat.le_of_lt_succ hd
    rw [foldChar, if_pos hc, hwidth c hc]
    exact hwidth _ (toNat_toLower_lt hc)
  · exact utf8Size_foldChar hc

/-- The bytes before a place in a folded text are those before it in the text. -/
theorem byteOffset_fold (s : List Char) (n : Nat) : byteOffset (fold s) n = byteOffset s n := by
  induction s generalizing n with
  | nil => rfl
  | cons c s ih =>
    cases n with
    | zero => rfl
    | succ n => rw [fold_cons, byteOffset_cons_succ, byteOffset_cons_succ, utf8Size_foldChar_eq, ih]

end Curation.Text
