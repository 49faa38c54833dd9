import Curation.Proofs.Text.ByteSearch

/-!
# Texts cut at places in bytes

A place in an encoded text is the number of bytes before it. The text can be cut there only if the
place is not behind its end and does not lie inside a character; cutting it elsewhere fails.

* `slice?`, `sliceFrom?`: the text between two places, and the text behind a place.
* `slice?_eq_some_iff`: what is cut out stands between the places.
* `isSome_slice?_iff`: a text can be cut out between two valid positions that are in order.
* `bytesTo?`: the place of the first character that satisfies a condition.
-/

namespace Curation.Text

/-- The text between two places; a failure if they are not in order, or if one of them lies behind
the end of the text or inside a character. -/
def slice? (s : List Char) (start stop : Nat) : Option (List Char) :=
  (splitBytes? stop s).bind fun parts => (splitBytes? start parts.1).map (·.2)

/-- The text between a place and the end. -/
def sliceFrom? (s : List Char) (start : Nat) : Option (List Char) :=
  slice? s start (utf8 s).length

/-- The number of bytes before the first character that satisfies `p`. -/
def bytesTo? (p : Char → Bool) : List Char → Option Nat
  | [] => none
  | c :: s => if p c then some 0 else (bytesTo? p s).map (c.utf8Size + ·)

section Length

variable {s t u : List Char}

/-- The first character takes as many bytes as its encoded width. -/
theorem length_utf8_cons (c : Char) (s : List Char) :
    (utf8 (c :: s)).length = c.utf8Size + (utf8 s).length := by
  rw [utf8_cons, List.length_append, String.length_utf8EncodeChar]

theorem length_utf8_append (s t : List Char) :
    (utf8 (s ++ t)).length = (utf8 s).length + (utf8 t).length := by
  rw [utf8_append, List.length_append]

/-- Only the empty text takes no bytes. -/
theorem length_utf8_eq_zero_iff : (utf8 s).length = 0 ↔ s = [] := by
  cases s with
  | nil => simp
  | cons c s =>
    have hpos := c.utf8Size_pos
    simp only [length_utf8_cons, reduceCtorEq, iff_false]
    omega

/-- The bytes of the characters of a string are as many as those of the string. -/
theorem length_utf8_toList (text : String) : (utf8 text.toList).length = text.utf8ByteSize := by
  have hencode : text.toByteArray = (utf8 text.toList).toByteArray := by
    rw [← String.ofList_toList (s := text), String.toByteArray_ofList, String.toList_ofList]
    rfl
  rw [← String.size_toByteArray, hencode, List.size_toByteArray]

/-- Of two texts at the front of a third, the one with no more bytes comes first in the other. -/
theorem prefix_of_length_utf8_le (hs : s <+: u) (ht : t <+: u)
    (hle : (utf8 s).length ≤ (utf8 t).length) : s <+: t := by
  rcases List.prefix_or_prefix_of_prefix hs ht with h | ⟨rest, rfl⟩
  · exact h
  · -- the longer of the two has no bytes more, so it has no characters more
    rw [length_utf8_append] at hle
    have hrest : rest = [] := length_utf8_eq_zero_iff.mp (by omega)
    exact ⟨[], by rw [List.append_nil, hrest, List.append_nil]⟩

/-- A text that ends behind the place of a character ends behind the character. -/
theorem append_singleton_prefix {c : Char} (hs : s ++ [c] <+: u) (ht : t <+: u)
    (hlt : (utf8 s).length < (utf8 t).length) : s ++ [c] <+: t := by
  rcases List.prefix_or_prefix_of_prefix hs ht with h | h
  · exact h
  · rcases List.prefix_concat_iff.mp h with rfl | ⟨rest, rfl⟩
    · exact List.prefix_rfl
    · rw [length_utf8_append] at hlt
      omega

/-- More text takes more bytes. -/
theorem length_utf8_lt_append (s : List Char) (ht : t ≠ []) :
    (utf8 s).length < (utf8 (s ++ t)).length := by
  have hpos := Nat.pos_of_ne_zero (mt length_utf8_eq_zero_iff.mp ht)
  rw [length_utf8_append]
  omega

end Length

/-! ## Cutting -/

section Cutting

variable {s t : List Char} {n start stop : Nat}

/-- A text can be split behind the bytes of a front of it. -/
theorem splitBytes?_append (before behind : List Char) :
    splitBytes? (utf8 before).length (before ++ behind) = some (before, behind) := by
  have hsplit := @splitBytes?_byteOffset (before ++ behind) before.length (by simp)
  have hbytes := byteOffset_of_prefix (List.prefix_append before behind)
  rwa [hbytes, List.take_left, List.drop_left] at hsplit

/-- A text is parted at the places that lie between its characters. -/
theorem splitBytes?_eq_some_iff {before behind : List Char} :
    splitBytes? n s = some (before, behind) ↔
      s = before ++ behind ∧ n = (utf8 before).length := by
  constructor
  · intro h
    fun_induction splitBytes? n s generalizing before behind with
    | case1 s =>
      cases h
      exact ⟨rfl, rfl⟩
    | case2 n => cases h
    -- the first character fits, and the split goes on behind it
    | case3 n c s hsize ih =>
      obtain ⟨⟨front, rest⟩, hfront, heq⟩ := Option.map_eq_some_iff.mp h
      cases heq
      obtain ⟨rfl, hbytes⟩ := ih hfront
      refine ⟨rfl, ?_⟩
      rw [length_utf8_cons, ← hbytes]
      omega
    | case4 n c s hsize => cases h
  · rintro ⟨rfl, rfl⟩
    exact splitBytes?_append before behind

/-- What is cut out between two places stands there. -/
theorem slice?_eq_some_iff :
    slice? s start stop = some t ↔ ∃ before after, s = before ++ t ++ after ∧
      start = (utf8 before).length ∧ stop = (utf8 (before ++ t)).length := by
  constructor
  · intro h
    -- the text is parted at the second place, and what stands before it at the first one
    obtain ⟨⟨front, after⟩, hfront, h⟩ := Option.bind_eq_some_iff.mp h
    obtain ⟨⟨before, middle⟩, hbefore, rfl⟩ := Option.map_eq_some_iff.mp h
    obtain ⟨rfl, rfl⟩ := splitBytes?_eq_some_iff.mp hfront
    obtain ⟨rfl, rfl⟩ := splitBytes?_eq_some_iff.mp hbefore
    exact ⟨before, after, rfl, rfl, rfl⟩
  · rintro ⟨before, after, rfl, rfl, rfl⟩
    simp only [slice?, splitBytes?_append, Option.bind_some, Option.map_some]

/-- What stands between two texts can be sliced out by their places. -/
theorem slice?_append (before t after : List Char) :
    slice? (before ++ t ++ after) (utf8 before).length (utf8 (before ++ t)).length = some t :=
  slice?_eq_some_iff.mpr ⟨before, after, rfl, rfl, rfl⟩

/-- What stands behind a front of a text can be sliced off. -/
theorem sliceFrom?_append (before t : List Char) :
    sliceFrom? (before ++ t) (utf8 before).length = some t :=
  slice?_eq_some_iff.mpr ⟨before, [], (List.append_nil _).symm, rfl, rfl⟩

/-- The valid positions of a text are the places between its characters. -/
theorem isValid_iff (text : String) (place : Nat) :
    String.Pos.Raw.IsValid text ⟨place⟩ ↔
      ∃ before behind, text.toList = before ++ behind ∧ place = (utf8 before).length := by
  -- a position is valid if it stands behind a string in front of the text
  rw [String.Pos.Raw.isValid_iff_exists_append]
  constructor
  · rintro ⟨before, behind, rfl, hplace⟩
    refine ⟨before.toList, behind.toList, String.toList_append, ?_⟩
    rw [length_utf8_toList]
    exact congrArg String.Pos.Raw.byteIdx hplace
  · rintro ⟨before, behind, htext, rfl⟩
    refine ⟨String.ofList before, String.ofList behind, ?_, ?_⟩
    · rw [← String.ofList_append, ← htext, String.ofList_toList]
    · have hbytes := length_utf8_toList (String.ofList before)
      rw [String.toList_ofList] at hbytes
      rw [hbytes]
      rfl

/-- A text can be cut out between two valid positions in order, and nowhere else. -/
theorem isSome_slice?_iff (text : String) :
    (slice? text.toList start stop).isSome ↔ String.Pos.Raw.IsValid text ⟨start⟩ ∧
      String.Pos.Raw.IsValid text ⟨stop⟩ ∧ start ≤ stop := by
  rw [Option.isSome_iff_exists, isValid_iff, isValid_iff]
  constructor
  · rintro ⟨t, ht⟩
    obtain ⟨before, after, htext, rfl, rfl⟩ := slice?_eq_some_iff.mp ht
    refine ⟨⟨before, t ++ after, ?_, rfl⟩, ⟨before ++ t, after, htext, rfl⟩, ?_⟩
    · rw [htext, List.append_assoc]
    · rw [length_utf8_append]
      omega
  · -- of the texts before the two places, the one with fewer bytes is at the front of the other
    rintro ⟨⟨before, behind, hbefore, rfl⟩, ⟨front, after, hfront, rfl⟩, hle⟩
    obtain ⟨t, rfl⟩ := prefix_of_length_utf8_le ⟨behind, hbefore.symm⟩ ⟨after, hfront.symm⟩ hle
    exact ⟨t, slice?_eq_some_iff.mpr ⟨before, after, hfront, rfl, rfl⟩⟩

end Cutting

/-- A character that satisfies `p` stands behind those that do not. -/
theorem bytesTo?_eq (p : Char → Bool) (s : List Char) :
    bytesTo? p s =
      if (s.takeWhile (!p ·)).length < s.length then some (utf8 (s.takeWhile (!p ·))).length
      else none := by
  induction s with
  | nil => rfl
  | cons c s ih =>
    by_cases hc : p c = true
    · simp [bytesTo?, hc]
    · rw [bytesTo?, if_neg hc, ih, List.takeWhile_cons_of_pos (by simpa using hc)]
      simp only [List.length_cons, Nat.add_lt_add_iff_right, apply_ite (Option.map _),
        Option.map_some, Option.map_none, length_utf8_cons]

end Curation.Text
