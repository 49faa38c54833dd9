import Curation.Text.Occurrence

/-!
# Places of occurrences

What the searches of a text find: the first place of an unbroken occurrence, and for a phrase a
place inside the text.

* `find?_eq_some_iff`: the place found is the first one.
* `isSome_find?_iff`: a place is found exactly in the texts that hold the needle unbroken.
* `findPhrase?_le`: a phrase ends inside the text.
* `IsSpaced`, `isSpaced_findPhrase?`: at the place of a phrase stand its words in order, with blanks
  between them.
-/

namespace Curation.Text

section

variable {α : Type} [BEq α] [LawfulBEq α] {needle s : List α}

/-- A place is found exactly if the needle stands somewhere unbroken. -/
theorem isSome_find?_iff : (find? needle s).isSome = true ↔ needle <:+: s := by
  induction s with
  | nil =>
    rw [find?]
    cases needle <;> simp
  | cons c s ih =>
    rw [find?, List.infix_cons_iff, ← List.isPrefixOf_iff_prefix]
    -- the needle stands at the front, or it is searched for further on
    split
    · next h => simp [h]
    · next h => simp [h, ih]

/-- The place found is the first one from which the needle stands unbroken. -/
theorem find?_eq_some_iff {i : Nat} :
    find? needle s = some i ↔
      i ≤ s.length ∧ needle <+: s.drop i ∧ ∀ j < i, ¬ needle <+: s.drop j := by
  induction s generalizing i with
  | nil =>
    rw [find?]
    cases needle <;> cases i <;> simp
  | cons c s ih =>
    rw [find?]
    by_cases h : needle <+: c :: s
    · rw [if_pos (List.isPrefixOf_iff_prefix.mpr h)]
      constructor
      · rintro ⟨⟩
        exact ⟨Nat.zero_le _, h, fun j hj => absurd hj (Nat.not_lt_zero j)⟩
      · rintro ⟨-, -, hfirst⟩
        rcases Nat.eq_zero_or_pos i with rfl | hi
        · rfl
        · exact absurd h (hfirst 0 hi)
    · rw [if_neg (mt List.isPrefixOf_iff_prefix.mp h)]
      cases i with
      | zero => simp [h]
      | succ i =>
        simp only [Option.map_eq_some_iff, Nat.add_right_cancel_iff, exists_eq_right, ih,
          List.length_cons, Nat.add_le_add_iff_right, List.drop_succ_cons]
        -- no needle stands at the front, so only the places in the rest count
        refine and_congr_right fun _ => and_congr_right fun _ => ⟨fun hfirst j hj => ?_, ?_⟩
        · cases j with
          | zero => exact h
          | succ j => exact hfirst j (Nat.lt_of_succ_lt_succ hj)
        · exact fun hfirst j hj => hfirst (j + 1) (Nat.succ_lt_succ hj)

end

/-- The words that follow stand within the text. -/
theorem followedBy?_le {words : List (List Char)} {s : List Char} {n : Nat}
    (h : followedBy? words s = some n) : n ≤ s.length := by
  induction words generalizing s n with
  | nil =>
    cases h
    exact Nat.zero_le _
  | cons w ws ih =>
    rw [followedBy?] at h
    split at h
    · cases h
    · next hword =>
      obtain ⟨m, hm, rfl⟩ := Option.map_eq_some_iff.mp h
      have hrest := ih hm
      -- the word stands behind the blanks that are trimmed, and the others behind it
      have hprefix : w <+: trimStart s := by
        simp only [Bool.or_eq_true, Bool.not_eq_true', not_or, Bool.not_eq_false] at hword
        exact List.isPrefixOf_iff_prefix.mp hword.2
      have hw := hprefix.length_le
      have htrim : (trimStart s).length ≤ s.length := (List.dropWhile_suffix _).length_le
      rw [List.length_drop] at hrest
      omega

/-- The words that are found stand within the text. -/
theorem findWords?_le {first : List Char} {rest : List (List Char)} {wait i n : Nat}
    {s : List Char} (h : findWords? first rest wait s = some (i, n)) : i + n ≤ s.length := by
  induction s generalizing wait i n with
  | nil => cases wait <;> cases h
  | cons c s ih =>
    -- a place found in the rest of the text is one further in the text
    have hfurther : ∀ wait', ((findWords? first rest wait' s).map fun p => (p.1 + 1, p.2)) =
        some (i, n) → i + n ≤ (c :: s).length := by
      intro wait' hfound
      obtain ⟨⟨j, m⟩, hjm, heq⟩ := Option.map_eq_some_iff.mp hfound
      cases heq
      have hle := ih hjm
      rw [List.length_cons]
      omega
    cases wait with
    | succ wait => exact hfurther wait h
    | zero =>
      rw [findWords?] at h
      split at h
      · next hfirst =>
        split at h
        · next m hm =>
          cases h
          have hrest := followedBy?_le hm
          have hprefix := (List.isPrefixOf_iff_prefix.mp hfirst).length_le
          rw [List.length_drop] at hrest
          omega
        · exact hfurther _ h
      · exact hfurther _ h

theorem findPhrase?_le {phrase s : List Char} {i n : Nat}
    (h : findPhrase? phrase s = some (i, n)) : i + n ≤ s.length := by
  rw [findPhrase?] at h
  split at h
  · cases h
    exact Nat.zero_le _
  · exact findWords?_le h

/-- A text consists of the words in order, each after one blank character or more. -/
def Follows : List (List Char) → List Char → Prop
  | [], s => s = []
  | w :: ws, s =>
    ∃ gap t, gap ≠ [] ∧ (∀ c ∈ gap, isBlank c = true) ∧ s = gap ++ w ++ t ∧ Follows ws t

/-- A text consists of the words in order, with one blank character or more between them. -/
def IsSpaced : List (List Char) → List Char → Prop
  | [], s => s = []
  | w :: ws, s => ∃ t, s = w ++ t ∧ Follows ws t

/-- Where words are found to follow, they do. -/
theorem follows_followedBy? {words : List (List Char)} {s : List Char} {n : Nat}
    (h : followedBy? words s = some n) : Follows words (s.take n) := by
  induction words generalizing s n with
  | nil =>
    cases h
    rfl
  | cons w ws ih =>
    rw [followedBy?] at h
    split at h
    · cases h
    · next hword =>
      obtain ⟨m, hm, rfl⟩ := Option.map_eq_some_iff.mp h
      simp only [Bool.or_eq_true, Bool.not_eq_true', not_or, Bool.not_eq_false,
        decide_eq_true_eq] at hword
      obtain ⟨t, ht⟩ := List.isPrefixOf_iff_prefix.mp hword.2
      -- the gap is made of the blanks at the front, which `trimStart` takes off
      have hsplit : s.takeWhile isBlank ++ trimStart s = s := List.takeWhile_append_dropWhile
      have hgap : s.length - (trimStart s).length = (s.takeWhile isBlank).length := by
        have hlength := congrArg List.length hsplit
        rw [List.length_append] at hlength
        omega
      rw [hgap] at hword ⊢
      have hrest : followedBy? ws t = some m := by
        rwa [← ht, List.drop_left] at hm
      refine ⟨s.takeWhile isBlank, t.take m, ?_, ?_, ?_, ih hrest⟩
      · intro hnil
        exact hword.1 (congrArg List.length hnil)
      · intro c hc
        exact List.all_eq_true.mp (List.all_takeWhile) c hc
      · have htext : s = s.takeWhile isBlank ++ w ++ t := by
          rw [List.append_assoc, ht, hsplit]
        rw [← List.length_append]
        conv => lhs; arg 2; rw [htext]
        exact List.take_length_add_append m

/-- Where words are found, they stand with blanks between them. -/
theorem isSpaced_findWords? {first : List Char} {rest : List (List Char)} {wait i n : Nat}
    {s : List Char} (h : findWords? first rest wait s = some (i, n)) :
    IsSpaced (first :: rest) ((s.drop i).take n) := by
  induction s generalizing wait i n with
  | nil => cases wait <;> cases h
  | cons c s ih =>
    -- what is found further on stands there in the longer text as well
    have hfurther : ∀ wait', ((findWords? first rest wait' s).map fun p => (p.1 + 1, p.2)) =
        some (i, n) → IsSpaced (first :: rest) (((c :: s).drop i).take n) := by
      intro wait' hfound
      obtain ⟨⟨j, m⟩, hjm, heq⟩ := Option.map_eq_some_iff.mp hfound
      cases heq
      exact ih hjm
    cases wait with
    | succ wait => exact hfurther wait h
    | zero =>
      rw [findWords?] at h
      split at h
      · next hfirst =>
        split at h
        · next m hm =>
          cases h
          obtain ⟨t, ht⟩ := List.isPrefixOf_iff_prefix.mp hfirst
          rw [← ht, List.drop_left] at hm
          refine ⟨t.take m, ?_, follows_followedBy? hm⟩
          rw [List.drop_zero, ← ht, List.take_length_add_append]
        · exact hfurther _ h
      · exact hfurther _ h

/-- At the place of a phrase stand its words. -/
theorem isSpaced_findPhrase? {phrase s : List Char} {i n : Nat}
    (h : findPhrase? phrase s = some (i, n)) :
    IsSpaced (phraseWords phrase) ((s.drop i).take n) := by
  rw [findPhrase?] at h
  split at h
  · next hnone =>
    cases h
    rw [hnone]
    rfl
  · next hwords =>
    rw [hwords]
    exact isSpaced_findWords? h

end Curation.Text
