import Curation.Proofs.Text.ByteSearch
import Curation.Proofs.Text.Spacing

/-!
# Occurrences of phrases

A phrase occurs where its words stand in order, with one blank character or more between them. Its
search tries the places of the first word one after another, each the first one behind the last.
So places that overlap a place tried before are never tried, and an occurrence that starts at such
a place is passed over, although it may be the only one.

* `IsTried`, `IsPassedOver`: the places of the first word that are tried, and those that are not.
* `OccursBetween`: the bytes between which a phrase occurs.
* `not_isPassedOver`: no place of a word that does not overlap itself is passed over.
* `findPhraseBytes?_intercalate`: the occurrence found is the first one that is not passed over.
* `findPhraseBytes?_of_not_overlapping`: it is the first one of all, if the first word of the phrase
  does not overlap itself.
* `findPhraseBytes?_haha`: the only occurrence of a phrase may be passed over.
-/

namespace Curation.Text

section Tried

variable {α : Type} [BEq α] {w s : List α} {i j k : Nat}

/-- The places of `w` that are found from the left, each one the first behind the last. -/
inductive IsTried (w : List α) : List α → Nat → Prop
  | first {s : List α} {i : Nat} : find? w s = some i → IsTried w s i
  | next {s : List α} {i j : Nat} : find? w s = some i →
      IsTried w (s.drop (i + w.length)) j → IsTried w s (i + w.length + j)

/-- A place of `w` that overlaps one that is tried before. -/
def IsPassedOver (w s : List α) (i : Nat) : Prop :=
  ∃ place, IsTried w s place ∧ place < i ∧ i < place + w.length

/-- A place that is tried is the one found first, or it is tried in the rest behind that one. -/
theorem IsTried.eq_or_exists (h : IsTried w s j) (hfind : find? w s = some i) :
    j = i ∨ ∃ k, IsTried w (s.drop (i + w.length)) k ∧ j = i + w.length + k := by
  cases h with
  | first hfirst =>
    rw [hfind, Option.some_inj] at hfirst
    exact Or.inl hfirst.symm
  | next hfirst hrest =>
    rw [hfind, Option.some_inj] at hfirst
    subst hfirst
    exact Or.inr ⟨_, hrest, rfl⟩

/-- Two places that are tried do not overlap. -/
theorem IsTried.add_length_le (hi : IsTried w s i) (hj : IsTried w s j) (hij : i < j) :
    i + w.length ≤ j := by
  induction hi generalizing j with
  | first hfind =>
    rcases hj.eq_or_exists hfind with rfl | ⟨k, -, rfl⟩ <;> omega
  | next hfind hrest ih =>
    rcases hj.eq_or_exists hfind with rfl | ⟨k, hk, rfl⟩
    · omega
    · have hle := ih hk (by omega)
      omega

variable [LawfulBEq α]

/-- At each place that is tried, the word stands. -/
theorem IsTried.stands (h : IsTried w s i) : w <+: s.drop i := by
  induction h with
  | first hfind => exact (find?_eq_some_iff.mp hfind).2.1
  | next hfind hrest ih => rwa [List.drop_drop] at ih

/-- A place of `w` is tried, unless it overlaps one that is tried before. -/
theorem isTried_or_isPassedOver (hw : w ≠ []) (h : w <+: s.drop i) :
    IsTried w s i ∨ IsPassedOver w s i := by
  have hpos := List.length_pos_iff.mpr hw
  induction hlength : s.length using Nat.strongRecOn generalizing s i with
  | ind length ih =>
    subst hlength
    -- `w` stands at `i`, so it is found there or before
    have hsome : (find? w s).isSome = true :=
      isSome_find?_iff.mpr (h.isInfix.trans (List.drop_suffix i s).isInfix)
    obtain ⟨place, hplace⟩ := Option.isSome_iff_exists.mp hsome
    obtain ⟨-, hprefix, hfirst⟩ := find?_eq_some_iff.mp hplace
    have hle : place ≤ i := Nat.le_of_not_lt fun hlt => hfirst i hlt h
    rcases Nat.lt_or_ge i (place + w.length) with hlt | hge
    · rcases Nat.eq_or_lt_of_le hle with rfl | hbefore
      · exact Or.inl (.first hplace)
      · exact Or.inr ⟨place, .first hplace, hbefore, hlt⟩
    · obtain ⟨k, rfl⟩ := Nat.exists_eq_add_of_le hge
      have hshorter : (s.drop (place + w.length)).length < s.length := by
        have hwle := hprefix.length_le
        rw [List.length_drop] at hwle ⊢
        omega
      rw [← List.drop_drop] at h
      -- behind the place found, the search goes on in the rest of the text
      rcases ih _ hshorter h rfl with htried | ⟨other, hother, hbefore, hover⟩
      · exact Or.inl (.next hplace htried)
      · exact Or.inr ⟨_, .next hplace hother, by omega, by omega⟩

/-- A place of `w` is not tried exactly if it overlaps one that is tried before. -/
theorem isPassedOver_iff (hw : w ≠ []) (h : w <+: s.drop i) :
    IsPassedOver w s i ↔ ¬ IsTried w s i := by
  constructor
  · rintro ⟨place, hplace, hbefore, hover⟩ htried
    have hle := hplace.add_length_le htried hbefore
    omega
  · exact (isTried_or_isPassedOver hw h).resolve_left

/-- A word that does not overlap itself is passed over nowhere. -/
theorem not_isPassedOver (hself : ∀ n, 0 < n → n < w.length → ¬ w.drop n <+: w)
    (h : w <+: s.drop i) : ¬ IsPassedOver w s i := by
  rintro ⟨place, hplace, hbefore, hover⟩
  obtain ⟨n, rfl⟩ := Nat.exists_eq_add_of_le (Nat.le_of_lt hbefore)
  -- the end of the word that stands at the place before is the start of the one that stands here
  have hend : w.drop n <+: s.drop (place + n) := by
    obtain ⟨t, ht⟩ := hplace.stands
    rw [← List.drop_drop, ← ht, List.drop_append_of_le_length (by omega)]
    exact List.prefix_append _ _
  have hle : (w.drop n).length ≤ w.length := by
    rw [List.length_drop]
    exact Nat.sub_le ..
  exact hself n (by omega) (by omega) (List.prefix_of_prefix_length_le hend h hle)

end Tried

/-- The search of bytes tries the places that the search of characters does. -/
theorem isTried_utf8_iff {w s : List Char} {start : Nat} :
    IsTried (utf8 w) (utf8 s) start ↔ ∃ i, start = byteOffset s i ∧ IsTried w s i := by
  -- behind a place in characters the rest of the bytes is that of the rest of the characters
  have hrest : ∀ {s : List Char} {i : Nat}, find? w s = some i →
      (utf8 s).drop (byteOffset s i + (utf8 w).length) = utf8 (s.drop (i + w.length)) ∧
        byteOffset s i + (utf8 w).length = byteOffset s (i + w.length) := by
    intro s i hfind
    have hstands := (find?_eq_some_iff.mp hfind).2.1
    have hstop : byteOffset s i + (utf8 w).length = byteOffset s (i + w.length) := by
      rw [byteOffset_add, byteOffset_of_prefix hstands]
    exact ⟨by rw [hstop, drop_byteOffset], hstop⟩
  constructor
  · intro h
    generalize hbytes : utf8 s = bytes at h
    induction h generalizing s with
    | first hfind =>
      subst hbytes
      rw [find?_utf8, Option.map_eq_some_iff] at hfind
      obtain ⟨i, hi, rfl⟩ := hfind
      exact ⟨i, rfl, .first hi⟩
    | next hfind _ ih =>
      subst hbytes
      rw [find?_utf8, Option.map_eq_some_iff] at hfind
      obtain ⟨i, hi, rfl⟩ := hfind
      obtain ⟨j, rfl, hj⟩ := ih (hrest hi).1.symm
      exact ⟨_, by rw [(hrest hi).2, ← byteOffset_add], .next hi hj⟩
  · rintro ⟨i, rfl, h⟩
    induction h with
    | first hfind => exact .first (by rw [find?_utf8, hfind, Option.map_some])
    | @next s i j hfind _ ih =>
      have hplace : find? (utf8 w) (utf8 s) = some (byteOffset s i) := by
        rw [find?_utf8, hfind, Option.map_some]
      rw [← (hrest hfind).1] at ih
      rw [byteOffset_add, ← (hrest hfind).2]
      exact .next hplace ih

section Words

variable {first : List Char} {rest words : List (List Char)} {s : List Char} {i n : Nat}

/-- The words of a phrase are not empty and hold no blank characters. -/
def AreWords (words : List (List Char)) : Prop :=
  ∀ w ∈ words, w ≠ [] ∧ ∀ c ∈ w, isBlank c = false

/-- The words that follow are found, with what stands behind them. -/
theorem followedBy?_append {t : List Char} (hwords : AreWords words) (h : Follows words t)
    (after : List Char) : followedBy? words (t ++ after) = some t.length := by
  induction words generalizing t with
  | nil =>
    obtain rfl : t = [] := h
    rfl
  | cons w ws ih =>
    obtain ⟨gap, t, hgap, hblank, rfl, hrest⟩ := h
    obtain ⟨hw, hnot⟩ := hwords w List.mem_cons_self
    obtain ⟨c, w, rfl⟩ := List.exists_cons_of_ne_nil hw
    -- the word starts with a character that is not blank, so trimming takes off the gap alone
    have htrim : trimStart (gap ++ (c :: w) ++ t ++ after) = c :: w ++ (t ++ after) := by
      rw [trimStart, List.append_assoc, List.append_assoc, List.dropWhile_append_of_pos hblank]
      exact List.dropWhile_cons_of_neg (by simp [hnot c List.mem_cons_self])
    have hlength : (gap ++ (c :: w) ++ t ++ after).length -
        (c :: w ++ (t ++ after)).length = gap.length := by
      simp only [List.length_append]
      omega
    have hstands : (c :: w).isPrefixOf (c :: w ++ (t ++ after)) = true :=
      List.isPrefixOf_iff_prefix.mpr (List.prefix_append _ _)
    have hpos := List.length_pos_iff.mpr hgap
    rw [followedBy?, htrim, hlength, hstands, if_neg (by simp; omega), List.drop_left,
      ih (fun w hw => hwords w (List.mem_cons_of_mem _ hw)) hrest]
    simp only [Option.map_some, List.length_append]

/-- The words of a phrase stand at a place, over a number of characters. -/
def StandAt (words : List (List Char)) (s : List Char) (i n : Nat) : Prop :=
  i + n ≤ s.length ∧ IsSpaced words ((s.drop i).take n)

/-- The words of a phrase stand where the first one stands and the others follow it. -/
theorem standAt_cons_iff (hwords : AreWords (first :: rest)) :
    StandAt (first :: rest) s i n ↔
      first <+: s.drop i ∧
        ∃ m, followedBy? rest (s.drop (i + first.length)) = some m ∧ n = first.length + m := by
  have hrest : AreWords rest := fun w hw => hwords w (List.mem_cons_of_mem _ hw)
  have hne : first ≠ [] := (hwords first List.mem_cons_self).1
  rw [StandAt, ← List.drop_drop]
  constructor
  · rintro ⟨hle, t, ht, hfollows⟩
    -- the words stand in front of what is left of the text
    have hsplit : s.drop i = first ++ (t ++ (s.drop i).drop n) := by
      rw [← List.append_assoc, ← ht, List.take_append_drop]
    refine ⟨⟨_, hsplit.symm⟩, t.length, ?_, ?_⟩
    · conv => lhs; arg 2; rw [hsplit]
      rw [List.drop_left]
      exact followedBy?_append hrest hfollows _
    · have hlength := congrArg List.length ht
      rw [List.length_take_of_le (by rw [List.length_drop]; omega), List.length_append] at hlength
      exact hlength
  · rintro ⟨⟨t, ht⟩, m, hm, rfl⟩
    have hlength := congrArg List.length ht
    have hpos := List.length_pos_iff.mpr hne
    rw [List.length_append, List.length_drop] at hlength
    rw [← ht, List.drop_left] at hm
    have hle := followedBy?_le hm
    refine ⟨by omega, t.take m, ?_, follows_followedBy? hm⟩
    rw [← ht, List.take_length_add_append]

/-- What the search for the words answers: the first place tried that the other words follow. -/
theorem findWords?_spec (hne : first ≠ []) (rest : List (List Char)) (s : List Char) :
    match findWords? first rest 0 s with
    | some (i, n) =>
      IsTried first s i ∧
        (∃ m, followedBy? rest (s.drop (i + first.length)) = some m ∧ n = first.length + m) ∧
        ∀ j < i, IsTried first s j → followedBy? rest (s.drop (j + first.length)) = none
    | none => ∀ j, IsTried first s j → followedBy? rest (s.drop (j + first.length)) = none := by
  induction hlength : s.length using Nat.strongRecOn generalizing s with
  | ind length ih =>
    subst hlength
    have hpos := List.length_pos_iff.mpr hne
    rw [findWords?_eq_find? hne]
    cases hfind : find? first s with
    | none =>
      intro j hj
      cases hj with
      | first hplace | next hplace _ =>
        rw [hfind] at hplace
        cases hplace
    | some place =>
      have hshorter : (s.drop (place + first.length)).length < s.length := by
        have hle := (find?_eq_some_iff.mp hfind).2.1.length_le
        rw [List.length_drop] at hle ⊢
        omega
      rw [Option.bind_some]
      cases hfollow : followedBy? rest (s.drop (place + first.length)) with
      | some m =>
        refine ⟨.first hfind, ⟨m, hfollow, rfl⟩, fun j hlt hj => ?_⟩
        rcases hj.eq_or_exists hfind with rfl | ⟨k, -, rfl⟩ <;> omega
      | none =>
        -- the search goes on in the rest, whose places are counted from its own start
        have hrest := ih _ hshorter (s.drop (place + first.length)) rfl
        cases hfound : findWords? first rest 0 (s.drop (place + first.length)) with
        | none =>
          rw [hfound] at hrest
          intro j hj
          rcases hj.eq_or_exists hfind with rfl | ⟨k, hk, rfl⟩
          · exact hfollow
          · have hnone := hrest k hk
            rwa [List.drop_drop, ← Nat.add_assoc] at hnone
        | some found =>
          obtain ⟨i, n⟩ := found
          rw [hfound] at hrest
          obtain ⟨htried, ⟨m, hm, hn⟩, hbefore⟩ := hrest
          rw [List.drop_drop, ← Nat.add_assoc] at hm
          refine ⟨.next hfind htried, ⟨m, hm, hn⟩, fun j hlt hj => ?_⟩
          rcases hj.eq_or_exists hfind with rfl | ⟨k, hk, rfl⟩
          · exact hfollow
          · have hnone := hbefore k (by omega) hk
            rwa [List.drop_drop, ← Nat.add_assoc] at hnone

/-- The search for the words finds the first place of them that is tried. -/
theorem findWords?_eq_some_iff (hwords : AreWords (first :: rest)) :
    findWords? first rest 0 s = some (i, n) ↔
      StandAt (first :: rest) s i n ∧ IsTried first s i ∧
        ∀ j < i, IsTried first s j → ∀ m, ¬ StandAt (first :: rest) s j m := by
  have hspec := findWords?_spec (hwords first List.mem_cons_self).1 rest s
  simp only [standAt_cons_iff hwords]
  constructor
  · intro h
    rw [h] at hspec
    obtain ⟨htried, hfollow, hbefore⟩ := hspec
    refine ⟨⟨htried.stands, hfollow⟩, htried, fun j hlt hj m hm => ?_⟩
    obtain ⟨-, k, hk, -⟩ := hm
    rw [hbefore j hlt hj] at hk
    cases hk
  · rintro ⟨⟨hstands, m, hm, rfl⟩, htried, hbefore⟩
    cases hfound : findWords? first rest 0 s with
    | none =>
      rw [hfound] at hspec
      rw [hspec i htried] at hm
      cases hm
    | some found =>
      obtain ⟨j, n⟩ := found
      rw [hfound] at hspec
      obtain ⟨htried', hfollow, hbefore'⟩ := hspec
      -- each of the two places is not after the other one
      rcases Nat.lt_trichotomy i j with hlt | rfl | hlt
      · rw [hbefore' i hlt htried] at hm
        cases hm
      · obtain ⟨k, hk, rfl⟩ := hfollow
        rw [hm, Option.some_inj] at hk
        rw [hk]
      · exact absurd ⟨htried'.stands, hfollow⟩ (hbefore j hlt htried' n)

/-- The search for the words finds nothing exactly if no place of them is tried. -/
theorem findWords?_eq_none_iff (hwords : AreWords (first :: rest)) :
    findWords? first rest 0 s = none ↔
      ∀ i, IsTried first s i → ∀ n, ¬ StandAt (first :: rest) s i n := by
  have hspec := findWords?_spec (hwords first List.mem_cons_self).1 rest s
  simp only [standAt_cons_iff hwords]
  constructor
  · intro h i htried n hn
    rw [h] at hspec
    obtain ⟨-, m, hm, -⟩ := hn
    rw [hspec i htried] at hm
    cases hm
  · intro h
    -- a place that is found would be one that is tried, with the words there
    cases hfound : findWords? first rest 0 s with
    | none => rfl
    | some found =>
      obtain ⟨i, n⟩ := found
      rw [hfound] at hspec
      exact absurd ⟨hspec.1.stands, hspec.2.1⟩ (h i hspec.1 n)

/-- A phrase of words is made of these words. -/
theorem phraseWords_intercalate (hwords : AreWords words) :
    phraseWords ([' '].intercalate words) = words := by
  cases words with
  | nil => rfl
  | cons first rest =>
    -- words hold no blank, and so no space, that could part them
    have hspace : ∀ w ∈ first :: rest, ∀ c ∈ w, (c == ' ') = false := by
      intro w hw c hc
      rw [beq_eq_false_iff_ne]
      rintro rfl
      exact absurd ((hwords w hw).2 ' ' hc) (by decide)
    rw [phraseWords, pieces_intercalate rfl hspace (List.cons_ne_nil first rest),
      List.filter_eq_self]
    intro w hw
    simpa using (hwords w hw).1

/-- The bytes between which the words of a phrase stand in a text. -/
def OccursBetween (words : List (List Char)) (s : List Char) (start stop : Nat) : Prop :=
  ∃ before found after, s = before ++ found ++ after ∧ IsSpaced words found ∧
    start = (utf8 before).length ∧ stop = start + (utf8 found).length

/-- A phrase occurs between the bytes of the places at which its words stand. -/
theorem occursBetween_iff {start stop : Nat} :
    OccursBetween words s start stop ↔
      ∃ i n, StandAt words s i n ∧ start = byteOffset s i ∧ stop = byteOffset s (i + n) := by
  constructor
  · rintro ⟨before, found, after, rfl, hspaced, rfl, rfl⟩
    -- what stands between the bytes is as long as its characters
    refine ⟨before.length, found.length, ⟨?_, ?_⟩, ?_, ?_⟩
    · simp
    · rwa [List.append_assoc, List.drop_left, List.take_left]
    · rw [byteOffset, List.append_assoc, List.take_left]
    · have hstop : before.length + found.length = (before ++ found).length :=
        List.length_append.symm
      rw [byteOffset, hstop, List.take_left, utf8_append, List.length_append]
  · rintro ⟨i, n, ⟨hle, hspaced⟩, rfl, rfl⟩
    refine ⟨s.take i, (s.drop i).take n, (s.drop i).drop n, ?_, hspaced, rfl, ?_⟩
    · rw [List.append_assoc, List.take_append_drop, List.take_append_drop]
    · rw [byteOffset_eq_add s (Nat.le_add_right i n), Nat.add_sub_cancel_left]

/-- The bytes before a place are fewer than those before a later one. -/
theorem byteOffset_lt_iff {j : Nat} (hi : i ≤ s.length) (hj : j ≤ s.length) :
    byteOffset s i < byteOffset s j ↔ i < j := by
  have hmono : ∀ {i j}, i ≤ j → byteOffset s i ≤ byteOffset s j := by
    intro i j hij
    rw [byteOffset_eq_add s hij]
    exact Nat.le_add_right _ _
  refine ⟨fun h => Nat.lt_of_not_le fun hji => Nat.not_le_of_lt h (hmono hji), fun hij => ?_⟩
  have hrest : j - i ≤ (s.drop i).length := by
    rw [List.length_drop]
    omega
  -- the characters between the two places take a byte at least
  have hpos : byteOffset (s.drop i) (j - i) ≠ 0 :=
    mt (byteOffset_eq_zero_iff hrest).mp (by omega)
  have hadd := byteOffset_add s i (j - i)
  rw [Nat.add_sub_cancel' (Nat.le_of_lt hij)] at hadd
  omega

/-- Where the first word stands, it is passed over by bytes if it is not tried by characters. -/
theorem isPassedOver_utf8_iff (hne : first ≠ []) (h : first <+: s.drop i) :
    IsPassedOver (utf8 first) (utf8 s) (byteOffset s i) ↔ ¬ IsTried first s i := by
  have hle : ∀ {j}, first <+: s.drop j → j ≤ s.length := by
    intro j hj
    have hlength := hj.length_le
    have hpos := List.length_pos_iff.mpr hne
    rw [List.length_drop] at hlength
    omega
  have hbytes : utf8 first ≠ [] := by
    obtain ⟨c, w, rfl⟩ := List.exists_cons_of_ne_nil hne
    simp [String.utf8EncodeChar_ne_nil]
  have hstands : utf8 first <+: (utf8 s).drop (byteOffset s i) := by
    rwa [drop_byteOffset, utf8_prefix_iff]
  rw [isPassedOver_iff hbytes hstands, isTried_utf8_iff]
  refine not_congr ⟨?_, ?_⟩
  -- different characters have different bytes before them
  · rintro ⟨j, hij, hj⟩
    have hlt := byteOffset_lt_iff (hle h) (hle hj.stands)
    have hgt := byteOffset_lt_iff (hle hj.stands) (hle h)
    obtain rfl : i = j := by omega
    exact hj
  · exact fun htried => ⟨i, rfl, htried⟩

/-- Where a phrase stands, the search of bytes passes over its place if it is not tried. -/
theorem StandAt.isPassedOver_iff (hwords : AreWords (first :: rest))
    (h : StandAt (first :: rest) s i n) :
    IsPassedOver (utf8 first) (utf8 s) (byteOffset s i) ↔ ¬ IsTried first s i :=
  isPassedOver_utf8_iff (hwords first List.mem_cons_self).1 ((standAt_cons_iff hwords).mp h).1

/-- Places where a phrase stands are in the order of the bytes before them. -/
theorem StandAt.byteOffset_lt_iff {j m : Nat} (hi : StandAt words s i n)
    (hj : StandAt words s j m) : byteOffset s i < byteOffset s j ↔ i < j :=
  Text.byteOffset_lt_iff (Nat.le_trans (Nat.le_add_right _ _) hi.1)
    (Nat.le_trans (Nat.le_add_right _ _) hj.1)

/-- The search for a phrase looks for its words, and tells the bytes between which they stand. -/
theorem findPhraseBytes?_eq_findWords? (hwords : AreWords (first :: rest)) (s : List Char) :
    findPhraseBytes? ([' '].intercalate (first :: rest)) s =
      some ((findWords? first rest 0 s).map fun place =>
        (byteOffset s place.1, byteOffset s (place.1 + place.2))) := by
  rw [findPhraseBytes?_eq, findPhrase?, phraseWords_intercalate hwords]

/-- A phrase is found where it occurs first of all places that are not passed over. -/
theorem findPhraseBytes?_eq_some_iff (hwords : AreWords (first :: rest)) {start stop : Nat} :
    findPhraseBytes? ([' '].intercalate (first :: rest)) s = some (some (start, stop)) ↔
      OccursBetween (first :: rest) s start stop ∧
        ¬ IsPassedOver (utf8 first) (utf8 s) start ∧
        ∀ earlier < start, ∀ stop, OccursBetween (first :: rest) s earlier stop →
          IsPassedOver (utf8 first) (utf8 s) earlier := by
  rw [findPhraseBytes?_eq_findWords? hwords, Option.some_inj, Option.map_eq_some_iff]
  constructor
  · rintro ⟨⟨i, n⟩, hfind, heq⟩
    cases heq
    -- the place found is tried, and at those tried before the phrase does not stand
    obtain ⟨hstand, htried, hbefore⟩ := (findWords?_eq_some_iff hwords).mp hfind
    refine ⟨occursBetween_iff.mpr ⟨i, n, hstand, rfl, rfl⟩,
      fun hpass => (hstand.isPassedOver_iff hwords).mp hpass htried,
      fun earlier hlt stop hearlier => ?_⟩
    obtain ⟨j, m, hjm, rfl, rfl⟩ := occursBetween_iff.mp hearlier
    have hji := (hjm.byteOffset_lt_iff hstand).mp hlt
    exact (hjm.isPassedOver_iff hwords).mpr fun hj => hbefore j hji hj m hjm
  · rintro ⟨hoccurs, hnot, hbefore⟩
    obtain ⟨i, n, hstand, rfl, rfl⟩ := occursBetween_iff.mp hoccurs
    -- a place that is not passed over is tried, and all earlier ones are not
    have htried : IsTried first s i :=
      Classical.not_not.mp (mt (hstand.isPassedOver_iff hwords).mpr hnot)
    refine ⟨(i, n), (findWords?_eq_some_iff hwords).mpr ⟨hstand, htried, ?_⟩, rfl⟩
    intro j hji hj m hjm
    have hlt := (hjm.byteOffset_lt_iff hstand).mpr hji
    have hpass := hbefore _ hlt _ (occursBetween_iff.mpr ⟨j, m, hjm, rfl, rfl⟩)
    exact (hjm.isPassedOver_iff hwords).mp hpass hj

/-- A phrase is not found exactly if all places where it occurs are passed over. -/
theorem findPhraseBytes?_eq_none_iff (hwords : AreWords (first :: rest)) :
    findPhraseBytes? ([' '].intercalate (first :: rest)) s = some none ↔
      ∀ start stop, OccursBetween (first :: rest) s start stop →
        IsPassedOver (utf8 first) (utf8 s) start := by
  rw [findPhraseBytes?_eq_findWords? hwords, Option.some_inj, Option.map_eq_none_iff,
    findWords?_eq_none_iff hwords]
  constructor
  · intro hnone start stop hoccurs
    obtain ⟨i, n, hstand, rfl, rfl⟩ := occursBetween_iff.mp hoccurs
    exact (hstand.isPassedOver_iff hwords).mpr fun htried => hnone i htried n hstand
  · intro hall i htried n hstand
    have hpass := hall _ _ (occursBetween_iff.mpr ⟨i, n, hstand, rfl, rfl⟩)
    exact (hstand.isPassedOver_iff hwords).mp hpass htried

/-- A phrase whose first word does not overlap itself is found where it occurs first, and it is not
found only where it does not occur. -/
theorem findPhraseBytes?_of_not_overlapping (hwords : AreWords (first :: rest))
    (hself : ∀ n, 0 < n → n < first.length → ¬ first.drop n <+: first) (s : List Char) :
    let found := findPhraseBytes? ([' '].intercalate (first :: rest)) s
    (∀ start stop, found = some (some (start, stop)) ↔
      OccursBetween (first :: rest) s start stop ∧
        ∀ earlier < start, ∀ stop, ¬ OccursBetween (first :: rest) s earlier stop) ∧
    (found = some none ↔ ∀ start stop, ¬ OccursBetween (first :: rest) s start stop) := by
  have hnot : ∀ {start stop}, OccursBetween (first :: rest) s start stop →
      ¬ IsPassedOver (utf8 first) (utf8 s) start := by
    intro start stop hoccurs
    obtain ⟨i, n, hstand, rfl, rfl⟩ := occursBetween_iff.mp hoccurs
    have hfirst := ((standAt_cons_iff hwords).mp hstand).1
    -- whether a place is passed over is the same in characters and in bytes
    rw [hstand.isPassedOver_iff hwords,
      ← isPassedOver_iff (hwords first List.mem_cons_self).1 hfirst]
    exact not_isPassedOver hself hfirst
  refine ⟨fun start stop => ?_, ?_⟩
  · rw [findPhraseBytes?_eq_some_iff hwords]
    refine and_congr_right fun hoccurs => ?_
    rw [and_iff_right (hnot hoccurs)]
    exact forall₂_congr fun earlier _ => forall_congr' fun stop =>
      imp_congr_right fun hearlier => iff_false_intro (hnot hearlier)
  · rw [findPhraseBytes?_eq_none_iff hwords]
    exact forall₂_congr fun start stop =>
      imp_congr_right fun hoccurs => iff_false_intro (hnot hoccurs)

/-- A phrase is found where it occurs first of all places that are not passed over, and is not found
if all of them are. -/
theorem findPhraseBytes?_intercalate (hwords : AreWords (first :: rest)) (s : List Char) :
    let found := findPhraseBytes? ([' '].intercalate (first :: rest)) s
    (∀ start stop, found = some (some (start, stop)) ↔
      OccursBetween (first :: rest) s start stop ∧
        ¬ IsPassedOver (utf8 first) (utf8 s) start ∧
        ∀ earlier < start, ∀ stop, OccursBetween (first :: rest) s earlier stop →
          IsPassedOver (utf8 first) (utf8 s) earlier) ∧
    (found = some none ↔
      ∀ start stop, OccursBetween (first :: rest) s start stop →
        IsPassedOver (utf8 first) (utf8 s) start) :=
  ⟨fun _ _ => findPhraseBytes?_eq_some_iff hwords, findPhraseBytes?_eq_none_iff hwords⟩

end Words

section Haha

/-- Two words, the first of which can overlap itself. -/
def hahaFunny : List (List Char) := ["haha".toList, "funny".toList]

private theorem areWords_hahaFunny : AreWords hahaFunny := by
  simp [AreWords, hahaFunny, isBlank]

private theorem isSpaced_hahaFunny : IsSpaced hahaFunny "haha funny".toList :=
  ⟨" funny".toList, by decide, [' '], [], by decide, List.forall_mem_singleton.mpr rfl,
    by decide, rfl⟩

/-- The second occurrence is found, as the first one is passed over. -/
theorem findPhraseBytes?_intercalate_hahaFunny :
    let s := "hahaha funny, haha \t funny".toList
    AreWords hahaFunny ∧
      findPhraseBytes? ([' '].intercalate hahaFunny) s = some (some (14, 26)) ∧
      OccursBetween hahaFunny s 2 12 ∧ IsPassedOver (utf8 "haha".toList) (utf8 s) 2 := by
  intro s
  have hfound : findPhraseBytes? ([' '].intercalate hahaFunny) s = some (some (14, 26)) := by
    rw [findPhraseBytes?_eq]
    decide +kernel
  have hoccurs : OccursBetween hahaFunny s 2 12 :=
    ⟨"ha".toList, "haha funny".toList, ", haha \t funny".toList, by decide, isSpaced_hahaFunny,
      by decide +kernel, by decide +kernel⟩
  -- the phrase occurs before the place found, so that occurrence is passed over
  obtain ⟨-, -, hbefore⟩ := ((findPhraseBytes?_intercalate areWords_hahaFunny s).1 14 26).mp hfound
  exact ⟨areWords_hahaFunny, hfound, hoccurs, hbefore 2 (by decide) 12 hoccurs⟩

/-- The only occurrence of a phrase is passed over, as its first word overlaps another place of this
word that is tried before. -/
theorem findPhraseBytes?_haha :
    let s := "hahaha funny".toList
    AreWords hahaFunny ∧ OccursBetween hahaFunny s 2 12 ∧
      findPhraseBytes? ([' '].intercalate hahaFunny) s = some none := by
  intro s
  refine ⟨areWords_hahaFunny, ?_, ?_⟩
  · exact ⟨"ha".toList, "haha funny".toList, [], by decide, isSpaced_hahaFunny,
      by decide +kernel, by decide +kernel⟩
  · rw [findPhraseBytes?_eq]
    decide +kernel

end Haha

end Curation.Text
