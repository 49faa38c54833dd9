import Curation.Proofs.Text.Encoding

/-!
# Phrases in encoded texts

The search for a phrase among bytes: the candidates for its first word are found by their bytes, and
the text behind a place is told by the number of bytes before it, which fails inside a character.
The search never fails so, and it finds the places of the search by characters.

* `splitBytes?`: the two parts of a text at a number of bytes.
* `findPhraseBytes?`: the search for a phrase by bytes.
* `findPhraseBytes?_eq`: it finds the bytes before the two ends of the place in characters.
-/

namespace Curation.Text

/-- The parts of the text before and behind a number of bytes, if they end with a character. -/
def splitBytes? : Nat → List Char → Option (List Char × List Char)
  | 0, s => some ([], s)
  | _ + 1, [] => none
  | n + 1, c :: s =>
    if c.utf8Size ≤ n + 1 then
      (splitBytes? (n + 1 - c.utf8Size) s).map fun parts => (c :: parts.1, parts.2)
    else none

/-- The number of bytes at the front of the text that hold the words in order, each after one blank
character or more, if they stand there; a failure if a place lies inside a character. -/
def followedByBytes? : List (List Char) → List Char → Option (Option Nat)
  | [], _ => some (some 0)
  | w :: ws, s =>
    let gap := (utf8 s).length - (utf8 (trimStart s)).length
    if gap = 0 then some none
    else
      (splitBytes? gap s).bind fun atGap =>
        if (utf8 w).isPrefixOf (utf8 atGap.2) then
          (splitBytes? (gap + (utf8 w).length) s).bind fun atWord =>
            (followedByBytes? ws atWord.2).map (·.map (gap + (utf8 w).length + ·))
        else some none

/-- The bytes before the two ends of the first candidate for `first` that the words `rest` follow;
the next candidate is looked for behind the last one. -/
def findWordsBytes? (first : List Char) (rest : List (List Char)) (s : List Char) :
    Option (Option (Nat × Nat)) :=
  match find? (utf8 first) (utf8 s) with
  | none => some none
  | some start =>
    let stop := start + (utf8 first).length
    (splitBytes? stop s).bind fun atStop =>
      (followedByBytes? rest atStop.2).bind fun found =>
        match found with
        | some n => some (some (start, stop + n))
        | none =>
          -- a candidate has bytes, so less of the text is left
          if atStop.2.length < s.length then
            (findWordsBytes? first rest atStop.2).map
              (·.map fun place => (stop + place.1, stop + place.2))
          else some none
termination_by s.length

/-- The bytes before the two ends of the first occurrence of a phrase. -/
def findPhraseBytes? (phrase s : List Char) : Option (Option (Nat × Nat)) :=
  match phraseWords phrase with
  | [] => some (some (0, 0))
  | first :: rest => findWordsBytes? first rest s

/-- The bytes before a place are counted in two parts. -/
theorem byteOffset_add (s : List Char) (i j : Nat) :
    byteOffset s (i + j) = byteOffset s i + byteOffset (s.drop i) j := by
  rw [byteOffset_eq_add s (Nat.le_add_right i j), Nat.add_sub_cancel_left]
  rfl

/-- The bytes of a word at the front of a text are those before its end. -/
theorem byteOffset_of_prefix {w s : List Char} (h : w <+: s) :
    byteOffset s w.length = (utf8 w).length := by
  rw [byteOffset, ← List.prefix_iff_eq_take.mp h]

/-- No bytes stand before the front of a text only. -/
theorem byteOffset_eq_zero_iff {s : List Char} {i : Nat} (hi : i ≤ s.length) :
    byteOffset s i = 0 ↔ i = 0 := by
  cases s with
  | nil => simpa [byteOffset] using hi
  | cons c s =>
    cases i with
    | zero => simp
    | succ i =>
      have hpos := c.utf8Size_pos
      rw [byteOffset_cons_succ]
      omega

/-- A text begins with a word exactly if its bytes begin with those of the word. -/
theorem isPrefixOf_utf8 (w s : List Char) : (utf8 w).isPrefixOf (utf8 s) = w.isPrefixOf s := by
  rw [Bool.eq_iff_iff, List.isPrefixOf_iff_prefix, List.isPrefixOf_iff_prefix, utf8_prefix_iff]

/-- A text is parted before a character by the bytes before it. -/
theorem splitBytes?_byteOffset {s : List Char} {i : Nat} (hi : i ≤ s.length) :
    splitBytes? (byteOffset s i) s = some (s.take i, s.drop i) := by
  induction s generalizing i with
  | nil =>
    obtain rfl := Nat.le_zero.mp hi
    rfl
  | cons c s ih =>
    cases i with
    | zero => rfl
    | succ i =>
      -- the first character takes at least one byte, so the split goes on behind it
      obtain ⟨n, hn⟩ := Nat.exists_eq_succ_of_ne_zero (Nat.ne_of_gt c.utf8Size_pos)
      have hbytes : byteOffset (c :: s) (i + 1) = (n + byteOffset s i) + 1 := by
        rw [byteOffset_cons_succ, hn]
        omega
      have hrest : n + byteOffset s i + 1 - c.utf8Size = byteOffset s i := by omega
      rw [hbytes, splitBytes?, if_pos (by omega), hrest, ih (Nat.le_of_succ_le_succ hi)]
      rfl

/-- Without as many characters as are trimmed, the trimmed text is left. -/
theorem drop_length_sub_trimStart (s : List Char) :
    s.drop (s.length - (trimStart s).length) = trimStart s := by
  have hsplit : s.takeWhile isBlank ++ trimStart s = s := List.takeWhile_append_dropWhile
  have hlength := congrArg List.length hsplit
  rw [List.length_append] at hlength
  have hgap : s.length - (trimStart s).length = (s.takeWhile isBlank).length := by omega
  rw [hgap]
  conv => lhs; arg 2; rw [← hsplit]
  exact List.drop_left

/-- The blanks at the front of a text have the bytes that trimming takes off. -/
theorem length_utf8_sub_trimStart (s : List Char) :
    (utf8 s).length - (utf8 (trimStart s)).length =
      byteOffset s (s.length - (trimStart s).length) := by
  have hdrop := congrArg List.length (drop_byteOffset s (s.length - (trimStart s).length))
  rw [List.length_drop, drop_length_sub_trimStart] at hdrop
  have hoffset := byteOffset_le_length (Nat.sub_le s.length (trimStart s).length)
  omega

/-- The bytes of the words that follow are those of their characters. -/
theorem followedByBytes?_eq (words : List (List Char)) (s : List Char) :
    followedByBytes? words s = some ((followedBy? words s).map (byteOffset s)) := by
  induction words generalizing s with
  | nil => rfl
  | cons w ws ih =>
    have htail := drop_length_sub_trimStart s
    have hle := Nat.sub_le s.length (trimStart s).length
    rw [followedByBytes?, followedBy?, length_utf8_sub_trimStart]
    generalize s.length - (trimStart s).length = gap at htail hle ⊢
    simp only [byteOffset_eq_zero_iff hle]
    by_cases hzero : gap = 0
    · simp [hzero]
    · rw [if_neg hzero, splitBytes?_byteOffset hle, Option.bind_some, htail, isPrefixOf_utf8]
      cases hword : w.isPrefixOf (trimStart s) with
      | false => simp [hzero]
      | true =>
        -- behind the word the text is as many bytes further as the word has
        have hprefix := List.isPrefixOf_iff_prefix.mp hword
        have hstop : byteOffset s gap + (utf8 w).length = byteOffset s (gap + w.length) := by
          rw [byteOffset_add, htail, byteOffset_of_prefix hprefix]
        have hstople : gap + w.length ≤ s.length := by
          have hwle := hprefix.length_le
          rw [← htail, List.length_drop] at hwle
          omega
        have hnext : s.drop (gap + w.length) = (trimStart s).drop w.length := by
          rw [← List.drop_drop, htail]
        rw [if_pos rfl, hstop, splitBytes?_byteOffset hstople, Option.bind_some, hnext, ih]
        cases hrest : followedBy? ws ((trimStart s).drop w.length) with
        | none => simp [hzero]
        | some m => simp [hzero, byteOffset_add s (gap + w.length), hnext]

/-- Characters passed over before the first candidate. -/
theorem findWords?_wait (first : List Char) (rest : List (List Char)) (wait : Nat)
    (s : List Char) :
    findWords? first rest wait s =
      (findWords? first rest 0 (s.drop wait)).map fun place => (wait + place.1, place.2) := by
  induction s generalizing wait with
  | nil => cases wait <;> simp [findWords?]
  | cons c s ih =>
    cases wait with
    | zero => simp
    | succ wait =>
      rw [findWords?, ih, Option.map_map, List.drop_succ_cons]
      -- places are counted from one character further on
      congr 1
      funext place
      simp [Nat.add_right_comm]

/-- The candidates for the first word are found one behind the other. -/
theorem findWords?_eq_find? {first : List Char} (hne : first ≠ []) (rest : List (List Char))
    (s : List Char) :
    findWords? first rest 0 s =
      (find? first s).bind fun start =>
        match followedBy? rest (s.drop (start + first.length)) with
        | some n => some (start, first.length + n)
        | none =>
          (findWords? first rest 0 (s.drop (start + first.length))).map fun place =>
            (start + first.length + place.1, place.2) := by
  induction s with
  | nil => simp [findWords?, find?, hne]
  | cons c s ih =>
    rw [findWords?, find?]
    cases hfirst : first.isPrefixOf (c :: s) with
    | true =>
      obtain ⟨d, w, rfl⟩ := List.exists_cons_of_ne_nil hne
      simp only [if_true, Option.bind_some, Nat.zero_add]
      cases followedBy? rest ((c :: s).drop (d :: w).length) with
      | some n => rfl
      | none =>
        -- passing over the candidate is passing over its other characters in the rest
        simp only [List.length_cons, Nat.add_sub_cancel, List.drop_succ_cons]
        rw [findWords?_wait, Option.map_map]
        congr 1
        funext place
        simp [Nat.add_right_comm]
    | false =>
      simp only [Bool.false_eq_true, if_false, ih]
      cases find? first s with
      | none => rfl
      | some start =>
        have hdrop : (c :: s).drop (start + 1 + first.length) = s.drop (start + first.length) := by
          rw [Nat.add_right_comm, List.drop_succ_cons]
        simp only [Option.map_some, Option.bind_some, hdrop]
        cases followedBy? rest (s.drop (start + first.length)) with
        | some n => rfl
        | none =>
          simp only [Option.map_map]
          congr 1
          funext place
          simp [Nat.add_right_comm, Nat.add_assoc]

/-- A phrase is found at the bytes of its characters. -/
theorem findWordsBytes?_eq {first : List Char} (hne : first ≠ []) (rest : List (List Char))
    (s : List Char) :
    findWordsBytes? first rest s =
      some ((findWords? first rest 0 s).map fun place =>
        (byteOffset s place.1, byteOffset s (place.1 + place.2))) := by
  induction hlength : s.length using Nat.strongRecOn generalizing s with
  | ind length ih =>
    subst hlength
    rw [findWordsBytes?, findWords?_eq_find? hne, find?_utf8]
    cases hfind : find? first s with
    | none => rfl
    | some start =>
      obtain ⟨hstart, hprefix, -⟩ := find?_eq_some_iff.mp hfind
      have hwle := hprefix.length_le
      rw [List.length_drop] at hwle
      have hpos := List.length_pos_iff.mpr hne
      -- the bytes of the first word end where its characters do
      have hstop : byteOffset s start + (utf8 first).length =
          byteOffset s (start + first.length) := by
        rw [byteOffset_add, byteOffset_of_prefix hprefix]
      simp only [Option.map_some, Option.bind_some, hstop]
      rw [splitBytes?_byteOffset (by omega), Option.bind_some, followedByBytes?_eq,
        Option.bind_some]
      cases hrest : followedBy? rest (s.drop (start + first.length)) with
      | some n =>
        have hend : byteOffset s (start + first.length) +
            byteOffset (s.drop (start + first.length)) n =
              byteOffset s (start + (first.length + n)) := by
          rw [← byteOffset_add, Nat.add_assoc]
        simp only [Option.map_some, hend]
      | none =>
        -- the search goes on in less text, as the first word is not empty
        have hless : (s.drop (start + first.length)).length < s.length := by
          rw [List.length_drop]
          omega
        simp only [Option.map_none, if_pos hless]
        rw [ih _ hless _ rfl]
        cases findWords? first rest 0 (s.drop (start + first.length)) with
        | none => rfl
        | some place =>
          simp only [Option.map_some, ← byteOffset_add, Nat.add_assoc]

/-- The search by bytes never parts a character and finds the bytes of the search by characters. -/
theorem findPhraseBytes?_eq (phrase s : List Char) :
    findPhraseBytes? phrase s =
      some ((findPhrase? phrase s).map fun place =>
        (byteOffset s place.1, byteOffset s (place.1 + place.2))) := by
  rw [findPhraseBytes?, findPhrase?]
  cases hwords : phraseWords phrase with
  | nil => rfl
  | cons first rest =>
    have hne : first ≠ [] := by
      have hmem : first ∈ phraseWords phrase := hwords ▸ List.mem_cons_self
      simpa using (List.mem_filter.mp hmem).2
    exact findWordsBytes?_eq hne rest s

end Curation.Text
