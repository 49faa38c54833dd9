import Mathlib.Data.List.Basic
import Curation.Proofs.Text.Phrase

/-!
# Collapsed blanks

A text is collapsed by putting one space in the place of every run of blank characters. The words of
a phrase stand in a text with any blanks between them, so a place of the phrase is told from others
by its collapsed form. Folding neither makes nor removes blank characters.

* `isBlank_foldChar`: folding keeps blank characters apart from others.
* `collapse`: a text with its blanks collapsed.
* `collapse_of_isSpaced`: words with blanks between them are collapsed to words with single spaces.
* `trim_intercalate`: nothing is trimmed of words with single spaces.
-/

namespace Curation.Text

/-! ## Folding and blank characters -/

/-- The first and the last code points of the ranges of blank characters. -/
def blankRanges : List (Nat × Nat) :=
  [(0x09, 0x0D), (0x20, 0x20), (0x85, 0x85), (0xA0, 0xA0), (0x1680, 0x1680), (0x2000, 0x200A),
    (0x2028, 0x2029), (0x202F, 0x202F), (0x205F, 0x205F), (0x3000, 0x3000)]

/-- A character is blank if its code point lies in one of the ranges. -/
theorem isBlank_iff {c : Char} :
    isBlank c = true ↔ ∃ range ∈ blankRanges, range.1 ≤ c.toNat ∧ c.toNat ≤ range.2 := by
  simp only [isBlank, blankRanges, Bool.or_eq_true, Bool.and_eq_true, decide_eq_true_eq,
    beq_iff_eq, List.mem_cons, List.not_mem_nil, or_false, or_and_right, exists_or,
    exists_eq_left]
  omega

/-- Neither the upper-case nor the lower-case characters of a range are blank. -/
theorem disjoint_blankRanges {r : CaseRange} (hr : r ∈ caseRanges) {range : Nat × Nat}
    (hrange : range ∈ blankRanges) :
    (r.last < range.1 ∨ range.2 < r.first) ∧
      (r.lower + (r.last - r.first) < range.1 ∨ range.2 < r.lower) := by
  have hall : ∀ r ∈ caseRanges, ∀ range ∈ blankRanges,
      (r.last < range.1 ∨ range.2 < r.first) ∧
        (r.lower + (r.last - r.first) < range.1 ∨ range.2 < r.lower) := by decide +kernel
  exact hall r hr range hrange

/-- The character of a code point is blank only if the code point lies in a range of blank
characters. -/
theorem exists_range_of_isBlank_ofNat {code : Nat} (h : isBlank (Char.ofNat code) = true) :
    ∃ range ∈ blankRanges, range.1 ≤ code ∧ code ≤ range.2 := by
  rw [isBlank_iff] at h
  by_cases hvalid : code.isValidChar
  · rwa [Char.ofNat, dif_pos hvalid] at h
  · rw [Char.ofNat, dif_neg hvalid] at h
    exact absurd h (by decide)

/-- Past ASCII, folding keeps a character or finds it in a range. -/
theorem foldChar_eq_self_or {c : Char} (hc : 128 ≤ c.toNat) :
    foldChar c = c ∨ ∃ r ∈ caseRanges, r.covers c.toNat = true ∧
      foldChar c = Char.ofNat (r.lower + (c.toNat - r.first)) := by
  rw [foldChar, if_neg (Nat.not_lt.mpr hc)]
  split
  · next d hd =>
    split
    · rw [lower] at hd
      split at hd
      · cases hd
      · split at hd
        · next r hr =>
          cases hd
          have hcovers := List.find?_some hr
          exact Or.inr ⟨r, List.mem_of_find?_eq_some hr, hcovers, rfl⟩
        · cases hd
          exact Or.inl rfl
    · exact Or.inl rfl
  · exact Or.inl rfl

/-- Folding neither makes nor removes blank characters. -/
theorem isBlank_foldChar (c : Char) : isBlank (foldChar c) = isBlank c := by
  rcases Nat.lt_or_ge c.toNat 128 with hc | hc
  · have hall : ∀ code < 128, isBlank (Char.ofNat code).toLower = isBlank (Char.ofNat code) := by
      decide +kernel
    have hlower := hall c.toNat hc
    rw [Char.ofNat_toNat] at hlower
    rw [foldChar, if_pos hc, hlower]
  · rcases foldChar_eq_self_or hc with hself | ⟨r, hr, hcovers, hfold⟩
    · rw [hself]
    · -- neither the character nor its lower-case form is blank
      rw [CaseRange.covers, Bool.and_eq_true, Bool.and_eq_true, decide_eq_true_eq,
        decide_eq_true_eq] at hcovers
      have hupper : isBlank c = false := Bool.eq_false_iff.mpr fun hblank => by
        obtain ⟨range, hrange, hin⟩ := isBlank_iff.mp hblank
        have hdisjoint := (disjoint_blankRanges hr hrange).1
        omega
      have hlower : isBlank (foldChar c) = false := Bool.eq_false_iff.mpr fun hblank => by
        rw [hfold] at hblank
        obtain ⟨range, hrange, hin⟩ := exists_range_of_isBlank_ofNat hblank
        have hdisjoint := (disjoint_blankRanges hr hrange).2
        omega
      rw [hupper, hlower]

/-! ## Texts with their blanks collapsed -/

/-- A text with one space in the place of every run of blank characters. -/
def collapse : List Char → List Char
  | [] => []
  | c :: s =>
    if isBlank c then
      -- the last blank character of a run is the one that gives way to the space
      if s.head?.any isBlank then collapse s else ' ' :: collapse s
    else c :: collapse s

section Words

variable {words : List (List Char)} {s : List Char}

/-- A word in front of a text is left as it is. -/
theorem collapse_append_of_not_blank {w : List Char} (hw : ∀ c ∈ w, isBlank c = false)
    (t : List Char) : collapse (w ++ t) = w ++ collapse t := by
  induction w with
  | nil => rfl
  | cons c w ih =>
    obtain ⟨hc, hw⟩ := List.forall_mem_cons.mp hw
    rw [List.cons_append, collapse, if_neg (by simp [hc]), ih hw, List.cons_append]

/-- Blank characters in front of a text that starts with none become one space. -/
theorem collapse_blanks_append {gap t : List Char} (hgap : gap ≠ [])
    (hblank : ∀ c ∈ gap, isBlank c = true) (ht : t.head?.any isBlank = false) :
    collapse (gap ++ t) = ' ' :: collapse t := by
  induction gap with
  | nil => contradiction
  | cons c gap ih =>
    obtain ⟨hc, hrest⟩ := List.forall_mem_cons.mp hblank
    rw [List.cons_append, collapse, if_pos hc]
    cases gap with
    -- the last blank is followed by none, so the space stands in its place
    | nil => rw [List.nil_append, if_neg (by simp [ht])]
    -- a blank that another one follows leaves nothing
    | cons d gap =>
      have hnext : ((d :: gap) ++ t).head?.any isBlank = true := hrest d List.mem_cons_self
      rw [if_pos hnext, ih (List.cons_ne_nil d gap) hrest]

/-- Words are joined by a space in front of each but the first. -/
theorem intercalate_space_cons (w : List Char) (ws : List (List Char)) :
    [' '].intercalate (w :: ws) = w ++ ws.flatMap (' ' :: ·) := by
  induction ws generalizing w with
  | nil => rw [List.intercalate_singleton, List.flatMap_nil, List.append_nil]
  | cons v ws ih =>
    rw [List.intercalate_cons_cons, ih, List.flatMap_cons, List.append_assoc]
    rfl

/-- Words that follow a word are collapsed to words with one space in front of each. -/
theorem collapse_of_follows (hwords : AreWords words) (h : Follows words s) :
    collapse s = words.flatMap (' ' :: ·) := by
  induction words generalizing s with
  | nil =>
    obtain rfl : s = [] := h
    rfl
  | cons w ws ih =>
    -- the gap before a word ends with the word, which starts with no blank character
    obtain ⟨gap, t, hgap, hblank, rfl, hrest⟩ := h
    obtain ⟨⟨hw, hnot⟩, hws⟩ := List.forall_mem_cons.mp hwords
    have hfirst : (w ++ t).head?.any isBlank = false := by
      obtain ⟨c, w, rfl⟩ := List.exists_cons_of_ne_nil hw
      exact hnot c List.mem_cons_self
    rw [List.append_assoc, collapse_blanks_append hgap hblank hfirst,
      collapse_append_of_not_blank hnot, ih hws hrest, List.flatMap_cons, List.cons_append]

/-- Words with blanks between them are collapsed to words with single spaces between them. -/
theorem collapse_of_isSpaced (hwords : AreWords words) (h : IsSpaced words s) :
    collapse s = [' '].intercalate words := by
  cases words with
  | nil =>
    obtain rfl : s = [] := h
    rfl
  | cons w ws =>
    obtain ⟨t, rfl, hrest⟩ := h
    obtain ⟨⟨-, hnot⟩, hws⟩ := List.forall_mem_cons.mp hwords
    rw [collapse_append_of_not_blank hnot, collapse_of_follows hws hrest, intercalate_space_cons]

example : collapse "machine \t learning".toList = "machine learning".toList := by decide

/-- Words with one space in front of each follow a word. -/
theorem follows_flatMap (words : List (List Char)) :
    Follows words (words.flatMap (' ' :: ·)) := by
  induction words with
  | nil => rfl
  | cons w ws ih =>
    refine ⟨[' '], ws.flatMap (' ' :: ·), List.cons_ne_nil _ _, ?_, ?_, ih⟩
    · exact List.forall_mem_singleton.mpr rfl
    · rw [List.flatMap_cons, List.singleton_append]

/-- Single spaces between words are left as they are. -/
theorem collapse_intercalate (hwords : AreWords words) :
    collapse ([' '].intercalate words) = [' '].intercalate words := by
  refine collapse_of_isSpaced hwords ?_
  cases words with
  | nil => rfl
  | cons w ws => exact ⟨_, intercalate_space_cons w ws, follows_flatMap ws⟩

/-- The folded words of a phrase are words. -/
theorem areWords_map_fold (hwords : AreWords words) : AreWords (words.map fold) := by
  intro w hw
  obtain ⟨v, hv, rfl⟩ := List.mem_map.mp hw
  obtain ⟨hne, hnot⟩ := hwords v hv
  refine ⟨mt fold_eq_nil_iff.mp hne, fun c hc => ?_⟩
  obtain ⟨d, hd, rfl⟩ := List.mem_map.mp hc
  rw [isBlank_foldChar, hnot d hd]

/-- Words are folded one by one. -/
theorem fold_intercalate (words : List (List Char)) :
    fold ([' '].intercalate words) = [' '].intercalate (words.map fold) := by
  cases words with
  | nil => rfl
  | cons w ws =>
    -- a space is its own lower-case form
    have hspace : ∀ w, fold (' ' :: w) = ' ' :: fold w := fun w => by
      rw [fold_cons, show foldChar ' ' = ' ' by decide]
    have hrest : fold (ws.flatMap (' ' :: ·)) = ws.flatMap fun w => fold (' ' :: w) :=
      List.map_flatMap
    rw [intercalate_space_cons, List.map_cons, intercalate_space_cons, fold_append, hrest,
      List.flatMap_map]
    simp only [hspace]

/-- Nothing is trimmed of a text that neither starts nor ends with a blank character. -/
theorem trim_eq_self (hfirst : s.head?.any isBlank = false)
    (hlast : s.getLast?.any isBlank = false) : trim s = s := by
  have hkeep : ∀ t : List Char, t.head?.any isBlank = false → t.dropWhile isBlank = t := by
    intro t ht
    cases t with
    | nil => rfl
    | cons c t => exact List.dropWhile_cons_of_neg (Bool.eq_false_iff.mp ht)
  rw [trim, trimStart, hkeep s hfirst, trimEnd, hkeep s.reverse (by rwa [List.head?_reverse]),
    List.reverse_reverse]

/-- Blanks around a text are trimmed off. -/
theorem trim_append_append {before after : List Char} (hbefore : ∀ c ∈ before, isBlank c)
    (hafter : ∀ c ∈ after, isBlank c) (s : List Char) : trim (before ++ s ++ after) = trim s := by
  have hend : ∀ t : List Char, trimEnd (t ++ after) = trimEnd t := fun t => by
    rw [trimEnd, List.reverse_append, List.dropWhile_append_of_pos (by simpa using hafter), trimEnd]
  have hblank : trimStart after = [] := by
    rw [trimStart, ← List.append_nil after, List.dropWhile_append_of_pos hafter, List.dropWhile_nil]
  rw [trim, trimStart, List.append_assoc, List.dropWhile_append_of_pos hbefore,
    List.dropWhile_append, ← trimStart, ← trimStart, hblank, trim]
  -- a text of blanks only is trimmed off from the front
  split
  · next hempty => rw [List.isEmpty_iff.mp hempty]
  · exact hend _

/-- Nothing is trimmed of words with single spaces between them. -/
theorem trim_intercalate (hwords : AreWords words) :
    trim ([' '].intercalate words) = [' '].intercalate words := by
  refine trim_eq_self ?_ ?_
  · cases words with
    | nil => rfl
    | cons w ws =>
      obtain ⟨hw, hnot⟩ := hwords w List.mem_cons_self
      obtain ⟨c, w, rfl⟩ := List.exists_cons_of_ne_nil hw
      rw [intercalate_space_cons]
      exact hnot c List.mem_cons_self
  · induction words with
    | nil => rfl
    | cons w ws ih =>
      obtain ⟨⟨hw, hnot⟩, hws⟩ := List.forall_mem_cons.mp hwords
      cases ws with
      | nil =>
        rw [List.intercalate_singleton, List.getLast?_eq_some_getLast hw]
        exact hnot _ (List.getLast_mem hw)
      | cons v ws =>
        -- what follows the word is not empty, and so the last character is one of that
        have hne : [' '].intercalate (v :: ws) ≠ [] := by
          rw [intercalate_space_cons]
          exact List.append_ne_nil_of_left_ne_nil (hws v List.mem_cons_self).1 _
        rw [List.intercalate_cons_cons, List.getLast?_append_of_ne_nil _ hne]
        exact ih hws

end Words

end Curation.Text
