import Curation.Text.Blank

/-!
# Single spacing

A text is single-spaced if its words are separated by one space each and nothing else is blank.
Such a text is what `squeeze` makes of any text, so squeezing it once more changes nothing.

* `IsSingleSpaced`: single spacing, said of the characters of a text.
* `squeeze_of_isSingleSpaced`: a single-spaced text is its own squeezed form.
-/

namespace Curation.Text

/-- The text has no leading, trailing or repeated blank characters, and no blank characters other
than spaces. -/
structure IsSingleSpaced (s : List Char) : Prop where
  /-- Every blank character is a space. -/
  eq_space : ∀ c ∈ s, isBlank c = true → c = ' '
  /-- No space stands at the front. -/
  head_ne : s.head? ≠ some ' '
  /-- No space stands at the end. -/
  last_ne : s.getLast? ≠ some ' '
  /-- No two spaces stand side by side. -/
  not_double : ¬ [' ', ' '] <:+: s

/-- Every text has a piece, which may be empty. -/
theorem pieces_ne_nil (p : Char → Bool) (s : List Char) : pieces p s ≠ [] := by
  cases s with
  | nil => simp [pieces]
  | cons c s =>
    rw [pieces]
    split
    · simp
    · split <;> simp

/-- Pieces joined by the only separator that the text holds make up the text. -/
theorem intercalate_pieces {p : Char → Bool} {a : Char} {s : List Char}
    (h : ∀ c ∈ s, p c = true → c = a) : [a].intercalate (pieces p s) = s := by
  induction s with
  | nil => simp [pieces, List.intercalate]
  | cons c s ih =>
    have hs := ih fun d hd => h d (List.mem_cons_of_mem c hd)
    obtain ⟨w, ws, hpieces⟩ := List.exists_cons_of_ne_nil (pieces_ne_nil p s)
    rw [hpieces] at hs
    -- a separator opens a new piece, and every other character belongs to the first one
    by_cases hc : p c = true
    · have hca : c = a := h c List.mem_cons_self hc
      simp only [pieces, hc, if_true, hpieces]
      simpa [List.intercalate, hca] using hs
    · simp only [pieces, hc, Bool.false_eq_true, if_false, hpieces]
      cases ws <;> simpa [List.intercalate] using hs

/-- A text that holds no separator is one piece. -/
theorem pieces_of_forall_not {p : Char → Bool} {w : List Char} (hw : ∀ c ∈ w, p c = false) :
    pieces p w = [w] := by
  induction w with
  | nil => rfl
  | cons c w ih =>
    obtain ⟨hc, hw⟩ := List.forall_mem_cons.mp hw
    rw [pieces, ih hw, if_neg (by simp [hc])]

/-- A piece ends at the first separator. -/
theorem pieces_append_cons {p : Char → Bool} {a : Char} {w : List Char} (ha : p a = true)
    (hw : ∀ c ∈ w, p c = false) (s : List Char) :
    pieces p (w ++ a :: s) = w :: pieces p s := by
  induction w with
  | nil => rw [List.nil_append, pieces, if_pos ha]
  | cons c w ih =>
    obtain ⟨hc, hw⟩ := List.forall_mem_cons.mp hw
    rw [List.cons_append, pieces, ih hw, if_neg (by simp [hc])]

/-- The pieces of texts joined by a separator that none of them holds are these texts. -/
theorem pieces_intercalate {p : Char → Bool} {a : Char} {words : List (List Char)}
    (ha : p a = true) (hwords : ∀ w ∈ words, ∀ c ∈ w, p c = false) (hne : words ≠ []) :
    pieces p ([a].intercalate words) = words := by
  induction words with
  | nil => contradiction
  | cons w ws ih =>
    obtain ⟨hw, hws⟩ := List.forall_mem_cons.mp hwords
    cases ws with
    | nil =>
      rw [List.intercalate_singleton]
      exact pieces_of_forall_not hw
    -- the separator ends the first text, which holds none itself
    | cons v ws =>
      rw [List.intercalate_cons_cons, List.append_assoc, List.singleton_append,
        pieces_append_cons ha hw, ih hws (List.cons_ne_nil v ws)]

/-- Where no separator stands at the end or beside another one, only the piece at the front can be
empty, and it is so only if the text is empty or starts with a separator. -/
private theorem pieces_eq_cons {p : Char → Bool} {s : List Char}
    (hlast : ∀ c, s.getLast? = some c → p c = false)
    (hdouble : ∀ a b, [a, b] <:+: s → p a = true → p b = false) :
    ∃ w ws, pieces p s = w :: ws ∧ (w = [] → s = [] ∨ ∃ c, s.head? = some c ∧ p c = true) ∧
      ∀ v ∈ ws, v ≠ [] := by
  induction s with
  | nil => exact ⟨[], [], by simp [pieces], by simp, by simp⟩
  | cons c s ih =>
    obtain ⟨w, ws, hpieces, hw, hws⟩ := ih
      (fun d hd => hlast d (by rw [List.getLast?_cons, hd]; rfl))
      (fun a b hab => hdouble a b (hab.trans (List.suffix_cons c s).isInfix))
    by_cases hc : p c = true
    · refine ⟨[], w :: ws, by simp [pieces, hc, hpieces], fun _ => Or.inr ⟨c, rfl, hc⟩, ?_⟩
      intro v hv
      rcases List.mem_cons.1 hv with rfl | hv
      · -- The text after a separator is not empty and starts with no other separator.
        intro hnil
        rcases hw hnil with rfl | ⟨d, hd, hpd⟩
        · simp [hlast c rfl] at hc
        · obtain ⟨t, rfl⟩ := List.head?_eq_some_iff.1 hd
          simp [hdouble c d ⟨[], t, rfl⟩ hc] at hpd
      · exact hws v hv
    · exact ⟨c :: w, ws, by simp [pieces, hc, hpieces], by simp, hws⟩

/-- The words of a single-spaced text are its pieces between blank characters. -/
theorem words_of_isSingleSpaced {s : List Char} (h : IsSingleSpaced s) (hne : s ≠ []) :
    words s = pieces isBlank s := by
  -- every blank character is a space, so single spacing speaks of the separators of `pieces`
  have hlast : ∀ c, s.getLast? = some c → isBlank c = false := by
    intro c hc
    refine Bool.eq_false_iff.2 fun hb => h.last_ne ?_
    rw [hc, h.eq_space c (List.mem_of_getLast? hc) hb]
  have hdouble : ∀ a b, [a, b] <:+: s → isBlank a = true → isBlank b = false := by
    intro a b hab ha
    refine Bool.eq_false_iff.2 fun hb => ?_
    obtain rfl := h.eq_space a (hab.subset (by simp)) ha
    obtain rfl := h.eq_space b (hab.subset (by simp)) hb
    exact h.not_double hab
  obtain ⟨w, ws, hpieces, hw, hws⟩ := pieces_eq_cons hlast hdouble
  have hwne : w ≠ [] := by
    intro hnil
    rcases hw hnil with hs | ⟨c, hc, hb⟩
    · exact hne hs
    · rw [h.eq_space c (List.mem_of_head? hc) hb] at hc
      exact h.head_ne hc
  -- hence no piece is empty, and the words are all of them
  rw [words, List.filter_eq_self, hpieces]
  intro v hv
  rcases List.mem_cons.1 hv with rfl | hv
  · simpa using hwne
  · simpa using hws v hv

/-- A single-spaced text is its own squeezed form. -/
theorem squeeze_of_isSingleSpaced {s : List Char} (h : IsSingleSpaced s) : squeeze s = s := by
  by_cases hne : s = []
  · subst hne
    rfl
  · rw [squeeze, words_of_isSingleSpaced h hne, intercalate_pieces h.eq_space]

end Curation.Text
