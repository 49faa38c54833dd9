/-!
# Blank characters, trimming and words

Blank characters are those with the Unicode property `White_Space`. A text is trimmed of them at
both ends, and is cut by them into its words, the maximal runs of characters that are not blank.

* `mem_words`: a word is not empty and holds no blank character.
* `squeeze`: the words of a text joined by single spaces.
-/

namespace Curation.Text

/-- The characters with the Unicode property `White_Space`. -/
def isBlank (c : Char) : Bool :=
  let n := c.toNat
  (9 ≤ n && n ≤ 13) || n == 0x20 || n == 0x85 || n == 0xA0 || n == 0x1680 ||
    (0x2000 ≤ n && n ≤ 0x200A) || n == 0x2028 || n == 0x2029 || n == 0x202F || n == 0x205F ||
    n == 0x3000

/-- The text after its leading blank characters. -/
def trimStart (s : List Char) : List Char :=
  s.dropWhile isBlank

/-- The text before its trailing blank characters. -/
def trimEnd (s : List Char) : List Char :=
  (s.reverse.dropWhile isBlank).reverse

/-- The text between its leading and its trailing blank characters. -/
def trim (s : List Char) : List Char :=
  trimEnd (trimStart s)

/-- The pieces between the characters that satisfy `p`, empty pieces included. -/
def pieces (p : Char → Bool) : List Char → List (List Char)
  | [] => [[]]
  | c :: s =>
    if p c then [] :: pieces p s
    else match pieces p s with
      | [] => [[c]]
      | w :: ws => (c :: w) :: ws

/-- The maximal runs of characters that are not blank, in order. -/
def words (s : List Char) : List (List Char) :=
  (pieces isBlank s).filter (!·.isEmpty)

/-- The words of a text, joined by single spaces. -/
def squeeze (s : List Char) : List Char :=
  [' '].intercalate (words s)

/-- A name without the underscores, dashes and spaces between its parts. -/
def joinParts (s : List Char) : List Char :=
  s.filter fun c => !(c == '_' || c == '-' || c == ' ')

/-- No piece holds a character that separates pieces. -/
theorem not_of_mem_pieces {p : Char → Bool} {s w : List Char} (hw : w ∈ pieces p s)
    {c : Char} (hc : c ∈ w) : p c = false := by
  induction s generalizing w with
  | nil => simp_all [pieces]
  | cons a s ih =>
    by_cases ha : p a = true
    · simp only [pieces, ha, if_true, List.mem_cons] at hw
      rcases hw with rfl | hw
      · simp at hc
      · exact ih hw hc
    · simp only [pieces, ha, Bool.false_eq_true, if_false] at hw
      cases hs : pieces p s with
      | nil =>
        simp only [hs, List.mem_singleton] at hw
        subst hw
        simp only [List.mem_singleton] at hc
        simpa [hc] using ha
      -- a character that separates nothing belongs to the first piece of the rest
      | cons v vs =>
        simp only [hs, List.mem_cons] at hw
        rcases hw with rfl | hw
        · rcases List.mem_cons.1 hc with rfl | hc
          · simpa using ha
          · exact ih (by simp [hs]) hc
        · exact ih (by simp [hs, hw]) hc

/-- A word is not empty and holds no blank character. -/
theorem mem_words {s w : List Char} (hw : w ∈ words s) : w ≠ [] ∧ ∀ c ∈ w, isBlank c = false := by
  obtain ⟨hw, hne⟩ := List.mem_filter.1 hw
  exact ⟨by simpa using hne, fun c hc => not_of_mem_pieces hw hc⟩

end Curation.Text
