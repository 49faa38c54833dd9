import Curation.Text.Lowercase

/-!
# Case folding

Texts are compared without regard to case by folding both. Folding maps a character to its
lower-case form where that form is one character of the same encoded width, and keeps the
character otherwise, so the folded text has the same characters at the same places and the same
encoded width as the text itself: a place found in one is a place in the other.

* `length_fold`, `utf8Size_foldChar`: folding keeps the places and the widths of characters.
* `compareText`: the order of texts by their folded forms, then by the texts themselves.
* `eq_of_compareText`: only equal texts compare as equal.
-/

namespace Curation.Text

/-- The lower-case form of a character, where it is one character of the same encoded width. -/
def foldChar (c : Char) : Char :=
  if c.toNat < 128 then c.toLower
  else match lower c with
    | [d] => if d.utf8Size = c.utf8Size then d else c
    | _ => c

/-- A text with every character folded. -/
def fold (s : List Char) : List Char :=
  s.map foldChar

/-- A string with every character folded. -/
def foldString (s : String) : String :=
  String.ofList (fold s.toList)

/-- The order of texts by their folded forms, and of texts with one folded form by themselves. -/
def compareText (a b : String) : Ordering :=
  (compare (foldString a) (foldString b)).then (compare a b)

@[simp]
theorem fold_nil : fold [] = [] := rfl

@[simp]
theorem fold_cons (c : Char) (s : List Char) : fold (c :: s) = foldChar c :: fold s := rfl

/-- Texts are folded character by character. -/
@[simp]
theorem fold_append (s t : List Char) : fold (s ++ t) = fold s ++ fold t :=
  List.map_append

/-- A folded text has as many characters as the text itself. -/
@[simp]
theorem length_fold (s : List Char) : (fold s).length = s.length :=
  List.length_map foldChar

/-- Only the empty text is folded to the empty text. -/
@[simp]
theorem fold_eq_nil_iff {s : List Char} : fold s = [] ↔ s = [] :=
  List.map_eq_nil_iff

/-- Folding takes and drops the same number of characters. -/
theorem fold_take (n : Nat) (s : List Char) : fold (s.take n) = (fold s).take n :=
  List.map_take

theorem fold_drop (n : Nat) (s : List Char) : fold (s.drop n) = (fold s).drop n :=
  List.map_drop

/-- Past ASCII, folding keeps the encoded width of a character. -/
theorem utf8Size_foldChar {c : Char} (h : 128 ≤ c.toNat) :
    (foldChar c).utf8Size = c.utf8Size := by
  simp only [foldChar, Nat.not_lt.2 h, if_false]
  split
  · split <;> simp_all
  · rfl

@[simp]
theorem toList_foldString (s : String) : (foldString s).toList = fold s.toList :=
  String.toList_ofList

/-- Only equal texts compare as equal. -/
theorem eq_of_compareText {a b : String} (h : compareText a b = .eq) : a = b := by
  rw [compareText, Ordering.then_eq_eq] at h
  exact Std.LawfulEqOrd.eq_of_compare h.2

end Curation.Text
