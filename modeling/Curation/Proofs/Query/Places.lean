import Curation.Proofs.Text.ByteSearch
import Curation.Query.Evaluation

/-!
# Places of terms

Where a term stands in a text, and the same told by bytes: a place is searched in the bytes of the
folded text, and its characters are counted and taken from the text itself.

* `Term.occurrence?_le`: a place lies in the text.
* `Term.hitInBytes?`: the search for a hit by bytes.
* `Term.hitInBytes?_eq`: it never parts a character and finds the hit of the search by characters.
-/

namespace Curation

/-- The number of characters before a byte, or of all of them if the byte starts none. -/
def Text.charOffset (s : List Char) (bytes : Nat) : Nat :=
  match splitBytes? bytes s with
  | some parts => parts.1.length
  | none => s.length

/-- The text between two bytes, or nothing if one of them lies inside a character. -/
def Text.sliceBytes (s : List Char) (start stop : Nat) : List Char :=
  match splitBytes? start s with
  | some parts => ((splitBytes? (stop - start) parts.2).map (·.1)).getD []
  | none => []

namespace Term

/-- The bytes before the two ends of the first occurrence of the term's text in the folded text; a
failure if a place lies inside a character. -/
def occurrenceBytes? (term : Term) (s : List Char) : Option (Option (Nat × Nat)) :=
  let needle := Text.fold term.text.toList
  if term.isPhrase then Text.findPhraseBytes? needle (Text.fold s)
  else
    some <| (Text.find? (Text.utf8 needle) (Text.utf8 (Text.fold s))).map fun start =>
      (start, start + (Text.utf8 needle).length)

/-- The hit between two bytes of a text. -/
def hitAtBytes (term : Term) (field : Field) (s : List Char) (place : Nat × Nat) : Hit :=
  let start := Text.charOffset s place.1
  let matched := Text.sliceBytes s place.1 place.2
  { field
    matched := String.ofList matched
    start
    stop := start + matched.length
    fieldLength := s.length
    isPhrase := term.isPhrase }

/-- The first place in a field where the term's text stands, searched by bytes; a failure if a place
lies inside a character. -/
def hitInBytes? (term : Term) (item : Item) (field : Field) : Option (Option Hit) :=
  match item.fieldText? field with
  | some text =>
    (term.occurrenceBytes? text.toList).map (·.map (term.hitAtBytes field text.toList))
  | none => some none

/-- A word is found at its first place, with the number of its characters. -/
theorem occurrence?_word {term : Term} {s : List Char} {start length : Nat}
    (hword : term.isPhrase = false) (h : term.occurrence? s = some (start, length)) :
    Text.find? (Text.fold term.text.toList) (Text.fold s) = some start ∧
      length = (Text.fold term.text.toList).length := by
  rw [occurrence?, hword] at h
  obtain ⟨i, hi, heq⟩ := Option.map_eq_some_iff.mp h
  cases heq
  exact ⟨hi, rfl⟩

/-- A phrase is searched for as a phrase. -/
theorem occurrence?_phrase {term : Term} {s : List Char} (hphrase : term.isPhrase = true) :
    term.occurrence? s =
      Text.findPhrase? (Text.fold term.text.toList) (Text.fold s) := by
  rw [occurrence?, hphrase]
  rfl

theorem occurrence?_le {term : Term} {s : List Char} {start length : Nat}
    (h : term.occurrence? s = some (start, length)) : start + length ≤ s.length := by
  cases hphrase : term.isPhrase with
  | true =>
    rw [occurrence?_phrase hphrase] at h
    have hle := Text.findPhrase?_le h
    rwa [Text.length_fold] at hle
  | false =>
    obtain ⟨hfind, hlength⟩ := occurrence?_word hphrase h
    obtain ⟨hle, hprefix, -⟩ := Text.find?_eq_some_iff.mp hfind
    -- a word stands where its folded form does, and is as long
    have hneedle := hprefix.length_le
    rw [List.length_drop] at hneedle
    rw [Text.length_fold s] at hle hneedle
    omega

/-- The places in bytes are those before the characters of the place. -/
theorem occurrenceBytes?_eq (term : Term) (s : List Char) :
    term.occurrenceBytes? s =
      some ((term.occurrence? s).map fun place =>
        (Text.byteOffset s place.1, Text.byteOffset s (place.1 + place.2))) := by
  rw [occurrenceBytes?, occurrence?]
  cases term.isPhrase with
  | true =>
    rw [if_pos rfl, if_pos rfl, Text.findPhraseBytes?_eq]
    simp only [Text.byteOffset_fold]
  | false =>
    rw [if_neg Bool.false_ne_true, if_neg Bool.false_ne_true, Text.find?_utf8]
    cases hfind : Text.find? (Text.fold term.text.toList) (Text.fold s) with
    | none => rfl
    | some start =>
      -- the needle ends as many bytes behind its start as it has
      obtain ⟨-, hprefix, -⟩ := Text.find?_eq_some_iff.mp hfind
      have hstop := Text.byteOffset_add (Text.fold s) start (Text.fold term.text.toList).length
      rw [Text.byteOffset_of_prefix hprefix, Text.byteOffset_fold, Text.byteOffset_fold] at hstop
      simp only [Option.map_some, Text.byteOffset_fold, hstop]

/-- The bytes before a place are those of the characters before it. -/
theorem charOffset_byteOffset {s : List Char} {i : Nat} (hi : i ≤ s.length) :
    Text.charOffset s (Text.byteOffset s i) = i := by
  rw [Text.charOffset, Text.splitBytes?_byteOffset hi]
  exact List.length_take_of_le hi

/-- The bytes between two places are those of the characters between them. -/
theorem sliceBytes_byteOffset {s : List Char} {i n : Nat} (h : i + n ≤ s.length) :
    Text.sliceBytes s (Text.byteOffset s i) (Text.byteOffset s (i + n)) = (s.drop i).take n := by
  have hn : n ≤ (s.drop i).length := by
    rw [List.length_drop]
    omega
  rw [Text.sliceBytes, Text.splitBytes?_byteOffset (by omega), Text.byteOffset_add,
    Nat.add_sub_cancel_left]
  simp only [Text.splitBytes?_byteOffset hn]
  rfl

/-- The search by bytes finds the hit of the search by characters. -/
theorem hitInBytes?_eq (term : Term) (item : Item) (field : Field) :
    term.hitInBytes? item field = some (term.hitIn? item field) := by
  rw [hitInBytes?, hitIn?]
  cases item.fieldText? field with
  | none => rfl
  | some text =>
    simp only [occurrenceBytes?_eq, Option.map_some, bind, Option.bind_some]
    cases hplace : term.occurrence? text.toList with
    | none => rfl
    | some place =>
      have hle := occurrence?_le hplace
      -- the bytes of the occurrence are those of its characters
      have hmatched := sliceBytes_byteOffset hle
      have hlength : ((text.toList.drop place.1).take place.2).length = place.2 := by
        rw [List.length_take, List.length_drop]
        omega
      simp only [Option.map_some, Option.bind_some, hitAtBytes, hmatched, hlength,
        charOffset_byteOffset (show place.1 ≤ text.toList.length by omega)]

end Term

end Curation
