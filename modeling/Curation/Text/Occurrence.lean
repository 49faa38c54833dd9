import Curation.Text.Blank

/-!
# Occurrences

Where a text occurs inside another, as places counted in characters.

A plain occurrence is the first place from which the text stands unbroken. A phrase is a text whose
words are separated by spaces; it occurs where its first word stands, followed by its other words
in order, with one blank character or more before each. The candidates for the first word are its
occurrences counted from the left without overlap.
-/

namespace Curation.Text

/-- The first place in a text, or in a list of bytes, from which `needle` stands unbroken. -/
def find? [BEq α] (needle : List α) : List α → Option Nat
  | [] => if needle.isEmpty then some 0 else none
  | c :: s =>
    if needle.isPrefixOf (c :: s) then some 0
    else (find? needle s).map (· + 1)

/-- Whether `needle` stands unbroken somewhere in `s`. -/
def contains (s needle : List Char) : Bool :=
  (find? needle s).isSome

/-- The number of characters at the front of `s` that hold the words in order, each after one blank
character or more. -/
def followedBy? : List (List Char) → List Char → Option Nat
  | [], _ => some 0
  | w :: ws, s =>
    let tail := trimStart s
    let gap := s.length - tail.length
    if gap = 0 || !w.isPrefixOf tail then none
    else (followedBy? ws (tail.drop w.length)).map (gap + w.length + ·)

/-- The place and the length of the first candidate for `first` that the words `rest` follow;
`wait` characters are passed over before the next candidate may start. -/
def findWords? (first : List Char) (rest : List (List Char)) : Nat → List Char → Option (Nat × Nat)
  | _, [] => none
  | wait + 1, _ :: s => (findWords? first rest wait s).map fun (at', n) => (at' + 1, n)
  | 0, c :: s =>
    let further (wait : Nat) := (findWords? first rest wait s).map fun (at', n) => (at' + 1, n)
    if first.isPrefixOf (c :: s) then
      match followedBy? rest ((c :: s).drop first.length) with
      | some n => some (0, first.length + n)
      | none => further (first.length - 1)
    else further 0

/-- The words of a phrase: its pieces between spaces that are not empty. -/
def phraseWords (phrase : List Char) : List (List Char) :=
  (pieces (· == ' ') phrase).filter (!·.isEmpty)

/-- The place and the length of the first occurrence of a phrase; a phrase without words occurs at
the start and is empty. -/
def findPhrase? (phrase s : List Char) : Option (Nat × Nat) :=
  match phraseWords phrase with
  | [] => some (0, 0)
  | first :: rest => findWords? first rest 0 s

end Curation.Text
