import Curation.Query.Evaluation

/-!
# Highlights

A highlight shows a hit with some characters of the field around it. The highlight terms of a query
are the texts that a matching item may show: those of its terms that are not negated.

* `highlights`: one highlight for each place, in the order of its first hit.
* `Query.highlightTerms`: the terms in ascending order, each once.
-/

namespace Curation

/-- A place in a field, with the text around it. -/
structure Highlight where
  field : Field
  /-- The number of characters before the place. -/
  start : Nat
  /-- The number of characters up to the end of the place. -/
  stop : Nat
  /-- The text at the place and some characters around it. -/
  snippet : String
  deriving DecidableEq, Repr

/-- The greatest number of characters shown on each side of a place. -/
def maxContext : Nat := 40

/-- The characters of a text from `context` characters before a place to `context` characters after
it. -/
def snippet (s : List Char) (start stop context : Nat) : List Char :=
  (s.take (stop + context)).drop (start - context)

/-- The place of a hit: its field and its two ends. -/
def Hit.place (hit : Hit) : Field × Nat × Nat := (hit.field, hit.start, hit.stop)

/-- The hits without those whose place an earlier one has. -/
def distinctPlaces : List Hit → List Hit
  | [] => []
  | hit :: hits => hit :: (distinctPlaces hits).filter fun other => other.place != hit.place

def Hit.highlight? (hit : Hit) (item : Item) (context : Nat) : Option Highlight :=
  (item.fieldText? hit.field).map fun text =>
    { field := hit.field
      start := hit.start
      stop := hit.stop
      snippet := String.ofList (snippet text.toList hit.start hit.stop context) }

/-- One highlight for each place of the hits, with at most `maxContext` characters on each side. -/
def highlights (hits : List Hit) (item : Item) (context : Nat) : List Highlight :=
  (distinctPlaces hits).filterMap (·.highlight? item (min context maxContext))

/-- Puts a text at its place among texts in ascending order, unless it is there. -/
def insertText (text : String) : List String → List String
  | [] => [text]
  | other :: texts =>
    if text < other then text :: other :: texts
    else if text = other then other :: texts
    else other :: insertText text texts

namespace Query

mutual

/-- The texts of the terms that a match shows, as they come. -/
def shownTexts : Query → List String
  | .term t => if t.negated then [] else [t.text]
  | .not _ => []
  | .all queries => shownTextsOf queries
  | .any queries => shownTextsOf queries

/-- The texts of the terms that a match of one of the queries shows. -/
def shownTextsOf : List Query → List String
  | [] => []
  | query :: queries => query.shownTexts ++ shownTextsOf queries

end

/-- A text between its blanks and without regard to case, if anything is left. -/
def highlightTerm? (text : String) : Option String :=
  let trimmed := Text.trim text.toList
  if trimmed.isEmpty then none else some (String.ofList (Text.fold trimmed))

/-- The terms to highlight, in ascending order. -/
def highlightTerms (query : Query) : List String :=
  (query.shownTexts.filterMap highlightTerm?).foldr insertText []

end Query

end Curation
