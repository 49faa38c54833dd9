import Curation.Query.Basic
import Curation.Text.Fold
import Curation.Text.Occurrence

/-!
# Evaluation of queries

A query is evaluated on an item: it does not match, or it matches by hits, the places where its
terms stand in the fields of the item. Texts are compared without regard to case. Negated terms and
negated queries match without hits.

* `Term.hitIn?`: where a term stands in a field.
* `Query.hits?`: the hits of a matching item.
-/

namespace Curation

/-- A place where a term stands in a field, counted in characters. -/
structure Hit where
  field : Field
  /-- The text at the place. -/
  matched : String
  /-- The number of characters before the place. -/
  start : Nat
  /-- The number of characters up to the end of the place. -/
  stop : Nat
  /-- The number of characters of the field. -/
  fieldLength : Nat
  /-- Whether the term is a phrase. -/
  isPhrase : Bool
  deriving DecidableEq, Repr

namespace Term

/-- The place and the length of the first occurrence of the term's text in a text. -/
def occurrence? (term : Term) (s : List Char) : Option (Nat × Nat) :=
  let needle := Text.fold term.text.toList
  if term.isPhrase then Text.findPhrase? needle (Text.fold s)
  else (Text.find? needle (Text.fold s)).map fun start => (start, needle.length)

/-- The first place in a field where the term's text stands. -/
def hitIn? (term : Term) (item : Item) (field : Field) : Option Hit := do
  let text ← item.fieldText? field
  let s := text.toList
  let (start, length) ← term.occurrence? s
  some
    { field
      matched := String.ofList ((s.drop start).take length)
      start
      stop := start + length
      fieldLength := s.length
      isPhrase := term.isPhrase }

/-- The first place where the term's text stands: in its field, or else in the first field that
holds it. -/
def hit? (term : Term) (item : Item) : Option Hit :=
  match term.field with
  | some field => term.hitIn? item field
  | none => Field.searchOrder.findSome? (term.hitIn? item)

/-- The hits of the term on a matching item. -/
def hits? (term : Term) (item : Item) : Option (List Hit) :=
  if term.isVacuous then some []
  else match term.hit? item, term.negated with
    | some hit, false => some [hit]
    | none, true => some []
    | _, _ => none

end Term

namespace Query

mutual

/-- The hits of the query on a matching item. -/
def hits? (item : Item) : Query → Option (List Hit)
  | .term t => t.hits? item
  | .not query =>
    match hits? item query with
    | some _ => none
    | none => some []
  | .all queries => hitsOfAll? item queries
  | .any queries => hitsOfAny? item queries

/-- The hits of all queries, if they all match. -/
def hitsOfAll? (item : Item) : List Query → Option (List Hit)
  | [] => some []
  | query :: queries =>
    match hits? item query with
    | some hits => (hitsOfAll? item queries).map (hits ++ ·)
    | none => none

/-- The hits of the first query that matches. -/
def hitsOfAny? (item : Item) : List Query → Option (List Hit)
  | [] => none
  | query :: queries =>
    match hits? item query with
    | some hits => some hits
    | none => hitsOfAny? item queries

end

/-- Whether the item matches the query. -/
def isMatch (query : Query) (item : Item) : Bool := (query.hits? item).isSome

end Query

end Curation
