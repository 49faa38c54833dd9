import Curation.Proofs.Text.Spacing
import Curation.Query.Token

/-!
# Writing queries

The written form of a query, for the queries that texts tell: terms, conjunctions of terms, and
alternatives of these.

* `Query.write`: the written form.
* `Query.IsCanonical`: the queries that have the shape of a text.
* `Term.IsWritable`: the terms whose written form cannot be taken for anything else.
-/

namespace Curation

/-- The text of a phrase between its quotes, with a backslash before every backslash and every
quote. -/
def escapePhrase : List Char → List Char
  | [] => []
  | c :: s => if c = '\\' ∨ c = '"' then '\\' :: c :: escapePhrase s else c :: escapePhrase s

namespace Term

/-- The dash of a negated term. -/
def writeDash (t : Term) : List Char := if t.negated then ['-'] else []

/-- The field of a term, if it has one, with a colon. -/
def writeField (t : Term) : List Char :=
  match t.field with
  | some field => field.name.toList ++ [':']
  | none => []

/-- A word as it is, and a phrase between quotes. -/
def writeText (t : Term) : List Char :=
  if t.isPhrase then '"' :: (escapePhrase t.text.toList ++ ['"']) else t.text.toList

/-- The written form of a term. -/
def write (t : Term) : List Char := t.writeDash ++ t.writeField ++ t.writeText

/-- The word can be written as it is: it holds no blank character, cannot be taken for a phrase,
and, if the term has no field, cannot be taken for nothing, for a word in a field, for a keyword
or for a negated word. -/
structure IsWritableWord (t : Term) : Prop where
  /-- No character is blank. -/
  not_blank : ∀ c ∈ t.text.toList, Text.isBlank c = false
  /-- The word does not start with a quote. -/
  not_quote : t.text.toList.head? ≠ some '"'
  /-- Without a field, the word is not empty. -/
  not_empty : t.field = none → t.text ≠ ""
  /-- Without a field, what stands before the first colon names no field. -/
  not_field : t.field = none → ∀ name rest, t.text.toList = name ++ ':' :: rest → ':' ∉ name →
    Field.ofName? (String.ofList name) = none
  /-- Without a field and a dash, the word is no keyword. -/
  not_keyword : t.field = none → t.negated = false → t.text ≠ "AND" ∧ t.text ≠ "OR"
  /-- Without a field and a dash, the word does not start with a dash, except as the dash alone. -/
  not_dash : t.field = none → t.negated = false → t.text.toList.head? = some '-' → t.text = "-"

/-- The written form of the term tells the term. -/
structure IsWritable (t : Term) : Prop where
  /-- A phrase is single-spaced. -/
  phrase : t.isPhrase = true → Text.IsSingleSpaced t.text.toList
  /-- A word can be written as it is. -/
  word : t.isPhrase = false → t.IsWritableWord

end Term

namespace Query

mutual

/-- The terms of the query, from left to right. -/
def terms : Query → List Term
  | .term t => [t]
  | .not query => query.terms
  | .all queries => termsOfEach queries
  | .any queries => termsOfEach queries

/-- The terms of the queries, from left to right. -/
def termsOfEach : List Query → List Term
  | [] => []
  | query :: queries => query.terms ++ termsOfEach queries

end

mutual

/-- The written form of the query: spaces between what has to match together, and the keyword `OR`
between alternatives. Texts have no way to negate more than a term, so a negated query gets a dash
like a term; no canonical query holds one. -/
def write : Query → List Char
  | .term t => t.write
  | .not query => '-' :: query.write
  | .all queries => [' '].intercalate (writeEach queries)
  | .any queries => [' ', 'O', 'R', ' '].intercalate (writeEach queries)

/-- The written forms of the queries. -/
def writeEach : List Query → List (List Char)
  | [] => []
  | query :: queries => query.write :: writeEach queries

end

/-- One term, or two terms or more that have to match together. -/
inductive IsConjunction : Query → Prop
  | term (t : Term) : IsConjunction (.term t)
  | all {ts : List Term} (hlen : 2 ≤ ts.length) : IsConjunction (.all (ts.map .term))

/-- The query that asks for nothing, a conjunction of terms, or two conjunctions or more as
alternatives. -/
inductive IsCanonical : Query → Prop
  | identity : IsCanonical (.all [])
  | conjunction {query : Query} (h : IsConjunction query) : IsCanonical query
  | any {queries : List Query} (hlen : 2 ≤ queries.length)
      (h : ∀ query ∈ queries, IsConjunction query) : IsCanonical (.any queries)

theorem termsOfEach_eq_flatMap (queries : List Query) :
    termsOfEach queries = queries.flatMap terms := by
  induction queries with
  | nil => rfl
  | cons query queries ih => rw [termsOfEach, ih, List.flatMap_cons]

theorem writeEach_eq_map (queries : List Query) : writeEach queries = queries.map write := by
  induction queries with
  | nil => rfl
  | cons query queries ih => rw [writeEach, ih, List.map_cons]

end Query

end Curation
