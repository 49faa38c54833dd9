import Curation.Item

/-!
# Queries

A query asks for items by terms. A term is a word or a phrase, perhaps in one field only, perhaps
negated. Terms are combined by conjunction, alternative and negation; the empty conjunction asks
for nothing and matches every item.

* `Query.hasTerms`: whether a query asks for anything.
* `Query.induction`: properties that pass from the parts of a query to the query hold of all.
-/

namespace Curation

/-- A word or a phrase to look for. -/
structure Term where
  /-- The only field to look in, if there is one. -/
  field : Option Field := none
  /-- What to look for. -/
  text : String
  /-- Whether the text is a phrase, whose words may stand further apart. -/
  isPhrase : Bool := false
  /-- Whether an item matches if it lacks the text. -/
  negated : Bool := false
  deriving DecidableEq, Repr

/-- A term without text matches every item. -/
def Term.isVacuous (term : Term) : Bool := term.text.isEmpty

/-- What is asked of an item. -/
inductive Query where
  | term (term : Term)
  | not (query : Query)
  | all (queries : List Query)
  -- some query matches; the first that does tells the matches
  | any (queries : List Query)

namespace Query

/-- The query that asks for nothing. -/
def identity : Query := .all []

/-- Whether the query is the one that asks for nothing. -/
def isIdentity : Query → Bool
  | .all [] => true
  | _ => false

mutual

/-- Whether some term of the query has a text. -/
def hasTerms : Query → Bool
  | .term t => !t.isVacuous
  | .not query => query.hasTerms
  | .all queries => someHasTerms queries
  | .any queries => someHasTerms queries

/-- Whether some term of the queries has a text. -/
def someHasTerms : List Query → Bool
  | [] => false
  | query :: queries => query.hasTerms || someHasTerms queries

end

/-- A property that holds of terms, and of a query if it holds of its parts, holds of every
query. -/
theorem induction {motive : Query → Prop} (term : ∀ t, motive (.term t))
    (not : ∀ q, motive q → motive (.not q))
    (all : ∀ qs, (∀ q ∈ qs, motive q) → motive (.all qs))
    (any : ∀ qs, (∀ q ∈ qs, motive q) → motive (.any qs)) (q : Query) : motive q :=
  @Query.rec motive (fun qs => ∀ q ∈ qs, motive q) term
    (fun q hq => not q hq) (fun qs hqs => all qs hqs) (fun qs hqs => any qs hqs)
    (fun _ h => absurd h List.not_mem_nil)
    (fun _ _ hq hqs p hp => (List.mem_cons.1 hp).elim (fun e => e ▸ hq) (hqs p)) q

end Query

end Curation
