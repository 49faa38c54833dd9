import Curation.Query.Token

/-!
# Reading queries

Every text tells a query. The keyword `OR` separates alternatives; the terms between two of them
have to match together, whether or not `AND` stands between them. Keywords without terms beside
them mean nothing.

* `Query.groupsOf`: the terms of a token sequence, grouped by alternatives.
* `Query.parse`: the query that a text tells.
-/

namespace Curation.Query

/-- The terms between each two keywords `OR`, before the first and after the last one. -/
def groupsOf : List Token → List (List Term)
  | [] => [[]]
  | .or :: tokens => [] :: groupsOf tokens
  | .and :: tokens => groupsOf tokens
  | .term t :: tokens =>
    match groupsOf tokens with
    | [] => [[t]]
    | group :: groups => (t :: group) :: groups

/-- The query for terms that have to match together. -/
def ofGroup : List Term → Query
  | [t] => .term t
  | terms => .all (terms.map .term)

/-- The query for alternatives. -/
def ofGroups : List (List Term) → Query
  | [] => identity
  | [group] => ofGroup group
  | groups => .any (groups.map ofGroup)

/-- The query that tokens tell. -/
def ofTokens (tokens : List Token) : Query :=
  ofGroups ((groupsOf tokens).filter (!·.isEmpty))

/-- The query that a text tells. -/
def parse (text : String) : Query :=
  ofTokens ((lexemes text.toList).map (·.token))

end Curation.Query
