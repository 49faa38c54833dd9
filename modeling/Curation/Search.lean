import Curation.Query.Highlight
import Curation.Query.Reader
import Curation.Query.Score

/-!
# Search

A search finds the items that match a query with a hit, and ranks them: by score, then by date of
publication from the latest on with items without one last, then by title, then by id. Archived
items are passed over unless they are asked for.

* `Query.match?`: how an item matches a query.
* `search`: the ranked matches among items, cut to the number asked for.
-/

namespace Curation

/-- How an item matches a query. -/
structure Match where
  /-- What the hits count. -/
  score : Double
  /-- The places of the hits. -/
  highlights : List Highlight
  deriving DecidableEq, Repr

/-- How the item matches the query, if it does with a hit. -/
def Query.match? (query : Query) (item : Item) (context : Nat) : Option Match :=
  match query.hits? item with
  | none => none
  | some [] => none
  | some hits => some { score := totalScore hits, highlights := highlights hits item context }

/-- What a search takes into account. -/
structure SearchOptions where
  /-- Whether archived items are looked at. -/
  includeArchived : Bool := false
  /-- The greatest number of results, if there is one. -/
  maxResults : Option UInt64 := none
  /-- The number of characters to show on each side of a hit. -/
  snippetContextChars : UInt64 := 40
  deriving DecidableEq, Repr

/-- An item that matches, and how. -/
structure SearchResult where
  item : Item
  /-- How it matches. -/
  found : Match
  deriving DecidableEq, Repr

/-- What a search finds. -/
structure SearchOutcome where
  /-- The best results, from the best on. -/
  results : List SearchResult
  /-- The number of matches, results left out included. -/
  count : Nat
  /-- Whether results were left out. -/
  truncated : Bool
  /-- The number of items looked at. -/
  scanned : Nat
  highlightTerms : List String
  deriving DecidableEq, Repr

/-- The order of dates of publication: from the latest on, and none last. -/
def compareRecency : Option Instant → Option Instant → Ordering
  | some a, some b => compare b a
  | some _, none => .lt
  | none, some _ => .gt
  | none, none => .eq

/-- The order of results, from the best on. -/
def compareResults (a b : SearchResult) : Ordering :=
  (b.found.score.totalOrder a.found.score).then <|
    (compareRecency a.item.publishDate b.item.publishDate).then <|
      (Text.compareText a.item.title b.item.title).then (compare a.item.id b.item.id)

/-- The items that a search looks at. -/
def searchable (options : SearchOptions) (items : List Item) : List Item :=
  items.filter fun item => options.includeArchived || !item.isArchived

/-- The result for an item, if it matches with a hit. -/
def Query.result? (query : Query) (options : SearchOptions) (item : Item) :
    Option SearchResult :=
  (query.match? item options.snippetContextChars.toNat).map (SearchResult.mk item)

/-- The results among items, from the best on; equal ones keep their order. -/
def rankedResults (query : Query) (options : SearchOptions) (items : List Item) :
    List SearchResult :=
  ((searchable options items).filterMap (query.result? options)).mergeSort fun a b =>
    (compareResults a b).isLE

/-- Searches items by a query. -/
def search (query : Query) (options : SearchOptions) (items : List Item) : SearchOutcome :=
  let results := rankedResults query options items
  { results := match options.maxResults with
      | some limit => results.take limit.toNat
      | none => results
    count := results.length
    truncated := match options.maxResults with
      | some limit => limit.toNat < results.length
      | none => false
    scanned := (searchable options items).length
    highlightTerms := query.highlightTerms }

end Curation
