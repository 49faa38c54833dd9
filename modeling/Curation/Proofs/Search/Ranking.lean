import Mathlib.Data.List.Nodup
import Mathlib.Data.List.Perm.Subperm
import Curation.Proofs.Search.Order
import Curation.Proofs.Sort.Stable

/-!
# What a search finds

A search lists the items that it looks at, that match the query and that have a hit, each with its
score and its highlights, from the best on. Results that agree in all that they are ranked by keep
the order of the items. How results rank depends on nothing but the results themselves.

* `Query.entries`: what a search lists, in the order of the items.
* `IsRanking`: entries from the best on, with ties in their order.
* `IsRanking.unique`: entries are ranked in one way only.
* `isRanking_search`: a search without a limit ranks its entries.
* `search_ranks`: what a search answers.
* `search_of_subperm`: the results among some of the items are those among all of them.
-/

namespace Curation

/-- A search lists an item: it looks at the item, and the item matches the query with a hit. -/
def Query.Lists (query : Query) (options : SearchOptions) (item : Item) : Prop :=
  (options.includeArchived || !item.isArchived) ∧ query.isMatch item ∧
    (query.hits? item).getD [] ≠ []

instance (query : Query) (options : SearchOptions) (item : Item) :
    Decidable (query.Lists options item) := inferInstanceAs (Decidable (_ ∧ _))

/-- An item with the score and the highlights of its hits. -/
def Query.entry (query : Query) (options : SearchOptions) (item : Item) : SearchResult :=
  let hits := (query.hits? item).getD []
  { item
    found :=
      { score := totalScore hits
        highlights := highlights hits item options.snippetContextChars.toNat } }

/-- What a search lists, in the order of the items. -/
def Query.entries (query : Query) (options : SearchOptions) (items : List Item) :
    List SearchResult :=
  (items.filter (query.Lists options ·)).map (query.entry options)

/-- Results are entries from the best on, and entries that tie keep their order. -/
structure IsRanking (entries results : List SearchResult) : Prop where
  perm : results.Perm entries
  ordered : results.Pairwise fun a b => ¬ b.RanksBefore a
  stable (result : SearchResult) :
    results.filter (result.Ties ·) = entries.filter (result.Ties ·)

/-- An item that matches with a hit matches by all of its hits. -/
theorem Query.match?_eq {query : Query} {item : Item} (context : Nat) :
    query.match? item context =
      if query.isMatch item ∧ (query.hits? item).getD [] ≠ [] then
        some
          { score := totalScore ((query.hits? item).getD [])
            highlights := highlights ((query.hits? item).getD []) item context }
      else none := by
  rw [match?, isMatch]
  cases query.hits? item with
  | none => simp
  | some hits => cases hits <;> simp

/-- The results of a search are its entries. -/
theorem filterMap_result?_eq_entries (query : Query) (options : SearchOptions)
    (items : List Item) : (searchable options items).filterMap (query.result? options) =
      query.entries options items := by
  rw [searchable, Query.entries, ← List.filterMap_eq_map, List.filterMap_filter,
    List.filterMap_filter]
  refine List.filterMap_congr fun item _ => ?_
  rw [Query.result?, Query.match?_eq]
  -- an item is looked at, and it is found, or it gives no result
  by_cases hlooked : (options.includeArchived || !item.isArchived) = true
  · by_cases hfound : query.isMatch item ∧ (query.hits? item).getD [] ≠ []
    · rw [if_pos hlooked, if_pos hfound, if_pos (decide_eq_true ⟨hlooked, hfound⟩)]
      rfl
    · rw [if_pos hlooked, if_neg hfound, if_neg fun h => hfound (of_decide_eq_true h).2]
      rfl
  · rw [if_neg hlooked, if_neg fun h => hlooked (of_decide_eq_true h).1]

/-- A result is not after another one if that one does not rank before it. -/
theorem isLE_compareResults_iff {a b : SearchResult} :
    (compareResults a b).isLE ↔ ¬ b.RanksBefore a := by
  rw [← compareResults_eq_lt, compareResults_swap b a]
  cases compareResults a b <;> simp

/-- Of two results that do not tie, one ranks before the other one. -/
theorem ties_of_not_ranksBefore {a b : SearchResult} (hab : ¬ a.RanksBefore b)
    (hba : ¬ b.RanksBefore a) : a.Ties b := by
  rw [← compareResults_eq_eq]
  exact Std.OrientedCmp.isLE_antisymm (isLE_compareResults_iff.mpr hba)
    (isLE_compareResults_iff.mpr hab)

/-- The ties of a result are those that the comparison finds equal to it. -/
theorem decide_ties_eq (a b : SearchResult) :
    decide (a.Ties b) = (compareResults a b == .eq) := by
  rw [Bool.eq_iff_iff, decide_eq_true_eq, beq_iff_eq, compareResults_eq_eq]

/-- Sorting ranks entries. -/
theorem isRanking_mergeSort (entries : List SearchResult) :
    IsRanking entries (entries.mergeSort fun a b => (compareResults a b).isLE) where
  perm := List.mergeSort_perm ..
  ordered := (pairwise_mergeSort compareResults entries).imp isLE_compareResults_iff.mp
  stable result := by
    simp only [decide_ties_eq]
    exact filter_mergeSort compareResults result entries

namespace IsRanking

variable {entries results : List SearchResult}

/-- Results that tie only if they are equal are ranked in one way, whatever their order was. -/
theorem eq_of_perm {others : List SearchResult} (h : IsRanking entries results)
    (hothers : others.Pairwise fun a b => ¬ b.RanksBefore a) (hperm : results.Perm others)
    (hties : ∀ a ∈ entries, ∀ b ∈ entries, a.Ties b → a = b) : results = others := by
  refine List.Perm.eq_of_pairwise (fun a b ha hb hba hab => ?_) h.ordered hothers hperm
  exact hties a (h.perm.mem_iff.mp ha) b (h.perm.mem_iff.mp (hperm.mem_iff.mpr hb))
    (ties_of_not_ranksBefore hab hba)

/-- Entries are ranked in one way only. -/
theorem unique {others : List SearchResult} (h : IsRanking entries results)
    (hothers : IsRanking entries others) : results = others := by
  refine eq_of_stable compareResults (h.perm.trans hothers.perm.symm)
    (h.ordered.imp isLE_compareResults_iff.mpr) (hothers.ordered.imp isLE_compareResults_iff.mpr)
    fun result => ?_
  have hstable := (h.stable result).trans (hothers.stable result).symm
  simpa only [decide_ties_eq] using hstable

end IsRanking

section Search

/-- A search without a limit ranks its entries. -/
theorem isRanking_search (query : Query) (options : SearchOptions) (items : List Item) :
    IsRanking (query.entries options items)
      (search query { options with maxResults := none } items).results := by
  rw [← filterMap_result?_eq_entries]
  exact isRanking_mergeSort _

/-- A search for a text ranks its entries: the items that it looks at, that match the query of the
text and that have a hit, each as often as it stands among the items, with its score and its
highlights. With a limit it answers the first of them up to the limit, but counts them all. -/
theorem search_ranks (text : String) (options : SearchOptions) (items : List Item) :
    let query := Query.parse text
    let ranking := (search query { options with maxResults := none } items).results
    let outcome := search query options items
    IsRanking (query.entries options items) ranking ∧
      (∀ result ∈ ranking,
        query.match? result.item options.snippetContextChars.toNat = some result.found) ∧
      outcome.results = options.maxResults.elim ranking (ranking.take ·.toNat) ∧
      outcome.count = ranking.length ∧
      (outcome.truncated ↔ ∃ limit ∈ options.maxResults, limit.toNat < outcome.count) ∧
      outcome.scanned =
        (items.filter fun item => options.includeArchived || !item.isArchived).length := by
  intro query ranking outcome
  have hranking : IsRanking (query.entries options items) ranking :=
    isRanking_search query options items
  refine ⟨hranking, fun result hresult => ?_, ?_, rfl, ?_, rfl⟩
  · obtain ⟨item, hitem, rfl⟩ := List.mem_map.mp (hranking.perm.mem_iff.mp hresult)
    have hlists : query.Lists options item := of_decide_eq_true (List.mem_filter.mp hitem).2
    exact (Query.match?_eq _).trans (if_pos hlists.2)
  · show (search query options items).results = _
    rw [search]
    -- without a limit all results are kept
    cases options.maxResults <;> rfl
  · show (search query options items).truncated = true ↔ _
    rw [search]
    cases options.maxResults <;> simp [outcome, search]

/-- Some of several items, in whatever order, are those among all of them that are theirs. -/
theorem filter_mem_perm {xs ys : List Item} (hxs : xs.Nodup) (hys : ys.Subperm xs) :
    (xs.filter (· ∈ ys)).Perm ys := by
  obtain ⟨zs, hperm, hsublist⟩ := hys
  have hnodup : ys.Nodup := hperm.nodup_iff.mp (hxs.sublist hsublist)
  refine (List.perm_ext_iff_of_nodup (hxs.filter _) hnodup).mpr fun item => ?_
  simp only [List.mem_filter, decide_eq_true_eq, and_iff_right_iff_imp]
  exact fun hitem => hsublist.subset (hperm.mem_iff.mpr hitem)

/-- Entries of some of the items are those among the entries of all items that are theirs. -/
theorem entries_perm {xs ys : List Item} (query : Query) (options : SearchOptions)
    (hxs : xs.Nodup) (hys : ys.Subperm xs) :
    (query.entries options ys).Perm ((query.entries options xs).filter (·.item ∈ ys)) := by
  rw [Query.entries, Query.entries, List.filter_map, List.filter_comm]
  exact (((filter_mem_perm hxs hys).filter _).map _).symm

/-- The results among some of the items, in whatever order these stand, are the results among all
items that are theirs, in the same order. -/
theorem search_of_subperm (query : Query) (options : SearchOptions) {xs ys : List Item}
    (hids : (xs.map (·.id)).Nodup) (hys : ys.Subperm xs) :
    (search query { options with maxResults := none } ys).results =
      (search query { options with maxResults := none } xs).results.filter (·.item ∈ ys) := by
  have hall := isRanking_search query options xs
  have hsome := isRanking_search query options ys
  have hperm := entries_perm query options (List.Nodup.of_map _ hids) hys
  refine hsome.eq_of_perm (hall.ordered.filter _)
    (hsome.perm.trans (hperm.trans (hall.perm.filter _).symm)) ?_
  -- entries that tie have one id, so they are of one item, of which they tell the same
  intro a ha b hb hties
  obtain ⟨item, hitem, rfl⟩ := List.mem_map.mp ha
  obtain ⟨other, hother, rfl⟩ := List.mem_map.mp hb
  have hxs : ∀ {item}, item ∈ ys.filter (query.Lists options ·) → item ∈ xs := fun h =>
    hys.subset (List.mem_of_mem_filter h)
  exact congrArg _ (List.inj_on_of_nodup_map hids (hxs hitem) (hxs hother) hties.2.2.2)

/-- An item that has no news, and two that have. -/
def newsItems : List Item :=
  [{ id := "music", title := "Music", collectionName := "Daily", dateAdded := ⟨0, 0⟩ },
    { id := "news", title := "News", collectionName := "Daily", dateAdded := ⟨0, 0⟩ },
    { id := "tech", title := "Tech News", collectionName := "Daily", dateAdded := ⟨0, 0⟩ }]

/-- A search in two of three items, in another order, finds what the search in all finds of them. -/
theorem search_of_subperm_news :
    let found := search (Query.parse "news") {} newsItems.dropLast.reverse
    found.results =
        (search (Query.parse "news") {} newsItems).results.filter
          (·.item ∈ newsItems.dropLast.reverse) ∧
      found.results.map (·.item.id) = ["news"] := by
  have hsubperm : newsItems.dropLast.reverse.Subperm newsItems :=
    ⟨newsItems.dropLast, (List.reverse_perm _).symm, newsItems.dropLast_sublist⟩
  exact ⟨search_of_subperm (Query.parse "news") {} (by decide +kernel) hsubperm,
    by decide +kernel⟩

end Search

end Curation
