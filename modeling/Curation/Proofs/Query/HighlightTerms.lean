import Mathlib.Data.List.Basic
import Curation.Proofs.Query.Grouping
import Curation.Proofs.Query.Meaning
import Curation.Proofs.Text.Collapsing
import Curation.Search

/-!
# Highlight terms

The highlight terms of a query are collected from its terms, without a look at any item. They are
all that a match can show: a hit of a query that is read from a text shows one of them, once it is
folded and its blanks are collapsed.

* `Query.mem_highlightTerms_iff`: the texts that highlight terms are made of.
* `Term.IsMadeOf`: the words that the text of a term is made of.
* `Query.highlightTerms_parse`: the highlight terms of a text, and the hits that show them.
-/

namespace Curation

/-! ## Texts in ascending order -/

/-- A text is inserted, and no other one is added or lost. -/
theorem mem_insertText {text other : String} {texts : List String} :
    other ∈ insertText text texts ↔ other = text ∨ other ∈ texts := by
  induction texts with
  | nil => rw [insertText, List.mem_singleton, or_iff_left List.not_mem_nil]
  | cons first texts ih =>
    rw [insertText]
    split
    · exact List.mem_cons
    · split
      -- the text is there already, and is not inserted again
      · next heq =>
        rw [heq, List.mem_cons, or_iff_right_of_imp Or.inl]
      · rw [List.mem_cons, ih, List.mem_cons, or_left_comm]

/-- Texts in ascending order stay so if one is inserted. -/
theorem pairwise_insertText {text : String} {texts : List String}
    (h : texts.Pairwise (· < ·)) : (insertText text texts).Pairwise (· < ·) := by
  induction texts with
  | nil => exact List.pairwise_singleton _ _
  | cons first texts ih =>
    obtain ⟨hfirst, hrest⟩ := List.pairwise_cons.mp h
    rw [insertText]
    split
    · next hlt =>
      refine List.pairwise_cons.mpr ⟨fun other hother => ?_, h⟩
      rcases List.mem_cons.mp hother with rfl | hother
      · exact hlt
      · exact String.lt_trans hlt (hfirst other hother)
    · split
      · exact h
      · next hnot hne =>
        -- the text comes behind the first one, and so does all that follows it
        have hgt : first < text := Std.lt_of_le_of_ne (String.not_lt.mp hnot) (Ne.symm hne)
        refine List.pairwise_cons.mpr ⟨fun other hother => ?_, ih hrest⟩
        rcases mem_insertText.mp hother with rfl | hother
        · exact hgt
        · exact hfirst other hother

namespace Query

/-! ## Terms that may be shown -/

section HasOpenTerm

variable {query : Query} {queries : List Query} {t u : Term}

theorem hasOpenTerm_term_iff : (Query.term u).HasOpenTerm t ↔ t = u := by
  constructor
  · rintro ⟨⟩
    rfl
  · rintro rfl
    exact .term

theorem not_hasOpenTerm_not : ¬ (Query.not query).HasOpenTerm t := by
  rintro ⟨⟩

/-- The open terms of a conjunction are those of its parts. -/
theorem hasOpenTerm_all_iff :
    (Query.all queries).HasOpenTerm t ↔ ∃ query ∈ queries, query.HasOpenTerm t := by
  constructor
  · rintro (_ | ⟨hmem, h⟩ | _)
    exact ⟨_, hmem, h⟩
  · rintro ⟨query, hmem, h⟩
    exact .all hmem h

theorem hasOpenTerm_any_iff :
    (Query.any queries).HasOpenTerm t ↔ ∃ query ∈ queries, query.HasOpenTerm t := by
  constructor
  · rintro (_ | _ | ⟨hmem, h⟩)
    exact ⟨_, hmem, h⟩
  · rintro ⟨query, hmem, h⟩
    exact .any hmem h

/-- All terms of a conjunction of terms are open. -/
theorem IsConjunction.hasOpenTerm_iff (h : query.IsConjunction) :
    query.HasOpenTerm t ↔ t ∈ query.terms := by
  cases h with
  | term u => rw [hasOpenTerm_term_iff, terms, List.mem_singleton]
  | all hlen =>
    rw [hasOpenTerm_all_iff, terms, termsOfEach_eq_flatMap, List.mem_flatMap]
    refine exists_congr fun query => and_congr_right fun hmem => ?_
    obtain ⟨u, -, rfl⟩ := List.mem_map.mp hmem
    rw [hasOpenTerm_term_iff, terms, List.mem_singleton]

/-- No term of a canonical query stands under a negation. -/
theorem IsCanonical.hasOpenTerm_iff (h : query.IsCanonical) :
    query.HasOpenTerm t ↔ t ∈ query.terms := by
  cases h with
  | identity => simp [hasOpenTerm_all_iff, terms, termsOfEach]
  | conjunction h => exact h.hasOpenTerm_iff
  | any hlen h =>
    rw [hasOpenTerm_any_iff, terms, termsOfEach_eq_flatMap, List.mem_flatMap]
    exact exists_congr fun query => and_congr_right fun hmem => (h query hmem).hasOpenTerm_iff

theorem shownTextsOf_eq_flatMap (queries : List Query) :
    shownTextsOf queries = queries.flatMap shownTexts := by
  induction queries with
  | nil => rfl
  | cons query queries ih => rw [shownTextsOf, ih, List.flatMap_cons]

/-- What holds of the texts that each of the queries shows holds of those that they show. -/
theorem mem_shownTextsOf_iff {text : String}
    (h : ∀ query ∈ queries, (text ∈ query.shownTexts ↔
      ∃ t, query.HasOpenTerm t ∧ t.negated = false ∧ t.text = text)) :
    text ∈ shownTextsOf queries ↔
      ∃ t, (∃ query ∈ queries, query.HasOpenTerm t) ∧ t.negated = false ∧ t.text = text := by
  rw [shownTextsOf_eq_flatMap, List.mem_flatMap]
  constructor
  · rintro ⟨query, hmem, htext⟩
    obtain ⟨t, ht, hshown⟩ := (h query hmem).mp htext
    exact ⟨t, ⟨query, hmem, ht⟩, hshown⟩
  · rintro ⟨t, ⟨query, hmem, ht⟩, hshown⟩
    exact ⟨query, hmem, (h query hmem).mpr ⟨t, ht, hshown⟩⟩

/-- The texts shown are those of the terms that are not negated and stand under no negation. -/
theorem mem_shownTexts_iff {text : String} :
    text ∈ query.shownTexts ↔ ∃ t, query.HasOpenTerm t ∧ t.negated = false ∧ t.text = text := by
  induction query using Query.induction with
  | term u =>
    simp only [hasOpenTerm_term_iff, exists_eq_left]
    rw [shownTexts]
    cases u.negated <;> simp [eq_comm]
  | not query ih => simp [shownTexts, not_hasOpenTerm_not]
  | all queries ih => simpa only [shownTexts, hasOpenTerm_all_iff] using mem_shownTextsOf_iff ih
  | any queries ih => simpa only [shownTexts, hasOpenTerm_any_iff] using mem_shownTextsOf_iff ih

end HasOpenTerm

/-- The highlight terms are what is left of the texts of the terms that may be shown. -/
theorem mem_highlightTerms_iff {query : Query} {term : String} :
    term ∈ query.highlightTerms ↔
      ∃ t, query.HasOpenTerm t ∧ t.negated = false ∧ highlightTerm? t.text = some term := by
  -- no text is lost or added where the texts are put in order
  have hfold : ∀ texts : List String, term ∈ texts.foldr insertText [] ↔ term ∈ texts := by
    intro texts
    induction texts with
    | nil => rfl
    | cons text texts ih => rw [List.foldr_cons, mem_insertText, ih, List.mem_cons]
  rw [highlightTerms, hfold, List.mem_filterMap]
  constructor
  · rintro ⟨text, hshown, hterm⟩
    obtain ⟨t, ht, hnegated, rfl⟩ := mem_shownTexts_iff.mp hshown
    exact ⟨t, ht, hnegated, hterm⟩
  · rintro ⟨t, ht, hnegated, hterm⟩
    exact ⟨t.text, mem_shownTexts_iff.mpr ⟨t, ht, hnegated, rfl⟩, hterm⟩

/-- Highlight terms are in strictly ascending order. -/
theorem pairwise_highlightTerms (query : Query) : query.highlightTerms.Pairwise (· < ·) := by
  rw [highlightTerms]
  induction query.shownTexts.filterMap highlightTerm? with
  | nil => exact List.Pairwise.nil
  | cons text texts ih => exact pairwise_insertText ih

end Query

/-! ## The words of a term -/

/-- The text of a term is made of words with single spaces between them. -/
structure Term.IsMadeOf (t : Term) (words : List (List Char)) : Prop where
  /-- The words are not empty and hold no blank characters. -/
  areWords : Text.AreWords words
  /-- One space stands between each two words. -/
  text : t.text.toList = [' '].intercalate words

/-- The text of a term that is read is made of words. -/
theorem Token.exists_isMadeOf_of_scanText {field : Option Field} {negated : Bool} {s : List Char}
    {t : Term} (h : (scanText field negated s).1 = .term t) : ∃ words, t.IsMadeOf words := by
  -- a word has no blank characters, so it is one word, unless it is empty
  have hword : ∃ words, Text.AreWords words ∧ word s = [' '].intercalate words := by
    by_cases hne : word s = []
    · exact ⟨[], fun w hw => absurd hw List.not_mem_nil, hne⟩
    · exact ⟨[word s], List.forall_mem_singleton.mpr ⟨hne, fun c => not_blank_of_mem_word⟩,
        (List.intercalate_singleton).symm⟩
  obtain ⟨words, hwords, htext⟩ := hword
  unfold scanText at h
  split at h
  · split at h
    · next text n hclose =>
      cases h
      exact ⟨Text.words text, fun w hw => Text.mem_words hw, String.toList_ofList⟩
    · cases h
      exact ⟨words, hwords, by rw [String.toList_ofList, htext]⟩
  · cases h
    exact ⟨words, hwords, by rw [String.toList_ofList, htext]⟩

/-- The text of a term that is scanned is made of words. -/
theorem Token.exists_isMadeOf_of_scan {s : List Char} {t : Term} (h : (scan s).1 = .term t) :
    ∃ words, t.IsMadeOf words := by
  rw [scan] at h
  split at h
  · cases h
  · split at h
    · cases h
    · rw [scanTerm_eq] at h
      exact exists_isMadeOf_of_scanText h

/-- The text of every term of a query that is read from a text is made of words. -/
theorem Query.exists_isMadeOf_of_mem_terms {text : String} {t : Term}
    (h : t ∈ (parse text).terms) : ∃ words, t.IsMadeOf words := by
  rw [parse_eq, terms_ofTokens, List.mem_filterMap] at h
  -- the token of the term was scanned somewhere in the text
  obtain ⟨token, htoken, hterm⟩ := h
  obtain ⟨lexeme, hlexeme, rfl⟩ := List.mem_map.mp htoken
  obtain ⟨c, rest, -, hscan, -⟩ := exists_scan_of_mem_lexemes hlexeme
  refine Token.exists_isMadeOf_of_scan (s := c :: rest) ?_
  rw [← hscan]
  cases hkind : lexeme.token with
  | and | or =>
    rw [hkind] at hterm
    cases hterm
  | term u =>
    rw [hkind] at hterm
    cases hterm
    rfl

namespace Term.IsMadeOf

variable {t : Term} {words : List (List Char)}

/-- The folded text of a term is made of its folded words. -/
theorem fold_text (h : t.IsMadeOf words) :
    Text.fold t.text.toList = [' '].intercalate (words.map Text.fold) := by
  rw [h.text, Text.fold_intercalate]

/-- Nothing is trimmed of the text, so all of it is highlighted. -/
theorem highlightTerm?_eq_some_iff (h : t.IsMadeOf words) {term : String} :
    Query.highlightTerm? t.text = some term ↔ t.text ≠ "" ∧ term = Text.foldString t.text := by
  -- words with single spaces have no blanks around them
  have htrim : Text.trim t.text.toList = t.text.toList := by
    rw [h.text, Text.trim_intercalate h.areWords]
  have hempty : t.text.toList.isEmpty = true ↔ t.text = "" := by
    rw [List.isEmpty_iff, String.toList_eq_nil_iff]
  rw [Query.highlightTerm?, htrim]
  split
  · next hnil => simp [hempty.mp hnil]
  · next hne =>
    rw [hempty] at hne
    simp [hne, Text.foldString, eq_comm]

/-- Once it is folded and its blanks are collapsed, what a hit shows is the folded text of its
term. -/
theorem collapse_matched (h : t.IsMadeOf words) {hit : Hit} {s : List Char}
    (hmarks : hit.MarksIn t s) :
    Text.collapse (Text.fold hit.matched.toList) = Text.fold t.text.toList := by
  have hwords := Text.areWords_map_fold h.areWords
  cases hphrase : t.isPhrase with
  | false =>
    -- a word stands as it is, so its text is shown with the spaces that it has
    rw [(hmarks.word hphrase).1, h.fold_text, Text.collapse_intercalate hwords]
  | true =>
    have hspaced := (hmarks.phrase hphrase).2
    rw [h.fold_text, Text.phraseWords_intercalate hwords] at hspaced
    rw [Text.collapse_of_isSpaced hwords hspaced, h.fold_text]

end Term.IsMadeOf

namespace Query

variable {query : Query} {item : Item}

/-- Without hits there is no match. -/
theorem match?_of_hits_eq_nil (h : (query.hits? item).getD [] = []) (context : Nat) :
    query.match? item context = none := by
  rw [match?]
  split
  · rfl
  · rfl
  · next hits hne hhits =>
    rw [hhits, Option.getD_some] at h
    exact absurd h hne

/-- Where no item has hits, a search finds nothing. -/
theorem search_of_hits_eq_nil {items : List Item}
    (h : ∀ item ∈ items, (query.hits? item).getD [] = []) (options : SearchOptions) :
    (search query options items).results = [] ∧ (search query options items).count = 0 := by
  -- an item without hits gives no result
  have hnone : (searchable options items).filterMap (query.result? options) = [] := by
    rw [List.filterMap_eq_nil_iff]
    intro item hitem
    rw [result?, match?_of_hits_eq_nil (h item (List.mem_filter.mp hitem).1), Option.map_none]
  have hranked : rankedResults query options items = [] := by
    rw [rankedResults, hnone, List.mergeSort_nil]
  rw [search, hranked]
  refine ⟨?_, rfl⟩
  -- cut to any length, a list without results has none
  cases options.maxResults with
  | none => rfl
  | some limit => exact List.take_nil

/-- The highlight terms of a text are the folded texts of its terms that ask for something. -/
theorem mem_highlightTerms_parse {text term : String} :
    term ∈ (parse text).highlightTerms ↔
      ∃ t ∈ (parse text).terms, t.negated = false ∧ t.text ≠ "" ∧
        term = Text.foldString t.text := by
  -- the query of a text negates single terms only, so that each of its terms may be shown
  have hcanonical : (parse text).IsCanonical := isCanonical_ofTokens _
  rw [mem_highlightTerms_iff]
  refine exists_congr fun t => ?_
  rw [hcanonical.hasOpenTerm_iff]
  refine and_congr_right fun ht => and_congr_right fun _ => ?_
  obtain ⟨words, hwords⟩ := exists_isMadeOf_of_mem_terms ht
  exact hwords.highlightTerm?_eq_some_iff

/-- What a hit shows is a highlight term, once it is folded and its blanks are collapsed. -/
theorem collapse_matched_mem_highlightTerms {text : String} {item : Item} {hits : List Hit}
    (h : (parse text).hits? item = some hits) {hit : Hit} (hmem : hit ∈ hits) :
    String.ofList (Text.collapse (Text.fold hit.matched.toList)) ∈
      (parse text).highlightTerms := by
  have hcanonical : (parse text).IsCanonical := isCanonical_ofTokens _
  obtain ⟨t, ht, hnegated, hne, hmarks⟩ := marks_of_mem_hits? h hmem
  rw [hcanonical.hasOpenTerm_iff] at ht
  obtain ⟨words, hwords⟩ := exists_isMadeOf_of_mem_terms ht
  obtain ⟨fieldText, -, hin⟩ := hmarks.marksIn
  rw [hwords.collapse_matched hin, mem_highlightTerms_parse]
  exact ⟨t, ht, hnegated, hne, rfl⟩

/-- The highlight terms of a text are in strictly ascending order, and they are the folded texts of
its terms that are not negated and have a text. What a hit on any item shows is one of them, once it
is folded and its blanks are collapsed; so without them a search finds nothing. -/
theorem highlightTerms_parse (text : String) :
    let query := parse text
    query.highlightTerms.Pairwise (· < ·) ∧
    (∀ term, term ∈ query.highlightTerms ↔
      ∃ t ∈ query.terms, t.negated = false ∧ t.text ≠ "" ∧ term = Text.foldString t.text) ∧
    (∀ item, ∀ hit ∈ (query.hits? item).getD [],
      String.ofList (Text.collapse (Text.fold hit.matched.toList)) ∈ query.highlightTerms) ∧
    (query.highlightTerms = [] → ∀ options items,
      (search query options items).results = [] ∧ (search query options items).count = 0) := by
  intro query
  have hhits : ∀ item, ∀ hit ∈ (query.hits? item).getD [],
      String.ofList (Text.collapse (Text.fold hit.matched.toList)) ∈ query.highlightTerms := by
    intro item hit hmem
    obtain ⟨hits, hfound, hmem⟩ := exists_hits?_of_mem hmem
    exact collapse_matched_mem_highlightTerms hfound hmem
  refine ⟨pairwise_highlightTerms query, fun term => mem_highlightTerms_parse, hhits,
    fun hnone options items => search_of_hits_eq_nil (fun item _ => ?_) options⟩
  -- a hit on any item would show a highlight term, and there is none
  rw [List.eq_nil_iff_forall_not_mem]
  intro hit hmem
  have hshown := hhits item hit hmem
  rw [hnone] at hshown
  exact List.not_mem_nil hshown

/-- A text without highlight terms is matched by an item, but a search for it finds nothing. -/
theorem highlightTerms_parse_withoutText :
    let query := parse "-ads title:"
    let item : Item := { id := "1", title := "News", collectionName := "", dateAdded := ⟨0, 0⟩ }
    query.highlightTerms = [] ∧ query.isMatch item = true ∧
      (search query { } [item]).results = [] := by
  intro query item
  have hnone : query.highlightTerms = [] := by decide +kernel
  obtain ⟨-, -, -, hsearch⟩ := highlightTerms_parse "-ads title:"
  exact ⟨hnone, by decide +kernel, (hsearch hnone { } [item]).1⟩

end Query

end Curation
