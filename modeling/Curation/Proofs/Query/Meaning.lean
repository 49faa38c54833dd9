import Curation.Proofs.Query.Places

/-!
# Meaning of queries

What a query says of an item, told without searching, and what its hits are: each marks a place in
a field where a term of the query stands.

* `Query.Holds`: the meaning of a query as a proposition.
* `Hit.Marks`: a hit is the place of a term in a field.
* `Query.evaluation_agrees`: an item matches exactly if the query holds of it, and every hit marks a
  term and is found by bytes as well.
-/

namespace Curation

/-- The text of a term occurs in a text without regard to case: a word as an unbroken part, and a
phrase if the search for its words finds a place. -/
def Term.OccursIn (term : Term) (s : List Char) : Prop :=
  if term.isPhrase then
    ∃ place, Text.findPhrase? (Text.fold term.text.toList) (Text.fold s) = some place
  else Text.fold term.text.toList <:+: Text.fold s

/-- The text of a term occurs in a field that the item has. -/
def Term.OccursInField (term : Term) (item : Item) (field : Field) : Prop :=
  ∃ text, item.fieldText? field = some text ∧ term.OccursIn text.toList

/-- The text of a term occurs in its field, or in some field if it is not limited to one. -/
def Term.Occurs (term : Term) (item : Item) : Prop :=
  match term.field with
  | some field => term.OccursInField item field
  | none => ∃ field, term.OccursInField item field

/-- The query holds of an item. -/
def Query.Holds (item : Item) : Query → Prop
  | .term t => t.text = "" ∨ (t.Occurs item ↔ t.negated = false)
  | .not query => ¬ query.Holds item
  | .all queries => ∀ query ∈ queries, query.Holds item
  | .any queries => ∃ (query : Query) (_ : query ∈ queries), query.Holds item

/-- A term of the query that stands under no negation of queries. -/
inductive Query.HasOpenTerm (t : Term) : Query → Prop
  | term : HasOpenTerm t (.term t)
  | all {query : Query} {queries : List Query} (hmem : query ∈ queries)
      (h : HasOpenTerm t query) : HasOpenTerm t (.all queries)
  | any {query : Query} {queries : List Query} (hmem : query ∈ queries)
      (h : HasOpenTerm t query) : HasOpenTerm t (.any queries)

/-- A hit is the place of a term in a text. -/
structure Hit.MarksIn (hit : Hit) (term : Term) (s : List Char) : Prop where
  /-- The characters of the text are counted. -/
  fieldLength : hit.fieldLength = s.length
  /-- The place has a start and an end. -/
  start_le_stop : hit.start ≤ hit.stop
  /-- The place lies in the text. -/
  stop_le : hit.stop ≤ hit.fieldLength
  /-- The characters at the place are told. -/
  matched : hit.matched.toList = (s.drop hit.start).take (hit.stop - hit.start)
  /-- A word stands at the place, and at none before it. -/
  word : term.isPhrase = false →
    Text.fold hit.matched.toList = Text.fold term.text.toList ∧
    ∀ i < hit.start, ¬ Text.fold term.text.toList <+: (Text.fold s).drop i
  /-- The place of a phrase is the one found, and its words stand there in order. -/
  phrase : term.isPhrase = true →
    Text.findPhrase? (Text.fold term.text.toList) (Text.fold s) =
      some (hit.start, hit.stop - hit.start) ∧
    Text.IsSpaced (Text.phraseWords (Text.fold term.text.toList)) (Text.fold hit.matched.toList)

/-- A hit is the place of a term in a field of the item: in its own field, or in the first one where
it occurs. -/
structure Hit.Marks (hit : Hit) (term : Term) (item : Item) : Prop where
  /-- The field is that of the term, or the first one in which the term occurs. -/
  field : term.field = some hit.field ∨
    term.field = none ∧ ∃ before after, Field.searchOrder = before ++ hit.field :: after ∧
      ∀ field ∈ before, ¬ term.OccursInField item field
  /-- The kind of the term is told. -/
  isPhrase : hit.isPhrase = term.isPhrase
  /-- The place is one in the text of the field. -/
  marksIn : ∃ text, item.fieldText? hit.field = some text ∧ hit.MarksIn term text.toList

namespace Term

/-- A term asks for nothing only if it has no text. -/
theorem isVacuous_iff {term : Term} : term.isVacuous = true ↔ term.text = "" := by
  rw [isVacuous, String.isEmpty_iff]

/-- A place is found exactly in the texts in which the term occurs. -/
theorem isSome_occurrence?_iff {term : Term} {s : List Char} :
    (term.occurrence? s).isSome = true ↔ term.OccursIn s := by
  rw [occurrence?, OccursIn]
  split
  · exact Option.isSome_iff_exists
  · rw [Option.isSome_map, Text.isSome_find?_iff]

/-- A hit in a field tells where the text of the term occurs there. -/
theorem hitIn?_eq_some_iff {term : Term} {item : Item} {field : Field} {hit : Hit} :
    term.hitIn? item field = some hit ↔
      ∃ text start length, item.fieldText? field = some text ∧
        term.occurrence? text.toList = some (start, length) ∧
        hit =
          { field
            matched := String.ofList ((text.toList.drop start).take length)
            start
            stop := start + length
            fieldLength := text.toList.length
            isPhrase := term.isPhrase } := by
  simp only [hitIn?, bind, Option.bind_eq_some_iff, Option.some.injEq, Prod.exists]
  constructor
  · rintro ⟨text, htext, start, length, hplace, rfl⟩
    exact ⟨text, start, length, htext, hplace, rfl⟩
  · rintro ⟨text, start, length, htext, hplace, rfl⟩
    exact ⟨text, htext, start, length, hplace, rfl⟩

/-- There is a hit in a field exactly if the term occurs there. -/
theorem isSome_hitIn?_iff {term : Term} {item : Item} {field : Field} :
    (term.hitIn? item field).isSome = true ↔ term.OccursInField item field := by
  simp only [Option.isSome_iff_exists, hitIn?_eq_some_iff, OccursInField, ← isSome_occurrence?_iff,
    Prod.exists]
  constructor
  · rintro ⟨hit, text, start, length, htext, hplace, -⟩
    exact ⟨text, htext, start, length, hplace⟩
  · rintro ⟨text, htext, start, length, hplace⟩
    exact ⟨_, text, start, length, htext, hplace, rfl⟩

/-- There is a hit in an item exactly if the term occurs in it. -/
theorem isSome_hit?_iff {term : Term} {item : Item} :
    (term.hit? item).isSome = true ↔ term.Occurs item := by
  rw [hit?, Occurs]
  cases term.field with
  | some field => exact isSome_hitIn?_iff
  | none =>
    rw [List.isSome_findSome?, List.any_eq_true]
    simp only [isSome_hitIn?_iff]
    refine exists_congr fun field => and_iff_right ?_
    cases field <;> decide

/-- A term without text matches, and another one if it occurs or not, as it asks. -/
theorem isSome_hits?_iff {term : Term} {item : Item} :
    (term.hits? item).isSome = true ↔
      term.text = "" ∨ (term.Occurs item ↔ term.negated = false) := by
  rw [hits?, ← isVacuous_iff, ← isSome_hit?_iff]
  cases term.isVacuous <;> cases term.hit? item <;> cases term.negated <;> simp

/-- A hit in a field is a place in its text. -/
theorem marksIn_of_occurrence? {term : Term} {hit : Hit} {s : List Char} {start length : Nat}
    (h : term.occurrence? s = some (start, length)) (hstart : hit.start = start)
    (hstop : hit.stop = start + length) (hlength : hit.fieldLength = s.length)
    (hmatched : hit.matched = String.ofList ((s.drop start).take length)) :
    hit.MarksIn term s := by
  -- folding keeps places, so what stands in the folded text stands in the text, too
  have hsub : hit.stop - hit.start = length := by omega
  have htext : hit.matched.toList = (s.drop start).take length := by
    rw [hmatched, String.toList_ofList]
  have hfold : Text.fold hit.matched.toList = ((Text.fold s).drop start).take length := by
    rw [htext, Text.fold_take, Text.fold_drop]
  refine ⟨hlength, by omega, ?_, by rw [htext, hsub, hstart], ?_, ?_⟩
  · rw [hstop, hlength]
    exact occurrence?_le h
  · intro hword
    obtain ⟨hfind, hneedle⟩ := occurrence?_word hword h
    obtain ⟨-, hprefix, hfirst⟩ := Text.find?_eq_some_iff.mp hfind
    rw [hfold, hneedle, hstart]
    exact ⟨(List.prefix_iff_eq_take.mp hprefix).symm, hfirst⟩
  · intro hphrase
    rw [occurrence?_phrase hphrase] at h
    rw [hfold, hsub, hstart]
    exact ⟨h, Text.isSpaced_findPhrase? h⟩

/-- A hit of a term is a place where it stands. -/
theorem marks_hit? {term : Term} {item : Item} {hit : Hit} (h : term.hit? item = some hit) :
    hit.Marks term item := by
  -- the hit is one in a field: in the only one to look in, or in the first one that has a hit
  have hin : ∀ field, term.hitIn? item field = some hit → hit.field = field ∧
      hit.isPhrase = term.isPhrase ∧
        ∃ text, item.fieldText? field = some text ∧ hit.MarksIn term text.toList := by
    intro field hfield
    obtain ⟨text, start, length, htext, hplace, rfl⟩ := hitIn?_eq_some_iff.mp hfield
    exact ⟨rfl, rfl, text, htext, marksIn_of_occurrence? hplace rfl rfl rfl rfl⟩
  rw [hit?] at h
  cases hfield : term.field with
  | some field =>
    rw [hfield] at h
    obtain ⟨rfl, hphrase, hmarks⟩ := hin field h
    exact ⟨Or.inl hfield, hphrase, hmarks⟩
  | none =>
    rw [hfield] at h
    obtain ⟨before, field, after, horder, hhit, hbefore⟩ := List.findSome?_eq_some_iff.mp h
    obtain ⟨rfl, hphrase, hmarks⟩ := hin field hhit
    refine ⟨Or.inr ⟨hfield, before, after, horder, fun field hmem => ?_⟩, hphrase, hmarks⟩
    rw [← isSome_hitIn?_iff, hbefore field hmem]
    exact Bool.false_ne_true

/-- Only terms with a text that are not negated have hits. -/
theorem marks_of_mem_hits? {term : Term} {item : Item} {hits : List Hit}
    (h : term.hits? item = some hits) {hit : Hit} (hmem : hit ∈ hits) :
    term.negated = false ∧ term.text ≠ "" ∧ hit.Marks term item := by
  rw [hits?] at h
  split at h
  · cases h
    cases hmem
  · next hvacuous =>
    split at h
    -- the only hit is the one found, and the term is not negated
    · next found hfound hnegated =>
      cases h
      obtain rfl := List.mem_singleton.mp hmem
      exact ⟨hnegated, mt isVacuous_iff.mpr hvacuous, marks_hit? hfound⟩
    · cases h
      cases hmem
    · cases h

end Term

namespace Query

/-- A conjunction has hits exactly if each of its parts has. -/
theorem isSome_hitsOfAll?_iff {item : Item} {queries : List Query} :
    (hitsOfAll? item queries).isSome = true ↔
      ∀ query ∈ queries, (query.hits? item).isSome = true := by
  induction queries with
  | nil => simp [hitsOfAll?]
  | cons query queries ih =>
    rw [hitsOfAll?, List.forall_mem_cons, ← ih]
    cases query.hits? item <;> simp

/-- A disjunction has hits exactly if one of its parts has. -/
theorem isSome_hitsOfAny?_iff {item : Item} {queries : List Query} :
    (hitsOfAny? item queries).isSome = true ↔
      ∃ query ∈ queries, (query.hits? item).isSome = true := by
  induction queries with
  | nil => simp [hitsOfAny?]
  | cons query queries ih =>
    rw [hitsOfAny?]
    simp only [List.mem_cons, exists_eq_or_imp, ← ih]
    cases query.hits? item <;> simp

/-- A hit of a conjunction is one of a part of it. -/
theorem exists_of_mem_hitsOfAll? {item : Item} {queries : List Query} {hits : List Hit}
    (h : hitsOfAll? item queries = some hits) {hit : Hit} (hmem : hit ∈ hits) :
    ∃ query ∈ queries, ∃ part, query.hits? item = some part ∧ hit ∈ part := by
  induction queries generalizing hits with
  | nil =>
    cases h
    cases hmem
  | cons query queries ih =>
    rw [hitsOfAll?] at h
    split at h
    · next part hpart =>
      obtain ⟨rest, hrest, rfl⟩ := Option.map_eq_some_iff.mp h
      -- the hits of the first part stand before those of the others
      rcases List.mem_append.mp hmem with hmem | hmem
      · exact ⟨query, List.mem_cons_self, part, hpart, hmem⟩
      · obtain ⟨other, hother, hexists⟩ := ih hrest hmem
        exact ⟨other, List.mem_cons_of_mem _ hother, hexists⟩
    · cases h

/-- The hits of a disjunction are those of one part of it. -/
theorem exists_of_hitsOfAny? {item : Item} {queries : List Query} {hits : List Hit}
    (h : hitsOfAny? item queries = some hits) :
    ∃ query ∈ queries, query.hits? item = some hits := by
  induction queries with
  | nil => cases h
  | cons query queries ih =>
    rw [hitsOfAny?] at h
    split at h
    -- the first part that holds has the say
    · next part hpart =>
      cases h
      exact ⟨query, List.mem_cons_self, hpart⟩
    · obtain ⟨other, hother, hhits⟩ := ih h
      exact ⟨other, List.mem_cons_of_mem _ hother, hhits⟩

/-- A query matches the items that it holds of. -/
theorem isSome_hits?_iff_holds {query : Query} {item : Item} :
    (query.hits? item).isSome = true ↔ query.Holds item := by
  -- by the parts of the query, whatever lists of queries they stand in
  induction query using Query.induction with
  | term t => rw [hits?, Holds, Term.isSome_hits?_iff]
  | not query ih =>
    rw [hits?, Holds, ← ih]
    cases query.hits? item <;> simp
  | all queries ih =>
    rw [hits?, Holds, isSome_hitsOfAll?_iff]
    exact forall_congr' fun query => forall_congr' fun hmem => ih query hmem
  | any queries ih =>
    rw [hits?, Holds, isSome_hitsOfAny?_iff]
    refine exists_congr fun query => ?_
    rw [exists_prop]
    exact and_congr_right fun hmem => ih query hmem

/-- An item that has a hit is matched by the query, with this hit among those of the match. -/
theorem exists_hits?_of_mem {query : Query} {item : Item} {hit : Hit}
    (h : hit ∈ (query.hits? item).getD []) : ∃ hits, query.hits? item = some hits ∧ hit ∈ hits := by
  cases hhits : query.hits? item with
  | none =>
    rw [hhits] at h
    cases h
  | some hits =>
    rw [hhits] at h
    exact ⟨hits, rfl, h⟩

/-- A hit of a query is a place of one of its terms that no query negates. -/
theorem marks_of_mem_hits? {query : Query} {item : Item} {hits : List Hit}
    (h : query.hits? item = some hits) {hit : Hit} (hmem : hit ∈ hits) :
    ∃ t, query.HasOpenTerm t ∧ t.negated = false ∧ t.text ≠ "" ∧ hit.Marks t item := by
  induction query using Query.induction generalizing hits with
  | term t =>
    rw [hits?] at h
    exact ⟨t, .term, Term.marks_of_mem_hits? h hmem⟩
  | not query ih =>
    -- a negation has no hits, whether it matches or not
    rw [hits?] at h
    split at h
    · cases h
    · cases h
      cases hmem
  | all queries ih =>
    rw [hits?] at h
    obtain ⟨query, hquery, part, hpart, hmem⟩ := exists_of_mem_hitsOfAll? h hmem
    obtain ⟨t, ht, hmarks⟩ := ih query hquery hpart hmem
    exact ⟨t, .all hquery ht, hmarks⟩
  | any queries ih =>
    rw [hits?] at h
    obtain ⟨query, hquery, hpart⟩ := exists_of_hitsOfAny? h
    obtain ⟨t, ht, hmarks⟩ := ih query hquery hpart hmem
    exact ⟨t, .any hquery ht, hmarks⟩

/-- Evaluation agrees with the meaning of queries: an item matches exactly if the query holds of it,
an item that does not match has no hits, and every hit marks the place of a term that is not
negated, has a text and stands under no negation. The hits are those of a search by bytes in the
folded texts, which never ends inside a character. -/
theorem evaluation_agrees (query : Query) (item : Item) :
    (query.isMatch item = true ↔ query.Holds item) ∧
    (query.isMatch item = false → (query.hits? item).getD [] = []) ∧
    (∀ hit ∈ (query.hits? item).getD [],
      ∃ t, query.HasOpenTerm t ∧ t.negated = false ∧ t.text ≠ "" ∧ hit.Marks t item) ∧
    ∀ (t : Term) (field : Field), t.hitInBytes? item field = some (t.hitIn? item field) := by
  refine ⟨isSome_hits?_iff_holds, ?_, ?_, fun t field => t.hitInBytes?_eq item field⟩
  · intro hnone
    rw [isMatch, Option.isSome_eq_false_iff, Option.isNone_iff_eq_none] at hnone
    rw [hnone]
    rfl
  · intro hit hmem
    obtain ⟨hits, hhits, hmem⟩ := exists_hits?_of_mem hmem
    exact marks_of_mem_hits? hhits hmem

end Query

end Curation
