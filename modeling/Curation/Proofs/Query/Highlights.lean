import Mathlib.Data.List.Basic
import Curation.Proofs.Query.Meaning
import Curation.Search

/-!
# Highlights of matches

A match is shown by its places, each once and in the order in which the hits tell them first. At
each place the text found there is shown with the characters around it: as many as were asked for,
but no more than `maxContext`, and fewer where the field begins or ends.

* `ListsFirsts`: the elements of a list in the order of their first occurrences.
* `Highlight.Shows`: a highlight shows a place of a text with the characters around it.
* `snippetInBytes`: the characters around a place, cut out of the text by bytes.
* `Query.match?_highlights`: the highlights of a match.
-/

namespace Curation

/-- The elements of a list, each once, in the order in which they occur first. -/
structure ListsFirsts [BEq α] (xs firsts : List α) : Prop where
  nodup : firsts.Nodup
  mem_iff : ∀ a, a ∈ firsts ↔ a ∈ xs
  ordered : firsts.Pairwise fun a b => xs.idxOf a < xs.idxOf b

/-- An element in front is listed first, and not again. -/
theorem ListsFirsts.cons [BEq α] [LawfulBEq α] {xs firsts : List α} (h : ListsFirsts xs firsts)
    (x : α) : ListsFirsts (x :: xs) (x :: firsts.filter (· != x)) where
  nodup := by
    refine List.nodup_cons.mpr ⟨fun hmem => ?_, h.nodup.sublist List.filter_sublist⟩
    simpa using (List.mem_filter.mp hmem).2
  mem_iff a := by
    by_cases ha : a = x
    · simp [ha]
    · simp [ha, h.mem_iff]
  ordered := by
    have hne : ∀ a ∈ firsts.filter (· != x), x ≠ a := by
      rintro a ha rfl
      simpa using (List.mem_filter.mp ha).2
    refine List.pairwise_cons.mpr ⟨fun a ha => ?_, ?_⟩
    · rw [List.idxOf_cons_self, List.idxOf_cons_ne _ (hne a ha)]
      exact Nat.succ_pos _
    · -- the others stand one place further than in the rest of the list
      refine (h.ordered.sublist List.filter_sublist).imp_of_mem fun {a b} ha hb hab => ?_
      rw [List.idxOf_cons_ne _ (hne a ha), List.idxOf_cons_ne _ (hne b hb)]
      exact Nat.succ_lt_succ hab

/-- The places of the hits are kept, each where it stands first. -/
theorem listsFirsts_distinctPlaces (hits : List Hit) :
    ListsFirsts (hits.map Hit.place) ((distinctPlaces hits).map Hit.place) := by
  induction hits with
  | nil => exact ⟨.nil, fun _ => Iff.rfl, .nil⟩
  | cons hit hits ih =>
    rw [distinctPlaces, List.map_cons, List.map_cons]
    -- hits are filtered by their places, so the filter can be put behind the map
    have hfilter : ((distinctPlaces hits).filter fun other => other.place != hit.place).map
        Hit.place = ((distinctPlaces hits).map Hit.place).filter (· != hit.place) := by
      rw [List.filter_map]
      rfl
    rw [hfilter]
    exact ih.cons hit.place

/-- The hits at distinct places are some of the hits. -/
theorem mem_of_mem_distinctPlaces {hits : List Hit} {hit : Hit}
    (h : hit ∈ distinctPlaces hits) : hit ∈ hits := by
  induction hits with
  | nil => exact h
  | cons other hits ih =>
    rcases List.mem_cons.mp h with rfl | h
    · exact List.mem_cons_self
    · exact List.mem_cons_of_mem other (ih (List.mem_of_mem_filter h))

/-- The place that a highlight shows: its field and its two ends. -/
def Highlight.place (highlight : Highlight) : Field × Nat × Nat :=
  (highlight.field, highlight.start, highlight.stop)

/-- A highlight shows `matched` at its place in the text `s`, with up to `context` characters on
each side. -/
structure Highlight.Shows (highlight : Highlight) (matched s : List Char) (context : Nat) :
    Prop where
  /-- The characters between two bounds are shown, neither of which lies outside the text. -/
  bounds : highlight.snippet.toList =
    (s.take (min (highlight.stop + context) s.length)).drop (highlight.start - context)
  /-- They are those at the place and around it: as many before and after it as were asked for, if
  there are as many. -/
  around : ∃ left before after right,
    s = left ++ before ++ matched ++ after ++ right ∧
    highlight.snippet.toList = before ++ matched ++ after ∧
    (left ++ before).length = highlight.start ∧
    (left ++ before ++ matched).length = highlight.stop ∧
    before.length = min context highlight.start ∧
    after.length = min context (s.length - highlight.stop)

/-- The characters from `context` characters before a place to `context` characters after it, cut
out of the text by bytes; the whole text if a bound lies inside a character. -/
def snippetInBytes (s : List Char) (start stop context : Nat) : List Char :=
  let first := Text.byteOffset s (start - context)
  let last := Text.byteOffset s (stop + context)
  let cut := (Text.splitBytes? last s).bind fun parts => Text.splitBytes? first parts.1
  (cut.map (·.2)).getD s

section Snippet

variable {s : List Char} {start stop : Nat}

/-- The snippet consists of the place and of the characters around it. -/
theorem exists_around (hle : start ≤ stop) (hstop : stop ≤ s.length) (context : Nat) :
    ∃ left before after right,
      s = left ++ before ++ (s.drop start).take (stop - start) ++ after ++ right ∧
      snippet s start stop context = before ++ (s.drop start).take (stop - start) ++ after ∧
      (left ++ before).length = start ∧
      (left ++ before ++ (s.drop start).take (stop - start)).length = stop ∧
      before.length = min context start ∧ after.length = min context (s.length - stop) := by
  let left := s.take (start - context)
  let before := (s.take start).drop (start - context)
  let matched := (s.drop start).take (stop - start)
  let after := (s.drop stop).take context
  have hfront : left ++ before = s.take start := by
    have hleft : left = (s.take start).take (start - context) := by
      rw [List.take_take, Nat.min_eq_left (Nat.sub_le start context)]
    rw [hleft]
    exact List.take_append_drop _ _
  have hplace : s.take start ++ matched = s.take stop := by
    rw [← List.take_add, Nat.add_sub_cancel' hle]
  have hafter : s.take stop ++ after = s.take (stop + context) := List.take_add.symm
  have hstart : (left ++ before).length = start := by
    rw [hfront, List.length_take_of_le (Nat.le_trans hle hstop)]
  refine ⟨left, before, after, s.drop (stop + context), ?_, ?_, hstart, ?_, ?_, ?_⟩
  · rw [hfront, hplace, hafter, List.take_append_drop]
  · -- the characters before the snippet are taken off the front
    have hleft : left.length = start - context :=
      List.length_take_of_le (Nat.le_trans (Nat.sub_le ..) (Nat.le_trans hle hstop))
    rw [snippet, ← hafter, ← hplace, ← hfront, ← hleft, List.append_assoc, List.append_assoc,
      List.drop_left, List.append_assoc]
  · rw [hfront, hplace, List.length_take_of_le hstop]
  · rw [List.length_drop, List.length_take_of_le (Nat.le_trans hle hstop)]
    omega
  · rw [List.length_take, List.length_drop]

/-- A place behind the end of a text has all bytes of the text before it. -/
theorem byteOffset_min_length (s : List Char) (i : Nat) :
    Text.byteOffset s (min i s.length) = Text.byteOffset s i := by
  rw [Text.byteOffset, Text.byteOffset, ← List.take_eq_take_min]

/-- The snippet is cut out by bytes between characters. -/
theorem snippetInBytes_eq (hle : start ≤ stop) (hstop : stop ≤ s.length) (context : Nat) :
    snippetInBytes s start stop context = snippet s start stop context := by
  have hfirst : start - context ≤ (s.take (stop + context)).length := by
    rw [List.length_take]
    omega
  have hlast : Text.splitBytes? (Text.byteOffset s (stop + context)) s =
      some (s.take (stop + context), s.drop (min (stop + context) s.length)) := by
    rw [← byteOffset_min_length, Text.splitBytes?_byteOffset (Nat.min_le_right ..),
      ← List.take_eq_take_min]
  -- the first bound lies before the last one, so its bytes are counted in the text up to there
  have hbytes : Text.byteOffset s (start - context) =
      Text.byteOffset (s.take (stop + context)) (start - context) := by
    rw [Text.byteOffset, Text.byteOffset, List.take_take, Nat.min_eq_left (by omega)]
  rw [snippetInBytes, hlast, hbytes]
  simp only [Option.bind_some, Text.splitBytes?_byteOffset hfirst]
  rfl

end Snippet

namespace Query

variable {query : Query} {item : Item}

/-- A match has hits, and shows them. -/
theorem exists_hits_of_match? {context : Nat} {found : Match}
    (h : query.match? item context = some found) :
    ∃ hits, query.hits? item = some hits ∧ hits ≠ [] ∧
      found.highlights = highlights hits item context := by
  rw [match?] at h
  split at h
  · cases h
  · cases h
  · next hits hne hhits =>
    cases h
    exact ⟨hits, hhits, hne, rfl⟩

/-- A hit marks a place in the text of its field. -/
theorem exists_fieldText?_of_mem_hits? {hits : List Hit} (h : query.hits? item = some hits)
    {hit : Hit} (hmem : hit ∈ hits) :
    ∃ text, item.fieldText? hit.field = some text ∧ hit.start ≤ hit.stop ∧
      hit.stop ≤ text.toList.length ∧
      hit.matched.toList = (text.toList.drop hit.start).take (hit.stop - hit.start) := by
  obtain ⟨t, -, -, -, hmarks⟩ := marks_of_mem_hits? h hmem
  obtain ⟨text, htext, hmarks⟩ := hmarks.marksIn
  exact ⟨text, htext, hmarks.start_le_stop, hmarks.fieldLength ▸ hmarks.stop_le, hmarks.matched⟩

/-- The highlights are those of the distinct places, as no field of a hit is missing. -/
theorem map_place_highlights {hits : List Hit} (h : query.hits? item = some hits)
    (context : Nat) :
    (highlights hits item context).map Highlight.place = (distinctPlaces hits).map Hit.place := by
  rw [highlights, List.map_filterMap, ← List.filterMap_eq_map]
  refine List.filterMap_congr fun hit hmem => ?_
  obtain ⟨text, htext, -⟩ := exists_fieldText?_of_mem_hits? h (mem_of_mem_distinctPlaces hmem)
  rw [Hit.highlight?, htext]
  rfl

/-- A match has highlights: one for each place of its hits, in the order in which the hits tell the
places first. Each of them shows the text found at its place with the characters around it, as many
as asked for up to `maxContext`, and cutting them out by bytes makes no difference. -/
theorem match?_highlights {context : Nat} {found : Match}
    (h : query.match? item context = some found) :
    let hits := (query.hits? item).getD []
    let shown := min context maxContext
    found.highlights ≠ [] ∧
    ListsFirsts (hits.map Hit.place) (found.highlights.map Highlight.place) ∧
    ∀ highlight ∈ found.highlights, ∃ hit ∈ hits, hit.place = highlight.place ∧
      ∃ text, item.fieldText? hit.field = some text ∧
        highlight.Shows hit.matched.toList text.toList shown ∧
        snippetInBytes text.toList hit.start hit.stop shown = highlight.snippet.toList := by
  obtain ⟨hits, hhits, hne, hfound⟩ := exists_hits_of_match? h
  rw [hhits, hfound]
  have hplaces := map_place_highlights hhits context
  have hfirsts := listsFirsts_distinctPlaces hits
  rw [← hplaces] at hfirsts
  refine ⟨fun hnil => ?_, hfirsts, fun highlight hmem => ?_⟩
  · -- the place of the first hit is among those shown
    obtain ⟨hit, rest, rfl⟩ := List.exists_cons_of_ne_nil hne
    have hfirst := (hfirsts.mem_iff hit.place).mpr List.mem_cons_self
    rw [hnil] at hfirst
    cases hfirst
  · obtain ⟨hit, hdistinct, hhighlight⟩ := List.mem_filterMap.mp hmem
    have hhit := mem_of_mem_distinctPlaces hdistinct
    obtain ⟨text, htext, hle, hstop, hmatched⟩ := exists_fieldText?_of_mem_hits? hhits hhit
    rw [Hit.highlight?, htext, Option.map_some, Option.some_inj] at hhighlight
    subst hhighlight
    refine ⟨hit, hhit, rfl, text, htext, ⟨?_, ?_⟩, ?_⟩
    · rw [String.toList_ofList, snippet, ← List.take_eq_take_min]
    · rw [String.toList_ofList, hmatched]
      exact exists_around hle hstop _
    · rw [String.toList_ofList]
      exact snippetInBytes_eq hle hstop _

/-- A place that is hit twice is shown once, and a place at the front of a field has no characters
before it. -/
theorem match?_highlights_twice :
    let item : Item :=
      { id := "1", title := "Émission über alles", collectionName := "", dateAdded := ⟨0, 0⟩ }
    ∃ found, (parse "über émission über").match? item 3 = some found ∧
      ListsFirsts [(.title, 9, 13), (.title, 0, 8), (.title, 9, 13)]
        (found.highlights.map Highlight.place) ∧
      found.highlights.map (·.snippet) = ["on über al", "Émission üb"] := by
  intro item
  have hsnippets : ((parse "über émission über").match? item 3).map
      (·.highlights.map (·.snippet)) = some ["on über al", "Émission üb"] := by decide +kernel
  -- the first word is searched for twice, and is hit at one place
  have hplaces : (((parse "über émission über").hits? item).getD []).map Hit.place =
      [(.title, 9, 13), (.title, 0, 8), (.title, 9, 13)] := by decide +kernel
  obtain ⟨found, hfound, hshown⟩ := Option.map_eq_some_iff.mp hsnippets
  exact ⟨found, hfound, hplaces ▸ (match?_highlights hfound).2.1, hshown⟩

end Query

end Curation
