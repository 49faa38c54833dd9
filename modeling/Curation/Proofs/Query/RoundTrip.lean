import Curation.Proofs.Query.Lexemes
import Curation.Proofs.Query.Writing

/-!
# Reading written queries

A canonical query of writable terms is read back from its written form.

* `scan_write`: the token at the front of a written term and what follows it is the term.
* `tokensOf_writeGroups`: the tokens of written conjunctions between keywords `OR`.
* `parse_write`: reading undoes writing.
-/

namespace Curation

namespace Token

/-- An escaped text is read back up to the closing quote behind it. -/
theorem closePhrase?_escapePhrase (s rest : List Char) :
    closePhrase? (escapePhrase s ++ '"' :: rest) = some (s, (escapePhrase s).length + 1) := by
  induction s with
  | nil => rfl
  | cons c s ih =>
    -- a backslash takes the next character as it is; no other one stands for anything else
    by_cases h : c = '\\' ∨ c = '"'
    · rw [escapePhrase, if_pos h, List.cons_append, List.cons_append, closePhrase?, ih]
      simp
    · obtain ⟨hslash, hquote⟩ := not_or.1 h
      rw [escapePhrase, if_neg h, List.cons_append, closePhrase?, ih]
      · simp
      · exact hquote
      · exact fun hc _ => hslash hc
      · exact fun d t hc _ => hslash hc

end Token

namespace Term

open Token

variable {t : Term} {rest : List Char}

theorem writeDash_not_blank (t : Term) : ∀ c ∈ t.writeDash, Text.isBlank c = false := by
  refine Text.not_blank_of_all ?_
  rw [writeDash]
  cases t.negated <;> decide

theorem writeField_not_blank (t : Term) : ∀ c ∈ t.writeField, Text.isBlank c = false := by
  refine Text.not_blank_of_all ?_
  rw [writeField]
  cases t.field with
  | none => rfl
  | some field => cases field <;> decide

/-- The word at the start of a written phrase begins with a quote. -/
private theorem word_writeText_of_isPhrase (hphrase : t.isPhrase = true) (rest : List Char) :
    ∃ s, word (t.writeText ++ rest) = '"' :: s := by
  rw [writeText, if_pos hphrase, List.cons_append]
  exact ⟨_, List.takeWhile_cons_of_pos (by decide)⟩

/-- The text of a word is written as it is and ends with the word. -/
private theorem word_writeText_of_isWord (hphrase : t.isPhrase = false)
    (hword : t.IsWritableWord) (hrest : EndsWord rest) :
    word (t.writeText ++ rest) = t.text.toList := by
  rw [writeText, if_neg (by simp [hphrase]), word_append_of_endsWord hword.not_blank hrest]

/-- The word at the start of a written term has the dash and the field in front of the text. -/
theorem word_write_append (t : Term) (rest : List Char) :
    word (t.write ++ rest) = t.writeDash ++ (t.writeField ++ word (t.writeText ++ rest)) := by
  rw [write, List.append_assoc, List.append_assoc,
    word_append_of_not_blank t.writeDash_not_blank,
    word_append_of_not_blank t.writeField_not_blank]

/-- Behind the dash of a written term the word goes on. -/
private theorem writeField_append_ne_nil (ht : t.IsWritable) (hrest : EndsWord rest) :
    t.writeField ++ word (t.writeText ++ rest) ≠ [] := by
  -- a phrase has its quotes, and a word is not empty unless it has a field
  intro hnil
  obtain ⟨hfield, hword⟩ := List.append_eq_nil_iff.1 hnil
  cases hphrase : t.isPhrase with
  | true =>
    obtain ⟨s, hs⟩ := word_writeText_of_isPhrase hphrase rest
    rw [hs] at hword
    exact List.cons_ne_nil _ _ hword
  | false =>
    rw [word_writeText_of_isWord hphrase (ht.word hphrase) hrest] at hword
    have hnone : t.field = none := by
      cases hf : t.field with
      | none => rfl
      | some field => simp [writeField, hf] at hfield
    exact (ht.word hphrase).not_empty hnone (String.toList_inj.1 hword)

/-- The dash of a written term is read as one exactly if the term is negated: a dash at the front
of anything else stands alone. -/
private theorem dash_iff_negated (ht : t.IsWritable) (hrest : EndsWord rest) :
    ((word (t.write ++ rest)).head? = some '-' ∧ 1 < (word (t.write ++ rest)).length) ↔
      t.negated = true := by
  rw [word_write_append]
  cases hneg : t.negated with
  | true =>
    -- the dash does not stand alone
    have hlen := List.length_pos_iff.2 (writeField_append_ne_nil ht hrest)
    simpa [writeDash, hneg] using hlen
  | false =>
    simp only [writeDash, hneg, Bool.false_eq_true, if_false, List.nil_append, iff_false]
    rintro ⟨hhead, hlen⟩
    -- a name of a field, a quote and a word that may stand here start with no dash
    cases hf : t.field with
    | some field =>
      rw [writeField, hf, List.append_assoc] at hhead
      cases field <;> exact absurd hhead (by simp [Field.name])
    | none =>
      rw [writeField, hf, List.nil_append] at hhead hlen
      cases hphrase : t.isPhrase with
      | true =>
        obtain ⟨s, hs⟩ := word_writeText_of_isPhrase hphrase rest
        simp [hs] at hhead
      | false =>
        have hword := ht.word hphrase
        rw [word_writeText_of_isWord hphrase hword hrest] at hhead hlen
        simp [hword.not_dash hf hneg hhead] at hlen

/-- A written term that starts with letters only, up to a blank, is a plain word. -/
private theorem isWord_of_isAlpha (ht : t.IsWritable) (hrest : EndsWord rest)
    (halpha : ∀ c ∈ word (t.write ++ rest), c.isAlpha = true) :
    t.negated = false ∧ t.field = none ∧ t.isPhrase = false ∧
      word (t.write ++ rest) = t.text.toList := by
  rw [word_write_append] at halpha ⊢
  -- the dash, the colon and the quote are no letters
  have hneg : t.negated = false := by
    cases hneg : t.negated with
    | false => rfl
    | true => exact absurd (halpha '-' (by simp [writeDash, hneg])) (by decide)
  have hfield : t.field = none := by
    cases hf : t.field with
    | none => rfl
    | some field => exact absurd (halpha ':' (by simp [writeField, hf])) (by decide)
  have hphrase : t.isPhrase = false := by
    cases hphrase : t.isPhrase with
    | false => rfl
    | true =>
      obtain ⟨s, hs⟩ := word_writeText_of_isPhrase hphrase rest
      exact absurd (halpha '"' (by simp [hs])) (by decide)
  refine ⟨hneg, hfield, hphrase, ?_⟩
  simp [writeDash, hneg, writeField, hfield,
    word_writeText_of_isWord hphrase (ht.word hphrase) hrest]

/-- No term is written as a keyword. -/
private theorem word_write_ne_keyword (ht : t.IsWritable) (hrest : EndsWord rest) :
    word (t.write ++ rest) ≠ ['A', 'N', 'D'] ∧ word (t.write ++ rest) ≠ ['O', 'R'] := by
  constructor
  · intro hand
    -- a keyword is made of letters, and no writable word is a keyword by itself
    obtain ⟨hneg, hfield, hphrase, htext⟩ := isWord_of_isAlpha ht hrest
      (List.all_eq_true.mp (by rw [hand]; decide))
    refine ((ht.word hphrase).not_keyword hfield hneg).1 (String.toList_inj.1 ?_)
    rw [← htext, hand]
    rfl
  · intro hor
    obtain ⟨hneg, hfield, hphrase, htext⟩ := isWord_of_isAlpha ht hrest
      (List.all_eq_true.mp (by rw [hor]; decide))
    refine ((ht.word hphrase).not_keyword hfield hneg).2 (String.toList_inj.1 ?_)
    rw [← htext, hor]
    rfl

/-- The field that is written is the one that is read, and no other is. -/
private theorem fieldPrefix_writeField_append (ht : t.IsWritable) (hrest : EndsWord rest) :
    fieldPrefix (t.writeField ++ word (t.writeText ++ rest)) =
      (t.field, t.writeField.length) := by
  cases hf : t.field with
  | some field =>
    simp only [writeField, hf, List.append_assoc, List.singleton_append]
    rw [fieldPrefix_name_append]
    simp
  | none =>
    simp only [writeField, hf, List.nil_append, List.length_nil]
    apply fieldPrefix_of_unknown
    intro name tail hsplit hcolon
    cases hphrase : t.isPhrase with
    | true =>
      obtain ⟨s, hs⟩ := word_writeText_of_isPhrase hphrase rest
      rw [hs] at hsplit
      cases name with
      | nil => simp at hsplit
      | cons c name =>
        -- A name that starts with the opening quote stands for no field.
        obtain rfl : '"' = c := (List.cons.inj hsplit).1
        cases hname : Field.ofName? (String.ofList ('"' :: name)) with
        | none => rfl
        | some field =>
          exact absurd (Field.isAlpha_of_ofName? hname List.mem_cons_self) (by decide)
    | false =>
      rw [word_writeText_of_isWord hphrase (ht.word hphrase) hrest] at hsplit
      exact (ht.word hphrase).not_field hf name tail hsplit hcolon

/-- The text of a term is written so that the term is read. -/
private theorem scanText_writeText (ht : t.IsWritable) (hrest : EndsWord rest) :
    scanText t.field t.negated (t.writeText ++ rest) = (.term t, t.writeText.length) := by
  cases hphrase : t.isPhrase with
  | true =>
    rw [writeText, if_pos hphrase, List.cons_append, List.append_assoc, List.singleton_append]
    simp only [scanText, closePhrase?_escapePhrase,
      Text.squeeze_of_isSingleSpaced (ht.phrase hphrase)]
    simp [← hphrase]
  | false =>
    have htext : t.writeText = t.text.toList := by rw [writeText, if_neg (by simp [hphrase])]
    have hplain := word_writeText_of_isWord hphrase (ht.word hphrase) hrest
    -- without a quote at the front, the word is read
    have hquote : ∀ s, t.writeText ++ rest ≠ '"' :: s := by
      intro s hs
      rw [htext] at hs
      cases hlist : t.text.toList with
      | nil =>
        -- An empty word is followed by a blank character, not by a quote.
        rw [hlist, List.nil_append] at hs
        exact absurd (hrest '"' (by simp [hs])) (by decide)
      | cons c text =>
        rw [hlist, List.cons_append] at hs
        exact (ht.word hphrase).not_quote (by simp [hlist, (List.cons.inj hs).1])
    rw [scanText, hplain, htext]
    · simp [← hphrase]
    · exact hquote

/-- The token at the front of a written term and what follows it is the term. -/
theorem scan_write (ht : t.IsWritable) (hrest : EndsWord rest) :
    scan (t.write ++ rest) = (.term t, t.write.length) := by
  obtain ⟨hand, hor⟩ := word_write_ne_keyword ht hrest
  -- the parts of the term are read in the order in which they are written
  have hdash : (if (word (t.write ++ rest)).head? = some '-' ∧
      1 < (word (t.write ++ rest)).length then 1 else 0) = t.writeDash.length := by
    simp only [dash_iff_negated ht hrest, writeDash]
    cases t.negated <;> rfl
  have hnegated : (t.writeDash.length == 1) = t.negated := by
    rw [writeDash]
    cases t.negated <;> rfl
  have hword : (word (t.write ++ rest)).drop t.writeDash.length =
      t.writeField ++ word (t.writeText ++ rest) := by
    rw [word_write_append, List.drop_left]
  have htext : (t.write ++ rest).drop (t.writeDash.length + t.writeField.length) =
      t.writeText ++ rest := by
    rw [write, List.append_assoc, ← List.length_append, List.drop_left]
  simp only [scan, hand, hor, if_false, scanTerm, hdash, hnegated, hword,
    fieldPrefix_writeField_append ht hrest, htext, scanText_writeText ht hrest]
  simp [write, Nat.add_assoc]

/-- The term is the first token of its written form and what follows it. -/
theorem tokensOf_write_append (ht : t.IsWritable) (hrest : EndsWord rest) :
    tokensOf (t.write ++ rest) = .term t :: tokensOf rest := by
  -- behind the dash of a written term something stands that is not blank
  have hword : word t.write ≠ [] := by
    have happend := word_write_append t []
    rw [List.append_nil] at happend
    rw [happend]
    exact fun h => writeField_append_ne_nil ht endsWord_nil (List.append_eq_nil_iff.1 h).2
  refine tokensOf_of_scan ?_ ?_ (scan_write ht hrest)
  · intro hnil
    exact hword (by rw [hnil]; rfl)
  · intro c hc
    obtain ⟨s, hs⟩ := List.head?_eq_some_iff.1 hc
    refine Bool.eq_false_iff.2 fun hblank => hword ?_
    rw [hs]
    simp [word, hblank]

end Term

/-- The terms of a group, with a space between each two. -/
def writeGroup (ts : List Term) : List Char := [' '].intercalate (ts.map Term.write)

/-- Groups, with the keyword `OR` between each two. -/
def writeGroups (groups : List (List Term)) : List Char :=
  [' ', 'O', 'R', ' '].intercalate (groups.map writeGroup)

/-- The tokens of alternatives: the terms of each, and a keyword between each two. -/
def tokensOfGroups (groups : List (List Term)) : List Token :=
  [Token.or].intercalate (groups.map (·.map Token.term))

open Token

/-- The tokens of a written group are its terms, with those of what follows. -/
theorem tokensOf_writeGroup_append {ts : List Term} {rest : List Char} (hne : ts ≠ [])
    (hts : ∀ t ∈ ts, t.IsWritable) (hrest : EndsWord rest) :
    tokensOf (writeGroup ts ++ rest) = ts.map .term ++ tokensOf rest := by
  induction ts with
  | nil => exact absurd rfl hne
  | cons t ts ih =>
    obtain ⟨ht, hts⟩ := List.forall_mem_cons.1 hts
    cases ts with
    | nil =>
      rw [writeGroup, List.map_singleton, List.intercalate_singleton,
        Term.tokensOf_write_append ht hrest]
      rfl
    | cons u ts =>
      -- the first term ends at the space, behind which the others are written
      have htail := ih (List.cons_ne_nil u ts) hts
      rw [writeGroup, List.map_cons] at htail
      rw [writeGroup, List.map_cons, List.map_cons, List.intercalate_cons_cons,
        List.append_assoc, List.append_assoc, List.singleton_append,
        Term.tokensOf_write_append ht (endsWord_space _), tokensOf_cons_blank (by decide), htail]
      rfl

/-- A written `OR` is read as a token of its own. -/
theorem tokensOf_or_append (s : List Char) :
    tokensOf (['O', 'R'] ++ ' ' :: s) = .or :: tokensOf s :=
  tokensOf_append_cons (by decide) (by decide) s

/-- The tokens of written alternatives are those of the alternatives. -/
theorem tokensOf_writeGroups {groups : List (List Term)} (hne : ∀ ts ∈ groups, ts ≠ [])
    (hwritable : ∀ ts ∈ groups, ∀ t ∈ ts, t.IsWritable) :
    tokensOf (writeGroups groups) = tokensOfGroups groups := by
  induction groups with
  | nil => rfl
  | cons ts groups ih =>
    obtain ⟨hts, hne⟩ := List.forall_mem_cons.1 hne
    obtain ⟨hwts, hwritable⟩ := List.forall_mem_cons.1 hwritable
    cases groups with
    | nil =>
      have htokens := tokensOf_writeGroup_append hts hwts endsWord_nil
      rw [List.append_nil, tokensOf_nil, List.append_nil] at htokens
      simpa [writeGroups, tokensOfGroups] using htokens
    | cons us groups =>
      -- a space ends the first group and another one the keyword
      have htail := ih hne hwritable
      rw [writeGroups, tokensOfGroups, List.map_cons, List.map_cons] at htail
      have hsplit : writeGroups (ts :: us :: groups) =
          writeGroup ts ++ ' ' :: (['O', 'R'] ++ ' ' ::
            [' ', 'O', 'R', ' '].intercalate (writeGroup us :: groups.map writeGroup)) := by
        simp [writeGroups, List.intercalate_cons_cons]
      rw [hsplit, tokensOf_writeGroup_append hts hwts (endsWord_space _),
        tokensOf_cons_blank (by decide), tokensOf_or_append, htail]
      simp [tokensOfGroups, List.intercalate_cons_cons]

namespace Query

/-- Terms in front of tokens join the first group of these. -/
theorem groupsOf_terms_append (ts : List Term) {tokens : List Token} {group : List Term}
    {groups : List (List Term)} (h : groupsOf tokens = group :: groups) :
    groupsOf (ts.map .term ++ tokens) = (ts ++ group) :: groups := by
  induction ts with
  | nil => simpa using h
  | cons t ts ih => simp [groupsOf, ih]

/-- The groups of alternatives are read from their tokens. -/
theorem groupsOf_tokensOfGroups {groups : List (List Term)} (hne : groups ≠ []) :
    groupsOf (tokensOfGroups groups) = groups := by
  induction groups with
  | nil => exact absurd rfl hne
  | cons ts groups ih =>
    cases groups with
    | nil =>
      have h := @groupsOf_terms_append ts [] [] [] rfl
      simpa [tokensOfGroups] using h
    | cons us groups =>
      -- the keyword opens a new group, to which the terms before it do not belong
      have htail := ih (List.cons_ne_nil us groups)
      have hor : groupsOf (.or :: tokensOfGroups (us :: groups)) = [] :: us :: groups := by
        rw [groupsOf, htail]
      have h := groupsOf_terms_append ts hor
      simpa [tokensOfGroups, List.intercalate_cons_cons] using h

/-- The tokens of groups that are not empty make up the query of these groups. -/
theorem ofTokens_tokensOfGroups {groups : List (List Term)} (hne : ∀ ts ∈ groups, ts ≠ []) :
    ofTokens (tokensOfGroups groups) = ofGroups groups := by
  by_cases hnil : groups = []
  · subst hnil
    rfl
  · rw [ofTokens, groupsOf_tokensOfGroups hnil, List.filter_eq_self.2]
    intro ts hts
    simpa using hne ts hts

/-- A conjunction is the query of its terms, and its written form is that of the terms. -/
theorem IsConjunction.exists_group {query : Query} (h : query.IsConjunction) :
    ∃ ts, ts ≠ [] ∧ query = ofGroup ts ∧ query.terms = ts ∧ query.write = writeGroup ts := by
  cases h with
  | term t => exact ⟨[t], by simp, rfl, rfl, by simp [write, writeGroup]⟩
  | @all ts hlen =>
    refine ⟨ts, ?_, ?_, ?_, ?_⟩
    · intro hnil
      simp [hnil] at hlen
    -- of two terms or more a conjunction is made, and not a single term
    · match ts, hlen with
      | _ :: _ :: _, _ => rfl
    · rw [terms, termsOfEach_eq_flatMap, List.flatMap_map]
      exact List.flatMap_singleton' ts
    · rw [write, writeEach_eq_map, List.map_map]
      rfl

/-- Conjunctions are the queries of their groups of terms. -/
theorem exists_groups {queries : List Query} (h : ∀ query ∈ queries, query.IsConjunction) :
    ∃ groups : List (List Term), (∀ ts ∈ groups, ts ≠ []) ∧ queries = groups.map ofGroup ∧
      termsOfEach queries = groups.flatten ∧ writeEach queries = groups.map writeGroup := by
  induction queries with
  | nil => exact ⟨[], by simp, rfl, rfl, rfl⟩
  | cons query queries ih =>
    obtain ⟨hquery, hqueries⟩ := List.forall_mem_cons.1 h
    obtain ⟨ts, hts, hquery, hterms, hwrite⟩ := hquery.exists_group
    obtain ⟨groups, hgroups, hqueries, htermsOf, hwriteOf⟩ := ih hqueries
    refine ⟨ts :: groups, List.forall_mem_cons.2 ⟨hts, hgroups⟩, ?_, ?_, ?_⟩
    · rw [List.map_cons, ← hquery, ← hqueries]
    · rw [termsOfEach, hterms, htermsOf, List.flatten_cons]
    · rw [writeEach, hwrite, hwriteOf, List.map_cons]

/-- A canonical query is the query of its alternatives, and its written form is theirs. -/
theorem IsCanonical.exists_groups {query : Query} (h : query.IsCanonical) :
    ∃ groups : List (List Term), (∀ ts ∈ groups, ts ≠ []) ∧ query = ofGroups groups ∧
      query.terms = groups.flatten ∧ query.write = writeGroups groups := by
  cases h with
  | identity => exact ⟨[], by simp, rfl, rfl, rfl⟩
  | conjunction h =>
    obtain ⟨ts, hts, hquery, hterms, hwrite⟩ := h.exists_group
    exact ⟨[ts], by simpa using hts, hquery, by simpa using hterms,
      by simpa [writeGroups] using hwrite⟩
  | @any queries hlen h =>
    obtain ⟨groups, hne, hqueries, hterms, hwrite⟩ := Query.exists_groups h
    refine ⟨groups, hne, ?_, hterms, by rw [write, hwrite, writeGroups]⟩
    rw [hqueries, List.length_map] at hlen
    -- of two groups or more a disjunction is made, and not a single conjunction
    match groups, hlen with
    | _ :: _ :: _, _ => rw [hqueries]; rfl

/-- A canonical query of writable terms is read back from its written form. -/
theorem parse_write {query : Query} (hcanonical : query.IsCanonical)
    (hwritable : ∀ t ∈ query.terms, t.IsWritable) :
    parse (String.ofList query.write) = query := by
  obtain ⟨groups, hne, hquery, hterms, hwrite⟩ := hcanonical.exists_groups
  have hgroups : ∀ ts ∈ groups, ∀ t ∈ ts, t.IsWritable := by
    intro ts hts t ht
    exact hwritable t (by rw [hterms]; exact List.mem_flatten.2 ⟨ts, hts, ht⟩)
  rw [parse_ofList, hwrite, tokensOf_writeGroups hne hgroups, ofTokens_tokensOfGroups hne, ← hquery]

/-- A query with a quote in a word, quotes and backslashes in a phrase, a keyword that is negated
and a dash that stands alone is read back. -/
theorem parse_write_quoted :
    let title : Term := { field := some .title, text := "a:\"b" }
    let phrase : Term := { text := "say \"hi\" \\o/", isPhrase := true, negated := true }
    let keyword : Term := { text := "AND", negated := true }
    let dash : Term := { text := "-" }
    let query : Query := .any [.all [.term title, .term phrase, .term keyword], .term dash]
    query.IsCanonical ∧ (∀ t ∈ query.terms, t.IsWritable) ∧
      parse (String.ofList query.write) = query := by
  intro title phrase keyword dash query
  have hcanonical : query.IsCanonical := by
    refine .any (by decide) (List.forall_mem_cons.2 ⟨?_, List.forall_mem_cons.2 ⟨?_, by simp⟩⟩)
    · exact @IsConjunction.all [title, phrase, keyword] (by decide)
    · exact .term dash
  -- a text without a colon names no field
  have hno : ∀ s : List Char, ':' ∉ s → ∀ name rest, s = name ++ ':' :: rest → ':' ∉ name →
      Field.ofName? (String.ofList name) = none := by
    intro s hcolon name rest hsplit _
    exact absurd (by simp [hsplit]) hcolon
  have htitle : title.IsWritable :=
    ⟨nofun, fun _ => ⟨Text.not_blank_of_all (by decide), by decide, nofun, nofun, nofun, nofun⟩⟩
  have hphrase : phrase.IsWritable :=
    ⟨fun _ => ⟨by simp [phrase, Text.isBlank], by decide, by decide,
      by simp [phrase, List.infix_cons_iff]⟩, nofun⟩
  have hkeyword : keyword.IsWritable :=
    ⟨nofun, fun _ => ⟨Text.not_blank_of_all (by decide), by decide, fun _ => by decide,
      fun _ => hno _ (by decide), nofun, nofun⟩⟩
  have hdash : dash.IsWritable :=
    ⟨nofun, fun _ => ⟨Text.not_blank_of_all (by decide), by decide, fun _ => by decide,
      fun _ => hno _ (by decide), fun _ _ => by decide, fun _ _ _ => rfl⟩⟩
  have hwritable : ∀ t ∈ query.terms, t.IsWritable := by
    intro t ht
    have hcases : t = title ∨ t = phrase ∨ t = keyword ∨ t = dash := by
      simpa [query, terms, termsOfEach] using ht
    rcases hcases with h | h | h | h
    · exact h ▸ htitle
    · exact h ▸ hphrase
    · exact h ▸ hkeyword
    · exact h ▸ hdash
  exact ⟨hcanonical, hwritable, parse_write hcanonical hwritable⟩

end Query

end Curation
