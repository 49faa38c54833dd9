import Curation.Proofs.Text.Spacing
import Curation.Query.Reader

/-!
# Reading one lexeme after another

The reader of query texts takes a lexeme off the front and goes on behind it. This module says what
is left after each kind of lexeme, so that texts put together from lexemes can be read one lexeme
at a time.

* `scan_le`, `scan_pos`: a token takes characters of the text it stands in, and one at least.
* `lexemes_cons`: the lexeme at the front, and those behind it.
* `lexemes_induction`: a text as a blank character or a token in front of what is left.
* `exists_scan_of_mem_lexemes`: each lexeme is scanned somewhere in the text.
* `tokensOf`: the tokens of a text; `Query.parse_eq` reads a query from them.
* `tokensOf_of_scan`: the token at the front, and the text behind it.
* `tokensOf_append_cons`: behind a text without quotes, a blank character separates the tokens.
* `fieldPrefix_name_append`, `fieldPrefix_of_unknown`: what is read before a colon.
-/

namespace Curation

namespace Field

/-- The name of a field names it. -/
theorem ofName?_name (field : Field) : ofName? field.name = some field := by
  cases field <;> decide

/-- The names of fields are made of letters. -/
theorem isAlpha_of_mem_name {field : Field} {c : Char} (hc : c ∈ field.name.toList) :
    c.isAlpha = true := by
  have hall : field.name.toList.all Char.isAlpha = true := by
    cases field <;> decide
  exact List.all_eq_true.mp hall c hc

private theorem isAlpha_of_toLower {c : Char} (h : c.toLower.isAlpha = true) :
    c.isAlpha = true := by
  unfold Char.toLower at h
  split at h
  -- only upper-case letters change
  · next hupper =>
    unfold Char.isAlpha Char.isUpper
    rw [Bool.or_eq_true]
    exact Or.inl (by simpa using hupper)
  · exact h

/-- The names in lower case that stand for a field. -/
def knownNames : List String :=
  ["title", "name", "collection", "collectionname", "show", "podcast", "feed", "description",
    "desc", "notes", "duration", "length", "date", "published", "publishdate"]

/-- A text that names a field is one of the known names, in any case. -/
theorem mem_knownNames_of_ofName? {s : List Char} {field : Field}
    (h : ofName? (String.ofList s) = some field) :
    String.ofList (Text.lowerAscii s) ∈ knownNames := by
  -- a name that is none of those known fails every test for a field
  refine Decidable.byContradiction fun hmem => ?_
  simp only [knownNames, List.mem_cons, List.not_mem_nil, or_false, not_or] at hmem
  have hnone : ofName? (String.ofList s) = none := by
    simp only [ofName?, String.toList_ofList, List.mem_cons, List.not_mem_nil, hmem, or_self,
      if_false]
  exact Option.some_ne_none field (h.symm.trans hnone)

/-- Whatever stands for a field is made of ASCII letters. -/
theorem isAlpha_of_ofName? {s : List Char} {field : Field}
    (h : ofName? (String.ofList s) = some field) {c : Char} (hc : c ∈ s) : c.isAlpha = true := by
  have hknown : ∀ name ∈ knownNames, name.toList.all Char.isAlpha = true := by decide
  have hall := hknown _ (mem_knownNames_of_ofName? h)
  refine isAlpha_of_toLower (List.all_eq_true.mp hall c.toLower ?_)
  simpa [Text.lowerAscii] using ⟨c, hc, rfl⟩

end Field

/-- No character of a text is blank, as a test of all of them shows. -/
theorem Text.not_blank_of_all {s : List Char} (h : (s.all fun c => !isBlank c) = true) :
    ∀ c ∈ s, isBlank c = false := by
  intro c hc
  have hblank := List.all_eq_true.mp h c hc
  rwa [Bool.not_eq_true'] at hblank

namespace Token

/-- The text does not go on with the word before it: it is empty or starts with a blank
character. -/
def EndsWord (rest : List Char) : Prop :=
  ∀ c, rest.head? = some c → Text.isBlank c = true

theorem endsWord_nil : EndsWord [] := by
  intro c hc
  simp at hc

theorem endsWord_space (s : List Char) : EndsWord (' ' :: s) := by
  intro c hc
  obtain rfl : ' ' = c := by simpa using hc
  decide

/-- Characters that are not blank belong to the word that they stand before. -/
theorem word_append_of_not_blank {s : List Char} (hs : ∀ c ∈ s, Text.isBlank c = false)
    (t : List Char) : word (s ++ t) = s ++ word t :=
  List.takeWhile_append_of_pos fun c hc => by simp [hs c hc]

/-- There is no word in front of a text that ends words. -/
theorem word_of_endsWord {rest : List Char} (h : EndsWord rest) : word rest = [] := by
  cases rest with
  | nil => rfl
  | cons c rest => simp [word, h c rfl]

/-- A word reaches up to a text that ends words. -/
theorem word_append_of_endsWord {s rest : List Char} (hs : ∀ c ∈ s, Text.isBlank c = false)
    (hrest : EndsWord rest) : word (s ++ rest) = s := by
  rw [word_append_of_not_blank hs, word_of_endsWord hrest, List.append_nil]

/-- No character of a word is blank. -/
theorem not_blank_of_mem_word {s : List Char} {c : Char} (hc : c ∈ word s) :
    Text.isBlank c = false := by
  have hall := List.all_eq_true.mp List.all_takeWhile c hc
  rwa [Bool.not_eq_true'] at hall

/-- A text is its first word and what stands behind it. -/
theorem exists_eq_word_append (s : List Char) : ∃ rest, s = word s ++ rest ∧ EndsWord rest := by
  refine ⟨s.dropWhile (!Text.isBlank ·), List.takeWhile_append_dropWhile.symm, fun c hc => ?_⟩
  have hhead := List.head?_dropWhile_not (!Text.isBlank ·) s
  rw [hc] at hhead
  simpa using hhead

/-- A name before a colon that stands for a field is the field prefix. -/
theorem fieldPrefix_name_append (field : Field) (s : List Char) :
    fieldPrefix (field.name.toList ++ ':' :: s) = (some field, field.name.toList.length + 1) := by
  -- a name is made of letters, so it is all that stands before the first colon
  have hcolon : ∀ c ∈ field.name.toList, (c != ':') = true := by
    intro c hc
    have halpha := Field.isAlpha_of_mem_name hc
    by_cases h : c = ':'
    · subst h
      simp at halpha
    · simpa using h
  have hname : (field.name.toList ++ ':' :: s).takeWhile (· != ':') = field.name.toList := by
    rw [List.takeWhile_append_of_pos hcolon]
    simp
  simp [fieldPrefix, hname, Field.ofName?_name]

/-- What stands before the first colon is followed by the colon. -/
theorem exists_eq_append_colon {s : List Char}
    (h : (s.takeWhile (· != ':')).length < s.length) :
    ∃ rest, s = s.takeWhile (· != ':') ++ ':' :: rest := by
  have hsplit := List.takeWhile_append_dropWhile (p := (· != ':')) (l := s)
  cases hdrop : s.dropWhile (· != ':') with
  | nil =>
    rw [hdrop, List.append_nil] at hsplit
    rw [hsplit] at h
    exact absurd h (Nat.lt_irrefl _)
  | cons d rest =>
    -- characters are taken up to the first colon, so one stands there
    have hd : d = ':' := by
      have := List.head?_dropWhile_not (· != ':') s
      simpa [hdrop] using this
    rw [hdrop, hd] at hsplit
    exact ⟨rest, hsplit.symm⟩

/-- Without a known name before the first colon there is no field prefix. -/
theorem fieldPrefix_of_unknown {s : List Char}
    (h : ∀ name rest, s = name ++ ':' :: rest → ':' ∉ name →
      Field.ofName? (String.ofList name) = none) : fieldPrefix s = (none, 0) := by
  rw [fieldPrefix]
  split
  · next hlt =>
    obtain ⟨rest, hsplit⟩ := exists_eq_append_colon hlt
    -- no colon stands before the first one
    have hname : ':' ∉ s.takeWhile (· != ':') := by
      intro hmem
      have := List.all_eq_true.1 List.all_takeWhile _ hmem
      simp at this
    rw [h _ rest hsplit hname]
  · rfl

/-! ## How far a token reaches -/

theorem closePhrase?_le {s text : List Char} {n : Nat} (h : closePhrase? s = some (text, n)) :
    n ≤ s.length := by
  fun_induction closePhrase? s generalizing text n with
  | case1 => cases h
  -- the closing quote
  | case2 s =>
    cases h
    exact Nat.succ_le_succ (Nat.zero_le _)
  | case3 => cases h
  -- a backslash with the character that it escapes
  | case4 c s ih =>
    obtain ⟨⟨rest, k⟩, hrest, heq⟩ := Option.map_eq_some_iff.mp h
    cases heq
    exact Nat.add_le_add_right (ih hrest) 2
  -- any other character
  | case5 c s _ _ _ ih =>
    obtain ⟨⟨rest, k⟩, hrest, heq⟩ := Option.map_eq_some_iff.mp h
    cases heq
    exact Nat.add_le_add_right (ih hrest) 1

theorem fieldPrefix_le (s : List Char) : (fieldPrefix s).2 ≤ s.length := by
  rw [fieldPrefix]
  split
  · split <;> dsimp only <;> omega
  · exact Nat.zero_le _

theorem length_word_le (s : List Char) : (word s).length ≤ s.length :=
  (List.takeWhile_prefix _).length_le

/-- The text of a term stands within the text that is scanned. -/
theorem scanText_le (field : Option Field) (negated : Bool) (s : List Char) :
    (scanText field negated s).2 ≤ s.length := by
  unfold scanText
  split
  · split
    · next hclose => exact Nat.succ_le_succ (closePhrase?_le hclose)
    · exact length_word_le _
  · exact length_word_le s

/-- The length of the dash of a word: a dash that stands alone is none. -/
def dashLength (plain : List Char) : Nat :=
  if plain.head? = some '-' ∧ 1 < plain.length then 1 else 0

/-- The length of what stands in front of the text of a term: a dash and a field prefix. -/
def frontLength (plain : List Char) : Nat :=
  dashLength plain + (fieldPrefix (plain.drop (dashLength plain))).2

/-- The dash and the field of a term are told by its word alone. -/
theorem scanTerm_eq (s : List Char) :
    let plain := word s
    let scanned := scanText (fieldPrefix (plain.drop (dashLength plain))).1 (dashLength plain == 1)
      (s.drop (frontLength plain))
    scanTerm s = (scanned.1, frontLength plain + scanned.2) := by
  simp only [scanTerm, frontLength, dashLength]

theorem frontLength_le (plain : List Char) : frontLength plain ≤ plain.length := by
  have hfield := fieldPrefix_le (plain.drop (dashLength plain))
  have hdash : dashLength plain ≤ plain.length := by
    unfold dashLength
    split <;> omega
  rw [List.length_drop] at hfield
  unfold frontLength
  omega

/-- A token does not reach beyond the text. -/
theorem scan_le (s : List Char) : (scan s).2 ≤ s.length := by
  have hword := length_word_le s
  simp only [scan]
  split
  · next hand => simpa [hand] using hword
  · split
    · next hor => simpa [hor] using hword
    -- the text of the term is read in what is left behind the front of the word
    · have hfront := frontLength_le (word s)
      have htext := scanText_le (fieldPrefix ((word s).drop (dashLength (word s)))).1
        (dashLength (word s) == 1) (s.drop (frontLength (word s)))
      rw [List.length_drop] at htext
      rw [scanTerm_eq]
      dsimp only
      omega

/-- The text of a term takes a character at least, unless a blank stands there. -/
theorem scanText_pos {field : Option Field} {negated : Bool} {s : List Char} (h : word s ≠ []) :
    0 < (scanText field negated s).2 := by
  unfold scanText
  split
  · split
    · exact Nat.succ_pos _
    · exact List.length_pos_iff.mpr h
  · exact List.length_pos_iff.mpr h

/-- A token takes a character at least, so that the reader goes on. -/
theorem scan_pos {c : Char} (hc : Text.isBlank c = false) (s : List Char) :
    0 < (scan (c :: s)).2 := by
  have hword : word (c :: s) ≠ [] := by simp [word, hc]
  simp only [scan]
  split
  · exact Nat.succ_pos 2
  · split
    · exact Nat.succ_pos 1
    · rw [scanTerm_eq]
      dsimp only
      -- without a dash and a field prefix, the text is the whole word or more
      rcases Nat.eq_zero_or_pos (frontLength (word (c :: s))) with hfront | hfront
      · rw [hfront, List.drop_zero]
        exact Nat.add_pos_right 0 (scanText_pos hword)
      · exact Nat.add_pos_left hfront _

end Token

/-- Lexemes behind characters that were passed are those of what is left. -/
theorem lexemesFrom_eq (passed : Nat) (s : List Char) :
    lexemesFrom passed s = lexemes (s.drop passed) := by
  induction s generalizing passed with
  | nil => cases passed <;> simp [lexemes, lexemesFrom]
  | cons c s ih =>
    cases passed with
    | zero => rfl
    | succ passed => simpa [lexemesFrom] using ih passed

/-- The lexeme at the front of a text, and those of the text behind it. -/
theorem lexemes_cons {c : Char} (hc : Text.isBlank c = false) (s : List Char) :
    let scanned := Token.scan (c :: s)
    lexemes (c :: s) =
      ⟨scanned.1, (c :: s).take scanned.2⟩ :: lexemes ((c :: s).drop scanned.2) := by
  intro scanned
  have hpos : 0 < scanned.2 := Token.scan_pos hc s
  obtain ⟨n, hn⟩ : ∃ n, scanned.2 = n + 1 := ⟨scanned.2 - 1, by omega⟩
  have hlexemes : lexemes (c :: s) =
      ⟨scanned.1, (c :: s).take scanned.2⟩ :: lexemesFrom (scanned.2 - 1) s := by
    simp only [lexemes, lexemesFrom, hc, Bool.false_eq_true, if_false, scanned]
  rw [hlexemes, lexemesFrom_eq, hn, List.drop_succ_cons, Nat.add_sub_cancel]

/-- Blanks in front of a text have no lexemes. -/
theorem lexemes_cons_blank {c : Char} (hc : Text.isBlank c = true) (s : List Char) :
    lexemes (c :: s) = lexemes s := by
  rw [lexemes, lexemesFrom, if_pos hc]
  rfl

/-- A property of texts that passes from what is left behind a blank character or behind a token to
the whole holds of every text. -/
theorem lexemes_induction {motive : List Char → Prop} (nil : motive [])
    (blank : ∀ c s, Text.isBlank c = true → motive s → motive (c :: s))
    (token : ∀ c s, Text.isBlank c = false →
      motive ((c :: s).drop (Token.scan (c :: s)).2) → motive (c :: s))
    (s : List Char) : motive s := by
  induction hn : s.length using Nat.strongRecOn generalizing s with
  | ind n ih =>
    subst hn
    match s with
    | [] => exact nil
    | c :: s =>
      by_cases hc : Text.isBlank c = true
      · exact blank c s hc (ih s.length (Nat.lt_succ_self _) s rfl)
      · -- a token takes a character at least, so what is left is shorter
        have hblank := Bool.eq_false_iff.mpr hc
        have hpos := Token.scan_pos hblank s
        refine token c s hblank (ih _ ?_ _ rfl)
        rw [List.length_drop, List.length_cons]
        omega

/-- Each lexeme of a text is scanned at a character that is not blank. -/
theorem exists_scan_of_mem_lexemes {s : List Char} {lexeme : Lexeme} (h : lexeme ∈ lexemes s) :
    ∃ c rest, Text.isBlank c = false ∧ lexeme.token = (Token.scan (c :: rest)).1 ∧
      lexeme.text = (c :: rest).take (Token.scan (c :: rest)).2 := by
  induction s using lexemes_induction with
  | nil => cases h
  | blank c s hc ih =>
    rw [lexemes_cons_blank hc] at h
    exact ih h
  | token c s hc ih =>
    rw [lexemes_cons hc, List.mem_cons] at h
    rcases h with rfl | h
    · exact ⟨c, s, hc, rfl, rfl⟩
    · exact ih h

/-- Each lexeme is written with a character at least. -/
theorem text_ne_nil_of_mem_lexemes {s : List Char} {lexeme : Lexeme} (h : lexeme ∈ lexemes s) :
    lexeme.text ≠ [] := by
  obtain ⟨c, rest, hblank, -, htext⟩ := exists_scan_of_mem_lexemes h
  have hpos := Token.scan_pos hblank rest
  rw [htext]
  simpa using Nat.ne_of_gt hpos

/-- The tokens of a text. -/
def tokensOf (s : List Char) : List Token := (lexemes s).map (·.token)

theorem tokensOf_nil : tokensOf [] = [] := rfl

/-- Blanks in front of a text have no tokens. -/
theorem tokensOf_cons_blank {c : Char} (hc : Text.isBlank c = true) (s : List Char) :
    tokensOf (c :: s) = tokensOf s := by
  rw [tokensOf, lexemes_cons_blank hc]
  rfl

/-- A text that starts with no blank has the token that is scanned there, and those of the rest. -/
theorem tokensOf_cons {c : Char} (hc : Text.isBlank c = false) (s : List Char) :
    tokensOf (c :: s) =
      (Token.scan (c :: s)).1 :: tokensOf ((c :: s).drop (Token.scan (c :: s)).2) := by
  rw [tokensOf, lexemes_cons hc]
  rfl

/-- The token at the front of a text, and those of the text behind it. -/
theorem tokensOf_of_scan {s rest : List Char} {token : Token} (hne : s ≠ [])
    (hblank : ∀ c, s.head? = some c → Text.isBlank c = false)
    (hscan : Token.scan (s ++ rest) = (token, s.length)) :
    tokensOf (s ++ rest) = token :: tokensOf rest := by
  cases s with
  | nil => exact absurd rfl hne
  | cons c s =>
    have htokens := tokensOf_cons (hblank c rfl) (s ++ rest)
    rwa [← List.cons_append, hscan, List.drop_left] at htokens

/-! ## Texts put together -/

namespace Token

variable {s : List Char} {c : Char}

/-- A word does not reach beyond a blank character. -/
theorem word_append_cons (hc : Text.isBlank c = true) (s t : List Char) :
    word (s ++ c :: t) = word s := by
  have hrest : word (c :: t) = [] := by simp [word, hc]
  rw [word, List.takeWhile_append, ← word, ← word, hrest, List.append_nil]
  split
  · next hall => exact ((List.takeWhile_prefix _).eq_of_length hall).symm
  · rfl

/-- Where no quote opens a phrase, the text of a term is a word. -/
theorem scanText_of_not_quote {field : Option Field} {negated : Bool}
    (h : s.head? ≠ some '"') :
    scanText field negated s =
      (term { field, text := String.ofList (word s), negated }, (word s).length) := by
  unfold scanText
  split
  · exact absurd rfl h
  · rfl

/-- A quote that is closed opens a phrase. -/
theorem scanText_of_closed {field : Option Field} {negated : Bool} {opened text : List Char}
    {n : Nat} (h : closePhrase? opened = some (text, n)) :
    scanText field negated ('"' :: opened) =
      (term { field, text := String.ofList (Text.squeeze text), isPhrase := true, negated },
        n + 1) := by
  simp only [scanText, h]

/-- A quote that is never closed belongs to a word. -/
theorem scanText_of_unclosed {field : Option Field} {negated : Bool} {opened : List Char}
    (h : closePhrase? opened = none) :
    scanText field negated ('"' :: opened) =
      (term { field, text := String.ofList (word ('"' :: opened)), negated },
        (word ('"' :: opened)).length) := by
  simp only [scanText, h]

/-- Without quotes, the token at the front of a text is told by what stands before a blank
character. -/
theorem scan_append_cons (hs : '"' ∉ s) (hc : Text.isBlank c = true) (t : List Char) :
    scan (s ++ c :: t) = scan s := by
  have hword := word_append_cons hc s t
  have hterm : scanTerm (s ++ c :: t) = scanTerm s := by
    have hfront := Nat.le_trans (frontLength_le (word s)) (length_word_le s)
    have hrest : '"' ∉ s.drop (frontLength (word s)) := fun h => hs (List.mem_of_mem_drop h)
    have hquote : (s.drop (frontLength (word s)) ++ c :: t).head? ≠ some '"' := by
      intro h
      cases hdrop : s.drop (frontLength (word s)) with
      | nil =>
        -- behind the whole of the text stands the blank character, which is no quote
        rw [hdrop] at h
        cases h
        exact absurd hc (by decide)
      | cons d rest =>
        rw [hdrop] at h
        cases h
        exact hrest (by rw [hdrop]; exact List.mem_cons_self)
    simp only [scanTerm_eq, hword]
    rw [List.drop_append_of_le_length hfront, scanText_of_not_quote hquote,
      scanText_of_not_quote fun h => hrest (List.mem_of_head? h), word_append_cons hc]
  simp only [scan, hword, hterm]

end Token

/-- A blank character separates the tokens of a text without quotes from those behind it. -/
theorem tokensOf_append_cons {s : List Char} {c : Char} (hs : '"' ∉ s)
    (hc : Text.isBlank c = true) (t : List Char) :
    tokensOf (s ++ c :: t) = tokensOf s ++ tokensOf t := by
  induction s using lexemes_induction with
  | nil => exact tokensOf_cons_blank hc t
  | blank d s hd ih =>
    rw [List.cons_append, tokensOf_cons_blank hd, tokensOf_cons_blank hd]
    exact ih fun h => hs (List.mem_cons_of_mem d h)
  | token d s hd ih =>
    -- the first token ends before the blank character
    have hscan := Token.scan_append_cons hs hc t
    have hrest := ih fun h => hs (List.mem_of_mem_drop h)
    rw [List.cons_append] at hscan ⊢
    rw [tokensOf_cons hd, tokensOf_cons hd, hscan, ← List.cons_append,
      List.drop_append_of_le_length (Token.scan_le (d :: s)), hrest, List.cons_append]

/-- Blank characters in front of a text hold no token. -/
theorem tokensOf_blanks_append {w : List Char} (hw : ∀ c ∈ w, Text.isBlank c = true)
    (t : List Char) : tokensOf (w ++ t) = tokensOf t := by
  induction w with
  | nil => rfl
  | cons c w ih =>
    obtain ⟨hc, hw⟩ := List.forall_mem_cons.mp hw
    rw [List.cons_append, tokensOf_cons_blank hc, ih hw]

/-- A query is read from the tokens of its text. -/
theorem Query.parse_eq (text : String) :
    Query.parse text = Query.ofTokens (tokensOf text.toList) := rfl

/-- A text is parsed as the query of its tokens. -/
theorem Query.parse_ofList (s : List Char) :
    Query.parse (String.ofList s) = Query.ofTokens (tokensOf s) := by
  rw [Query.parse_eq, String.toList_ofList]

end Curation
