import Mathlib.Data.List.DropRight
import Curation.Proofs.Query.Lexemes

/-!
# How tokens stand in a text

A token that is read off the front of a text is a keyword, a word or a phrase. Keywords and words
reach to the next blank character. A phrase is told from a word by the whole of the text: it opens
with a quote that some later quote closes, and it ends with the first one that does.

* `Text.IsEscaped`, `Text.IsUnclosed`: quotes that close no phrase.
* `Text.ClosesAt`: where the first quote stands that closes a phrase.
* `Token.closesAt_closePhrase?`: the reader of a phrase stops behind that quote.
* `Token.Stands`: how a token is written in front of the rest of a text.
* `Token.stands_scan`: the token at the front of a text stands there.
-/

namespace Curation

namespace Text

/-- A character behind `before` is escaped: an odd number of backslashes stands right before it. -/
def IsEscaped (before : List Char) : Prop :=
  (before.rtakeWhile (· == '\\')).length % 2 = 1

instance (before : List Char) : Decidable (IsEscaped before) :=
  inferInstanceAs (Decidable (_ = _))

/-- The text closes no phrase: each double quote in it is escaped. -/
def IsUnclosed (s : List Char) : Prop :=
  ∀ before after, s = before ++ '"' :: after → IsEscaped before

/-- How many characters there are up to and with the first quote that is not escaped, if there is
one. -/
def ClosesAt (s : List Char) : Option Nat → Prop
  | none => IsUnclosed s
  | some n => ∃ body rest, s = body ++ '"' :: rest ∧ n = body.length + 1 ∧
      IsUnclosed body ∧ ¬ IsEscaped body

/-- A text that closes no phrase and escapes nothing behind it. -/
structure IsNeutral (t : List Char) : Prop where
  unclosed : IsUnclosed t
  isEscaped_append_iff : ∀ before, IsEscaped (t ++ before) ↔ IsEscaped before

section Escaped

variable {c : Char} {s t : List Char}

theorem not_isEscaped_nil : ¬ IsEscaped [] := by decide

theorem isEscaped_backslash : IsEscaped ['\\'] := by decide

/-- A character behind another one is escaped if that is a backslash which is not escaped itself. -/
theorem isEscaped_append_singleton (s : List Char) (c : Char) :
    IsEscaped (s ++ [c]) ↔ c = '\\' ∧ ¬ IsEscaped s := by
  -- a backslash at the end makes the run of backslashes longer by one, and nothing else has a run
  unfold IsEscaped
  rw [List.rtakeWhile_concat]
  split
  · next hc =>
    rw [List.length_append, List.length_singleton, beq_iff_eq.mp hc]
    simp only [true_and]
    omega
  · next hc => simp_all

theorem isUnclosed_nil : IsUnclosed [] := by simp [IsUnclosed]

/-- A text is neutral if it holds no quote that is not escaped, and what stands right behind it is
not escaped. -/
theorem isNeutral_of_not_isEscaped (ht : IsUnclosed t) (hend : ¬ IsEscaped t) : IsNeutral t where
  unclosed := ht
  isEscaped_append_iff before := by
    induction before using List.reverseRecOn with
    | nil => simp [hend, not_isEscaped_nil]
    | append_singleton before d ih =>
      rw [← List.append_assoc, isEscaped_append_singleton, isEscaped_append_singleton, ih]

/-- A character that is neither a backslash nor a quote is neutral. -/
theorem isNeutral_singleton (hslash : c ≠ '\\') (hquote : c ≠ '"') : IsNeutral [c] := by
  refine isNeutral_of_not_isEscaped (fun before after heq => ?_) ?_
  · have hmem : '"' ∈ [c] := by simp [heq]
    exact absurd (List.mem_singleton.mp hmem).symm hquote
  · simpa [hslash] using isEscaped_append_singleton [] c

/-- A backslash takes the character behind it, be it a quote or another backslash. -/
theorem isNeutral_backslash (c : Char) : IsNeutral ['\\', c] := by
  refine isNeutral_of_not_isEscaped (fun before after heq => ?_) ?_
  · match before, heq with
    | [d], heq =>
      obtain ⟨rfl, -⟩ := List.cons.inj heq
      exact isEscaped_backslash
    | _ :: _ :: before, heq => simp at heq
  · simpa [isEscaped_backslash] using isEscaped_append_singleton ['\\'] c

theorem isUnclosed_backslash : IsUnclosed ['\\'] := by
  intro before after heq
  have hmem : '"' ∈ ['\\'] := by simp [heq]
  exact absurd hmem (by decide)

/-- A neutral text does not close the text that it stands before. -/
theorem IsNeutral.isUnclosed_append (ht : IsNeutral t) (hs : IsUnclosed s) :
    IsUnclosed (t ++ s) := by
  intro before after heq
  rcases List.append_eq_append_iff.mp heq with ⟨rest, rfl, hrest⟩ | ⟨rest, rfl, hrest⟩
  · exact (ht.isEscaped_append_iff rest).mpr (hs rest after hrest)
  · -- the quote is the first character of `s`, or it stands in `t`
    cases rest with
    | nil => exact absurd (hs [] after hrest.symm) not_isEscaped_nil
    | cons d rest =>
      obtain ⟨rfl, -⟩ := List.cons.inj hrest
      exact ht.unclosed before rest rfl

/-- A neutral text in front of another one moves the place where a phrase is closed. -/
theorem ClosesAt.append {place : Option Nat} (ht : IsNeutral t) (h : ClosesAt s place) :
    ClosesAt (t ++ s) (place.map (· + t.length)) := by
  cases place with
  | none => exact ht.isUnclosed_append h
  | some n =>
    -- the text in front moves the place of the closing quote by its length
    obtain ⟨body, rest, rfl, rfl, hbody, hend⟩ := h
    refine ⟨t ++ body, rest, (List.append_assoc ..).symm, ?_, ht.isUnclosed_append hbody, ?_⟩
    · show body.length + 1 + t.length = (t ++ body).length + 1
      rw [List.length_append]
      omega
    · rwa [ht.isEscaped_append_iff]

end Escaped

end Text

namespace Field

/-- What names the only field of a term in front of its text: a name with a colon, or nothing if
the term has none. -/
inductive IsNamedBy : Option Field → List Char → Prop
  | none : IsNamedBy none []
  | some {field : Field} {name : List Char} :
      ofName? (String.ofList name) = some field → IsNamedBy (some field) (name ++ [':'])

end Field

namespace Token

open Text

/-- The dash in front of a term, if the term is negated. -/
def dash (negated : Bool) : List Char := if negated then ['-'] else []

/-- How a token is written in a text, in front of `rest`. -/
inductive Stands : Token → List Char → List Char → Prop
  | and {rest : List Char} : EndsWord rest → Stands .and ['A', 'N', 'D'] rest
  | or {rest : List Char} : EndsWord rest → Stands .or ['O', 'R'] rest
  -- a word is written as it is, and a quote it begins with is closed nowhere in the text
  | word {t : Term} {name rest : List Char} :
      t.isPhrase = false → Field.IsNamedBy t.field name →
      (∀ c ∈ dash t.negated ++ name ++ t.text.toList, isBlank c = false) → EndsWord rest →
      (∀ opened, t.text.toList = '"' :: opened → IsUnclosed (opened ++ rest)) →
      Stands (.term t) (dash t.negated ++ name ++ t.text.toList) rest
  -- the first quote that is not escaped closes a phrase
  | phrase {t : Term} {name body rest : List Char} :
      t.isPhrase = true → Field.IsNamedBy t.field name → IsUnclosed body → ¬ IsEscaped body →
      Stands (.term t) (dash t.negated ++ name ++ '"' :: (body ++ ['"'])) rest

/-- A character is no backslash if it stands neither last as one nor in front of another. -/
theorem ne_backslash {c : Char} {s : List Char} (hlast : c = '\\' → s = [] → False)
    (hpair : ∀ d rest, c = '\\' → s = d :: rest → False) : c ≠ '\\' := by
  intro hc
  cases s with
  | nil => exact hlast hc rfl
  | cons d rest => exact hpair d rest hc rfl

/-- A phrase is closed by the first quote that is not escaped. -/
theorem closesAt_closePhrase? (s : List Char) : ClosesAt s ((closePhrase? s).map (·.2)) := by
  fun_induction closePhrase? s with
  | case1 => exact isUnclosed_nil
  | case2 s => exact ⟨[], s, rfl, rfl, isUnclosed_nil, not_isEscaped_nil⟩
  | case3 => exact isUnclosed_backslash
  -- a backslash with what it takes, and any other character but a quote, move the closing quote
  | case4 c s ih => simpa [Function.comp_def] using ih.append (isNeutral_backslash c)
  | case5 c s hquote hlast hpair ih =>
    have hneutral := isNeutral_singleton (ne_backslash hlast hpair) hquote
    simpa [Function.comp_def] using ih.append hneutral

/-- A phrase that is read up to its closing quote. -/
theorem exists_of_closePhrase? {s text : List Char} {n : Nat}
    (h : closePhrase? s = some (text, n)) :
    ∃ body rest, s = body ++ '"' :: rest ∧ n = body.length + 1 ∧ IsUnclosed body ∧
      ¬ IsEscaped body := by
  have hcloses := closesAt_closePhrase? s
  rwa [h] at hcloses

/-- A phrase that is not closed has no quote that is not escaped. -/
theorem isUnclosed_of_closePhrase? {s : List Char} (h : closePhrase? s = none) :
    IsUnclosed s := by
  have hcloses := closesAt_closePhrase? s
  rwa [h] at hcloses

/-- The field of a term is named at the front of its word. -/
theorem exists_isNamedBy_fieldPrefix (s : List Char) :
    ∃ name text, s = name ++ text ∧ (fieldPrefix s).2 = name.length ∧
      Field.IsNamedBy (fieldPrefix s).1 name := by
  rw [fieldPrefix]
  split
  · next hlt =>
    obtain ⟨rest, hsplit⟩ := exists_eq_append_colon hlt
    split
    · next field hfield =>
      -- the colon belongs to the name
      refine ⟨s.takeWhile (· != ':') ++ [':'], rest, ?_, ?_, .some hfield⟩
      · rwa [List.append_assoc]
      · rw [List.length_append, List.length_singleton]
    · exact ⟨[], s, rfl, rfl, .none⟩
  · exact ⟨[], s, rfl, rfl, .none⟩

/-! ## The parts of a term -/

/-- A text that begins with a term, cut behind the dash, behind the name of the field and behind the
word. A dash and a name may be missing, and then there is nothing before the cut. -/
structure Parts (s : List Char) where
  negated : Bool
  field : Option Field
  /-- What names the field, with the colon. -/
  name : List Char
  /-- What is left of the word. -/
  text : List Char
  /-- What stands behind the word. -/
  rest : List Char
  append_eq : dash negated ++ name ++ (text ++ rest) = s
  word_eq : word s = dash negated ++ name ++ text
  endsWord : EndsWord rest
  dashLength_eq : dashLength (word s) = (dash negated).length
  fieldPrefix_eq : fieldPrefix (name ++ text) = (field, name.length)
  isNamedBy : Field.IsNamedBy field name

/-- The dash of a word is taken from its front, if there is one. -/
theorem take_dashLength (plain : List Char) :
    plain.take (dashLength plain) = dash (dashLength plain == 1) := by
  unfold dashLength
  split
  · next h =>
    obtain ⟨body, rfl⟩ := List.head?_eq_some_iff.mp h.1
    rfl
  · rfl

theorem length_dash (plain : List Char) :
    (dash (dashLength plain == 1)).length = dashLength plain := by
  unfold dashLength
  split <;> rfl

/-- Every text can be parted into dash, name of a field, rest of the word and rest. -/
theorem nonempty_parts (s : List Char) : Nonempty (Parts s) := by
  -- the word is cut off first, then the dash in front of it, and then the name of the field
  obtain ⟨rest, hs, hrest⟩ := exists_eq_word_append s
  obtain ⟨name, text, hbody, hlength, hnamed⟩ :=
    exists_isNamedBy_fieldPrefix ((word s).drop (dashLength (word s)))
  have hword : word s = dash (dashLength (word s) == 1) ++ name ++ text := by
    rw [List.append_assoc, ← hbody, ← take_dashLength, List.take_append_drop]
  refine ⟨⟨dashLength (word s) == 1, _, name, text, rest, ?_, hword, hrest, (length_dash _).symm,
    Prod.ext ?_ ?_, hnamed⟩⟩
  · rw [← List.append_assoc, ← hword, ← hs]
  · rw [← hbody]
  · rw [← hbody, hlength]

namespace Parts

variable {s : List Char}

/-- The parts of a word have no blanks. -/
theorem not_blank (p : Parts s) : ∀ c ∈ dash p.negated ++ p.name ++ p.text, isBlank c = false := by
  intro c hc
  rw [← p.word_eq] at hc
  exact not_blank_of_mem_word hc

/-- What is left of the word is the word at its place. -/
theorem word_text (p : Parts s) : word (p.text ++ p.rest) = p.text :=
  word_append_of_endsWord (fun c hc => p.not_blank c (List.mem_append_right _ hc)) p.endsWord

/-- The word starts with a dash exactly if the term is negated. -/
theorem beq_dashLength (p : Parts s) : (dashLength (word s) == 1) = p.negated := by
  rw [p.dashLength_eq]
  cases p.negated <;> rfl

/-- Behind the dash stand the name of the field and what is left of the word. -/
theorem drop_dashLength (p : Parts s) :
    (word s).drop (dashLength (word s)) = p.name ++ p.text := by
  rw [p.dashLength_eq, p.word_eq, List.append_assoc, List.drop_left]

/-- Behind its dash and the name of its field, a term is a word or a phrase. -/
theorem scanTerm_eq (p : Parts s) :
    let scanned := scanText p.field p.negated (p.text ++ p.rest)
    scanTerm s = (scanned.1, (dash p.negated ++ p.name).length + scanned.2) := by
  have hfront : frontLength (word s) = (dash p.negated ++ p.name).length := by
    rw [frontLength, p.drop_dashLength, p.fieldPrefix_eq, p.dashLength_eq, List.length_append]
  have hdrop : s.drop (dash p.negated ++ p.name).length = p.text ++ p.rest := by
    have hdrop := @List.drop_left _ (dash p.negated ++ p.name) (p.text ++ p.rest)
    rwa [p.append_eq] at hdrop
  rw [Token.scanTerm_eq]
  simp only [hfront, hdrop, p.beq_dashLength, p.drop_dashLength, p.fieldPrefix_eq]

/-- The text up to the end of a word or a phrase, and the text behind it. -/
theorem take_add (p : Parts s) (n : Nat) :
    s.take ((dash p.negated ++ p.name).length + n) =
      dash p.negated ++ p.name ++ (p.text ++ p.rest).take n := by
  have htake := @List.take_length_add_append _ (dash p.negated ++ p.name) (p.text ++ p.rest) n
  rwa [p.append_eq] at htake

/-- Places behind the dash and the name of the field are counted from there. -/
theorem drop_add (p : Parts s) (n : Nat) :
    s.drop ((dash p.negated ++ p.name).length + n) = (p.text ++ p.rest).drop n := by
  have hdrop := @List.drop_length_add_append _ (dash p.negated ++ p.name) (p.text ++ p.rest) n
  rwa [p.append_eq] at hdrop

/-- The word or the phrase behind the dash and the name of the field stands there. -/
theorem stands_scanText (p : Parts s) :
    let scanned := scanText p.field p.negated (p.text ++ p.rest)
    Stands scanned.1 (dash p.negated ++ p.name ++ (p.text ++ p.rest).take scanned.2)
      ((p.text ++ p.rest).drop scanned.2) := by
  intro scanned
  let t : Term := { field := p.field, text := String.ofList p.text, negated := p.negated }
  have ofWord (hunclosed : ∀ opened, p.text = '"' :: opened → IsUnclosed (opened ++ p.rest))
      (hscanned : scanned = (.term t, p.text.length)) :
      Stands scanned.1 (dash p.negated ++ p.name ++ (p.text ++ p.rest).take scanned.2)
        ((p.text ++ p.rest).drop scanned.2) := by
    have hstands := @Stands.word t p.name p.rest rfl p.isNamedBy
    rw [String.toList_ofList] at hstands
    rw [hscanned, List.take_left, List.drop_left]
    exact hstands p.not_blank p.endsWord hunclosed
  -- a quote in front opens a phrase if it is closed, and belongs to the word if not
  by_cases hquote : (p.text ++ p.rest).head? = some '"'
  · obtain ⟨opened, hopened⟩ := List.head?_eq_some_iff.mp hquote
    cases hclose : closePhrase? opened with
    | none =>
      refine ofWord (fun later hlater => ?_) ?_
      · rw [hlater, List.cons_append] at hopened
        rw [(List.cons.inj hopened).2]
        exact isUnclosed_of_closePhrase? hclose
      · have hword := p.word_text
        rw [hopened] at hword
        simp only [scanned, t, hopened, scanText_of_unclosed hclose, hword]
    | some closed =>
      obtain ⟨body, later, rfl, hn, hbody, hend⟩ := exists_of_closePhrase? hclose
      have hsplit : p.text ++ p.rest = '"' :: (body ++ ['"']) ++ later := by simp [hopened]
      have hlength : closed.2 + 1 = ('"' :: (body ++ ['"'])).length := by simp [hn]
      have hscanned : scanned = _ :=
        (congrArg (scanText p.field p.negated) hopened).trans (scanText_of_closed hclose)
      rw [hscanned, hsplit, hlength, List.take_left, List.drop_left]
      exact .phrase rfl p.isNamedBy hbody hend
  · refine ofWord (fun opened hopened => ?_) ?_
    · rw [hopened] at hquote
      exact absurd rfl hquote
    · simp only [scanned, t, scanText_of_not_quote hquote, p.word_text]

end Parts

/-- The token at the front of a text stands there. -/
theorem stands_scan (s : List Char) :
    Stands (scan s).1 (s.take (scan s).2) (s.drop (scan s).2) := by
  obtain ⟨rest, hs, hrest⟩ := exists_eq_word_append s
  unfold scan
  dsimp only
  split
  · next hand =>
    rw [hand] at hs
    rw [hs]
    exact .and hrest
  · split
    · next hor =>
      rw [hor] at hs
      rw [hs]
      exact .or hrest
    -- what is no keyword is a term, parted into dash, field and text
    · obtain ⟨parts⟩ := nonempty_parts s
      rw [parts.scanTerm_eq]
      dsimp only
      rw [parts.take_add, parts.drop_add]
      exact parts.stands_scanText

end Token

end Curation
