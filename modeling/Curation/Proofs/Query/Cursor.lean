import Curation.Proofs.Query.Shapes
import Curation.Proofs.Text.Slices

/-!
# Tokens read at places in bytes

A token is read at a place in an encoded text: the end of its word is searched, the dash and the
name of a field are passed over, and the closing quote of a phrase is searched, each told by the
number of bytes before it. All texts on the way are cut out between such places, which fails where
a place lies behind the end of the text or inside a character. It never does: the token read so is
the one that stands there.

* `scanAt?`: the token at a place, and the place behind it.
* `wordEnd?_append`, `fieldAt?_append`, `closeFrom?_eq`, `textAt?_append`: the places it stops at.
* `scanAt?_append`: reading by places never fails and reads the token behind the place.
-/

namespace Curation.Token

open Text

/-- The place where the word that begins at a place ends: before the next blank character, or at
the end of the text. -/
def wordEnd? (s : List Char) (start : Nat) : Option Nat :=
  (sliceFrom? s start).map fun rest =>
    match bytesTo? isBlank rest with
    | some n => start + n
    | none => (utf8 s).length

/-- The field that a text between two places names before its first colon, and the place behind
the colon; the first of the places if no field is named. -/
def fieldAt? (s : List Char) (start stop : Nat) : Option (Option Field × Nat) := do
  let body ← slice? s start stop
  match bytesTo? (· == ':') body with
  | none => some (none, start)
  | some n =>
    let name ← slice? body 0 n
    match Field.ofName? (String.ofList name) with
    | some field => some (some field, start + n + 1)
    | none => some (none, start)

/-- The text of a phrase, and the place behind the quote that closes it. The characters of `text`
have been read up to a place, and `escaped` tells whether a backslash takes the next one. -/
def closeFrom? (escaped : Bool) (text : List Char) (place : Nat) :
    List Char → Option (List Char × Nat)
  | [] => none
  | c :: s =>
    let next := place + c.utf8Size
    if escaped then closeFrom? false (text ++ [c]) next s
    else if c = '\\' then closeFrom? true text next s
    else if c = '"' then some (text, next)
    else closeFrom? false (text ++ [c]) next s

/-- The text of the phrase that opens at a place, and the place behind it, if it is closed. -/
def phraseAt? (s : List Char) (start : Nat) : Option (Option (List Char × Nat)) :=
  (sliceFrom? s (start + 1)).map (closeFrom? false [] (start + 1))

/-- The term whose text begins at a place, and the place behind it; `stop` is the end of the
word. -/
def textAt? (field : Option Field) (negated : Bool) (s : List Char) (start stop : Nat) :
    Option (Token × Nat) := do
  let rest ← sliceFrom? s start
  let phrase? ← if rest.head? = some '"' then phraseAt? s start else some none
  match phrase? with
  | some (text, next) =>
    some (term { field, text := String.ofList (squeeze text), isPhrase := true, negated }, next)
  | none =>
    let text ← slice? s start stop
    some (term { field, text := String.ofList text, negated }, stop)

/-- The token that begins at a place, and the place behind it. -/
def scanAt? (s : List Char) (start : Nat) : Option (Token × Nat) := do
  let stop ← wordEnd? s start
  let plain ← slice? s start stop
  if plain = ['A', 'N', 'D'] then some (and, stop)
  else if plain = ['O', 'R'] then some (or, stop)
  else
    let negated := decide (1 < (utf8 plain).length ∧ plain.head? = some '-')
    let (field, front) ← fieldAt? s (if negated then start + 1 else start) stop
    textAt? field negated s front stop

/-- A word is read up to its end. -/
theorem wordEnd?_append (before s : List Char) :
    wordEnd? (before ++ s) (utf8 before).length = some (utf8 (before ++ word s)).length := by
  have hfind : bytesTo? isBlank s =
      if (word s).length < s.length then some (utf8 (word s)).length else none := bytesTo?_eq _ s
  by_cases hlength : (word s).length < s.length
  · rw [if_pos hlength] at hfind
    simp only [wordEnd?, sliceFrom?_append, hfind, Option.map_some, length_utf8_append]
  · -- without a blank character the word is the whole of the text
    rw [if_neg hlength] at hfind
    have hword : word s = s :=
      (List.takeWhile_prefix _).eq_of_length
        (Nat.le_antisymm (length_word_le s) (Nat.le_of_not_lt hlength))
    rw [wordEnd?, sliceFrom?_append, Option.map_some, hfind, hword]

/-- The field that is found between two places is the field prefix of the text between them. -/
theorem fieldAt?_append (before body rest : List Char) :
    fieldAt? (before ++ body ++ rest) (utf8 before).length (utf8 (before ++ body)).length =
      some ((fieldPrefix body).1, (utf8 (before ++ body.take (fieldPrefix body).2)).length) := by
  let name := body.takeWhile (· != ':')
  have hfind : bytesTo? (· == ':') body =
      if name.length < body.length then some (utf8 name).length else none := bytesTo?_eq _ body
  -- without a field nothing is passed over
  have hnone : some ((none : Option Field), (utf8 before).length) =
      some (none, (utf8 (before ++ body.take 0)).length) := by
    rw [List.take_zero, List.append_nil]
  by_cases hlength : name.length < body.length
  · obtain ⟨later, hbody⟩ := exists_eq_append_colon hlength
    have hname : slice? body 0 (utf8 name).length = some name := by
      have hslice := slice?_append [] name (':' :: later)
      rwa [List.nil_append, ← hbody] at hslice
    rw [if_pos hlength] at hfind
    simp only [fieldAt?, slice?_append, hfind, hname, bind, Option.bind_some]
    cases hfield : Field.ofName? (String.ofList name) with
    | none =>
      have hread : fieldPrefix body = (none, 0) := by
        simp only [fieldPrefix, name, hlength, hfield, if_true]
      rw [hread]
      exact hnone
    | some field =>
      have hread : fieldPrefix body = (some field, name.length + 1) := by
        simp only [fieldPrefix, name, hlength, hfield, if_true]
      have htake : body.take (name.length + 1) = name ++ [':'] := by
        have htake := @List.take_length_add_append _ name (':' :: later) 1
        rwa [← hbody] at htake
      rw [hread, htake, length_utf8_append, length_utf8_append, ← Nat.add_assoc]
      rfl
  · have hread : fieldPrefix body = (none, 0) := by
      simp only [fieldPrefix, name, hlength, if_false]
    rw [if_neg hlength] at hfind
    simp only [fieldAt?, slice?_append, hfind, bind, Option.bind_some, hread]
    exact hnone

/-- The closing quote is found by its place. -/
theorem closeFrom?_eq (text : List Char) (place : Nat) (s : List Char) :
    closeFrom? false text place s =
      (closePhrase? s).map fun closed =>
        (text ++ closed.1, place + (utf8 (s.take closed.2)).length) := by
  fun_induction closePhrase? s generalizing text place with
  | case1 => rfl
  | case2 s => simp [closeFrom?]
  | case3 => simp [closeFrom?]
  | case4 c s ih =>
    -- the backslash is not read into the text, and the character behind it is whatever it is
    have hread : closeFrom? false text place ('\\' :: c :: s) =
        closeFrom? false (text ++ [c]) (place + '\\'.utf8Size + c.utf8Size) s := by
      simp [closeFrom?]
    rw [hread, ih, Option.map_map]
    congr 1
    funext closed
    simp [Nat.add_assoc]
  | case5 c s hquote hlast hpair ih =>
    have hslash := ne_backslash hlast hpair
    have hread : closeFrom? false text place (c :: s) =
        closeFrom? false (text ++ [c]) (place + c.utf8Size) s := by
      rw [closeFrom?, if_neg Bool.false_ne_true, if_neg hslash, if_neg hquote]
    rw [hread, ih, Option.map_map]
    congr 1
    funext closed
    simp [Nat.add_assoc]

section Parts

variable {field : Option Field} {negated : Bool} {s text rest : List Char}

/-- The text behind a quote starts one byte behind the place of the quote. -/
theorem sliceFrom?_quote (before opened : List Char) :
    sliceFrom? (before ++ '"' :: opened) ((utf8 before).length + 1) = some opened := by
  have hslice := sliceFrom?_append (before ++ ['"']) opened
  rwa [length_utf8_append, List.append_assoc] at hslice

/-- A word or a phrase is read up to its end. -/
theorem textAt?_append (before : List Char) (htext : word (text ++ rest) = text) :
    let scanned := scanText field negated (text ++ rest)
    textAt? field negated (before ++ (text ++ rest)) (utf8 before).length
        (utf8 (before ++ text)).length =
      some (scanned.1, (utf8 (before ++ (text ++ rest).take scanned.2)).length) := by
  intro scanned
  have hslice : slice? (before ++ (text ++ rest)) (utf8 before).length
      (utf8 (before ++ text)).length = some text := by
    rw [← List.append_assoc]
    exact slice?_append before text rest
  by_cases hquote : (text ++ rest).head? = some '"'
  · -- the quote opens a phrase if it is closed anywhere in the text, even behind the word
    obtain ⟨opened, hopened⟩ := List.head?_eq_some_iff.mp hquote
    have hphrase : phraseAt? (before ++ (text ++ rest)) (utf8 before).length =
        some ((closePhrase? opened).map fun closed =>
          (closed.1, (utf8 before).length + 1 + (utf8 (opened.take closed.2)).length)) := by
      rw [phraseAt?, hopened, sliceFrom?_quote, Option.map_some, closeFrom?_eq]
      simp only [List.nil_append]
    simp only [textAt?, sliceFrom?_append, hquote, if_true, hphrase, bind, Option.bind_some]
    cases hclose : closePhrase? opened with
    | none =>
      have hscanned : scanned = _ :=
        (congrArg (scanText field negated) hopened).trans (scanText_of_unclosed hclose)
      rw [hscanned, ← hopened, htext, List.take_left]
      simp only [Option.map_none, hslice, Option.bind_some]
    | some closed =>
      have hscanned : scanned = _ :=
        (congrArg (scanText field negated) hopened).trans (scanText_of_closed hclose)
      have hbytes : (utf8 (before ++ ('"' :: opened).take (closed.2 + 1))).length =
          (utf8 before).length + 1 + (utf8 (opened.take closed.2)).length := by
        rw [List.take_succ_cons, length_utf8_append, length_utf8_cons, Nat.add_assoc]
        rfl
      simp only [hscanned, hopened, hbytes, Option.map_some]
  · have hscanned : scanned = _ := scanText_of_not_quote hquote
    rw [hscanned, htext, List.take_left]
    simp only [textAt?, sliceFrom?_append, hquote, hslice, if_false, bind, Option.bind_some]

/-- A dash is told by the bytes of the word, as it takes one byte itself. -/
theorem Parts.negated_eq (p : Parts s) :
    decide (1 < (utf8 (word s)).length ∧ (word s).head? = some '-') = p.negated := by
  have hlength : dashLength (word s) =
      if 1 < (utf8 (word s)).length ∧ (word s).head? = some '-' then 1 else 0 := by
    refine if_congr ?_ rfl rfl
    rw [and_comm]
    refine and_congr_left fun hhead => ?_
    obtain ⟨body, hword⟩ := List.head?_eq_some_iff.mp hhead
    have hbody : 0 < body.length ↔ 0 < (utf8 body).length := by
      rw [List.length_pos_iff, Nat.pos_iff_ne_zero, Ne, Ne, length_utf8_eq_zero_iff]
    rw [hword, length_utf8_cons, List.length_cons]
    have hdash : '-'.utf8Size = 1 := rfl
    -- behind the dash, some character stands exactly if some byte does
    omega
  rw [← p.beq_dashLength, hlength]
  split <;> simp_all

/-- The dash is passed over by one byte. -/
theorem place_dash (before : List Char) (negated : Bool) :
    (if negated then (utf8 before).length + 1 else (utf8 before).length) =
      (utf8 (before ++ dash negated)).length := by
  rw [length_utf8_append]
  cases negated <;> rfl

/-- The name of the field is found behind the dash. -/
theorem Parts.fieldAt?_append (p : Parts s) (before : List Char) :
    fieldAt? (before ++ s) (utf8 (before ++ dash p.negated)).length
        (utf8 (before ++ word s)).length =
      some (p.field, (utf8 (before ++ (dash p.negated ++ p.name))).length) := by
  have hfield := Token.fieldAt?_append (before ++ dash p.negated) (p.name ++ p.text) p.rest
  have hs : before ++ dash p.negated ++ (p.name ++ p.text) ++ p.rest = before ++ s := by
    simpa only [List.append_assoc] using congrArg (before ++ ·) p.append_eq
  have hword : before ++ dash p.negated ++ (p.name ++ p.text) = before ++ word s := by
    rw [List.append_assoc, p.word_eq, List.append_assoc]
  rwa [hs, hword, p.fieldPrefix_eq, List.take_left, List.append_assoc] at hfield

/-- Reading a token at a place never fails: the token that stands there is read up to its end. -/
theorem scanAt?_append (before s : List Char) :
    scanAt? (before ++ s) (utf8 before).length =
      some ((scan s).1, (utf8 (before ++ s.take (scan s).2)).length) := by
  obtain ⟨rest, hs, -⟩ := exists_eq_word_append s
  have hplain : slice? (before ++ s) (utf8 before).length (utf8 (before ++ word s)).length =
      some (word s) := by
    have hslice := slice?_append before (word s) rest
    rwa [List.append_assoc, ← hs] at hslice
  have ofKeyword (token : Token) (n : Nat) (hlength : (word s).length = n) :
      some (token, (utf8 (before ++ word s)).length) =
        some (token, (utf8 (before ++ s.take n)).length) := by
    have htake : word s = s.take (word s).length :=
      List.prefix_iff_eq_take.mp (List.takeWhile_prefix _)
    rw [← hlength, ← htake]
  simp only [scanAt?, wordEnd?_append, hplain, bind, Option.bind_some, scan]
  split
  · next hand => exact ofKeyword and 3 (by rw [hand]; rfl)
  · split
    · next hor => exact ofKeyword or 2 (by rw [hor]; rfl)
    · -- the text of the term is read at the place behind the dash and the name of the field
      obtain ⟨p⟩ := nonempty_parts s
      have htext := @textAt?_append p.field p.negated _ _ (before ++ (dash p.negated ++ p.name))
        p.word_text
      have happend : before ++ (dash p.negated ++ p.name) ++ (p.text ++ p.rest) = before ++ s := by
        rw [List.append_assoc, p.append_eq]
      have hword : before ++ (dash p.negated ++ p.name) ++ p.text = before ++ word s := by
        rw [List.append_assoc, p.word_eq]
      rw [happend, hword] at htext
      simp only [p.negated_eq, place_dash, p.fieldAt?_append, Option.bind_some, htext,
        p.scanTerm_eq, p.take_add, List.append_assoc]

end Parts

end Curation.Token
