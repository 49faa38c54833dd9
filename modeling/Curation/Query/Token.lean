import Curation.Query.Basic
import Curation.Text.Blank

/-!
# Tokens of queries

A query is written as tokens with blanks between them: the keywords `AND` and `OR`, and terms. A
term is an optional dash, an optional field name with a colon, and a word or a phrase between
double quotes. A word reaches to the next blank. A phrase reaches to the next double quote that no
backslash precedes; a quote that is never closed belongs to the word it stands in.

* `Token.scan`: the token at the front of a text, and its length.
* `lexemes`: the tokens of a text, each with the text it is written as.
-/

namespace Curation

/-- A token of a written query. -/
inductive Token where
  | term (term : Term)
  -- the keyword between terms that have to match together
  | and
  -- the keyword between alternatives
  | or
  deriving DecidableEq, Repr

/-- A token with the text it is written as. -/
structure Lexeme where
  token : Token
  /-- The text it is written as. -/
  text : List Char
  deriving DecidableEq, Repr

namespace Token

/-- The characters up to the next blank. -/
def word (s : List Char) : List Char := s.takeWhile (!Text.isBlank ·)

/-- The text of a phrase after its opening quote, and the number of characters up to and with the
closing quote. A backslash stands for the character after it. -/
def closePhrase? : List Char → Option (List Char × Nat)
  | [] => none
  | '"' :: _ => some ([], 1)
  | ['\\'] => none
  | '\\' :: c :: s => (closePhrase? s).map fun (text, n) => (c :: text, n + 2)
  | c :: s => (closePhrase? s).map fun (text, n) => (c :: text, n + 1)

/-- The field that a word names before its first colon, and the number of characters up to and with
the colon; nothing if there is no such field. -/
def fieldPrefix (s : List Char) : Option Field × Nat :=
  let name := s.takeWhile (· != ':')
  if name.length < s.length then
    match Field.ofName? (String.ofList name) with
    | some field => (some field, name.length + 1)
    | none => (none, 0)
  else (none, 0)

/-- The term of a text that follows a dash or not and a field name or not, and the length of its
word or phrase. -/
def scanText (field : Option Field) (negated : Bool) (s : List Char) : Token × Nat :=
  let plain := word s
  let ofWord := (term { field, text := String.ofList plain, negated }, plain.length)
  match s with
  | '"' :: rest =>
    match closePhrase? rest with
    | some (text, n) =>
      (term { field, text := String.ofList (Text.squeeze text), isPhrase := true, negated }, n + 1)
    | none => ofWord
  | _ => ofWord

/-- The term at the front of a text, and its length. -/
def scanTerm (s : List Char) : Token × Nat :=
  let plain := word s
  -- A dash that stands alone is a word.
  let dash := if plain.head? = some '-' ∧ 1 < plain.length then 1 else 0
  let (field, colon) := fieldPrefix (plain.drop dash)
  let (token, n) := scanText field (dash == 1) (s.drop (dash + colon))
  (token, dash + colon + n)

/-- The token at the front of a text that starts with no blank, and its length. -/
def scan (s : List Char) : Token × Nat :=
  let plain := word s
  if plain = ['A', 'N', 'D'] then (and, 3)
  else if plain = ['O', 'R'] then (or, 2)
  else scanTerm s

end Token

/-- The lexemes of a text after `passed` characters that belong to the last one. -/
def lexemesFrom : Nat → List Char → List Lexeme
  | _, [] => []
  | passed + 1, _ :: s => lexemesFrom passed s
  | 0, c :: s =>
    if Text.isBlank c then lexemesFrom 0 s
    else
      let scanned := Token.scan (c :: s)
      ⟨scanned.1, (c :: s).take scanned.2⟩ :: lexemesFrom (scanned.2 - 1) s

/-- The lexemes of a text, in order. -/
def lexemes (s : List Char) : List Lexeme := lexemesFrom 0 s

end Curation
