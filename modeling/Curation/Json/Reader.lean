import Curation.Json.Number

/-!
# Reading JSON

A JSON text is one value between blanks, a blank being a space, a tab, a line feed or a carriage
return. `read?` gives the value with the members of its objects as they are written, and accepts
also strings that are no text. A document is a value that is not too deep, whose strings are texts,
whose numbers are all finite, and of whose members of one name the last counts: `parse?` gives it in
sorted form.
-/

namespace Curation.Json

/-- The text after its leading blanks. -/
def skipBlanks (s : List Char) : List Char :=
  s.dropWhile fun c => c == ' ' || c == '\n' || c == '\t' || c == '\r'

/-- The value of a hexadecimal digit. -/
def hexDigit? (c : Char) : Option Nat :=
  if c.isDigit then some (c.toNat - '0'.toNat)
  else if 'a' ≤ c ∧ c ≤ 'f' then some (c.toNat - 'a'.toNat + 10)
  else if 'A' ≤ c ∧ c ≤ 'F' then some (c.toNat - 'A'.toNat + 10)
  else none

/-- The number of the four hexadecimal digits at the front of a text, and the text after them. -/
def readHex? : List Char → Option (Nat × List Char)
  | a :: b :: c :: d :: s => do
    let a ← hexDigit? a
    let b ← hexDigit? b
    let c ← hexDigit? c
    let d ← hexDigit? d
    some (((a * 16 + b) * 16 + c) * 16 + d, s)
  | _ => none

/-- The character that an upper and a lower surrogate make together. -/
def joinSurrogates (upper lower : Nat) : Char :=
  Char.ofNat (0x10000 + (upper - 0xD800) * 0x400 + (lower - 0xDC00))

/-- The code unit of the lower surrogates whose escape is at the front of a text, and the text after
it. -/
def readLowerSurrogate? : List Char → Option (Nat × List Char)
  | '\\' :: 'u' :: s => (readHex? s).filter fun (unit, _) => 0xDC00 ≤ unit && unit ≤ 0xDFFF
  | _ => none

/-- The character that an escape by code units denotes, and the text after it: an upper surrogate
makes a character with the lower one that follows it, and a surrogate alone makes none. -/
def readCodeUnits? (s : List Char) : Option (Option Char × List Char) := do
  let (unit, s) ← readHex? s
  if unit < 0xD800 ∨ 0xDFFF < unit then some (some (Char.ofNat unit), s)
  else if 0xDC00 ≤ unit then some (none, s)
  else
    match readLowerSurrogate? s with
    | some (lower, s) => some (some (joinSurrogates unit lower), s)
    | none => some (none, s)

/-- The character that the escape after a backslash denotes, if it denotes one, and the text after
the escape. -/
def readEscape? : List Char → Option (Option Char × List Char)
  | '"' :: s => some (some '"', s)
  | '\\' :: s => some (some '\\', s)
  | '/' :: s => some (some '/', s)
  | 'b' :: s => some (some '\x08', s)
  | 'f' :: s => some (some '\x0c', s)
  | 'n' :: s => some (some '\n', s)
  | 'r' :: s => some (some '\r', s)
  | 't' :: s => some (some '\t', s)
  | 'u' :: s => readCodeUnits? s
  | _ => none

/-- The text up to the closing quote, unless a surrogate stands alone in it, and what comes after
the quote; `fuel` bounds the number of characters. -/
def readString? : Nat → Option (List Char) → List Char → Option (Option String × List Char)
  | 0, _, _ => none
  | _ + 1, _, [] => none
  | fuel + 1, before, c :: s =>
    if c = '"' then some (before.map fun before => String.ofList before.reverse, s)
    else if c = '\\' then do
      let (c, s) ← readEscape? s
      readString? fuel (before.bind fun before => c.map (· :: before)) s
    else if c.toNat < 32 then none
    else readString? fuel (before.map (c :: ·)) s

/-- A string as a value. -/
def ofText? : Option String → Json
  | some text => .string text
  | none => .illegible

/-- An object as a value. -/
def ofMembers? : Option (List (String × Json)) → Json
  | some members => .object members
  | none => .illegible

/-- The text after a word at its front. -/
def afterWord? (word s : List Char) : Option (List Char) :=
  if word.isPrefixOf s then some (s.drop word.length) else none

mutual

/-- The value at the front of a text, after blanks, and the text after it; `fuel` bounds the number
of steps. -/
def readValue? : Nat → List Char → Option (Json × List Char)
  | 0, _ => none
  | fuel + 1, s =>
    match skipBlanks s with
    | 'n' :: s => (afterWord? ['u', 'l', 'l'] s).map (.null, ·)
    | 't' :: s => (afterWord? ['r', 'u', 'e'] s).map (.bool true, ·)
    | 'f' :: s => (afterWord? ['a', 'l', 's', 'e'] s).map (.bool false, ·)
    | '"' :: s => (readString? (s.length + 1) (some []) s).map fun (text, s) => (ofText? text, s)
    | '[' :: s =>
      match skipBlanks s with
      | ']' :: s => some (.array [], s)
      | s => (readElements? fuel [] s).map fun (elements, s) => (.array elements, s)
    | '\x7b' :: s =>
      match skipBlanks s with
      | '\x7d' :: s => some (.object [], s)
      | s => (readMembers? fuel (some []) s).map fun (members, s) => (ofMembers? members, s)
    | s => readNumber? s

/-- The elements of an array up to its closing bracket, and the text after it. -/
def readElements? : Nat → List Json → List Char → Option (List Json × List Char)
  | 0, _, _ => none
  | fuel + 1, before, s => do
    let (value, s) ← readValue? fuel s
    match skipBlanks s with
    | ',' :: s => readElements? fuel (value :: before) s
    | ']' :: s => some ((value :: before).reverse, s)
    | _ => none

/-- The members of an object up to its closing brace, if their names are texts, and what comes after
the brace. -/
def readMembers? : Nat → Option (List (String × Json)) → List Char →
    Option (Option (List (String × Json)) × List Char)
  | 0, _, _ => none
  | fuel + 1, before, s =>
    match skipBlanks s with
    | '"' :: s => do
      let (name, s) ← readString? (s.length + 1) (some []) s
      match skipBlanks s with
      | ':' :: s =>
        let (value, s) ← readValue? fuel s
        let members := before.bind fun before => name.map fun name => (name, value) :: before
        match skipBlanks s with
        | ',' :: s => readMembers? fuel members s
        | '\x7d' :: s => some (members.map List.reverse, s)
        | _ => none
      | _ => none
    | _ => none

end

/-- The value that a text denotes, the members of its objects as they are written. -/
def read? (text : String) : Option Json :=
  let s := text.toList
  match readValue? (s.length + 1) s with
  | some (value, rest) => if (skipBlanks rest).isEmpty then some value else none
  | none => none

mutual

/-- Whether at most `depth` arrays and objects stand inside each other, every string is a text, and
every double is finite. -/
def isDocument : Nat → Json → Bool
  | _, .illegible => false
  | _, .double d => d.isFinite
  | 0, .array _ => false
  | depth + 1, .array elements => areDocuments depth elements
  | 0, .object _ => false
  | depth + 1, .object members => membersAreDocuments depth members
  | _, _ => true

/-- Whether every element passes `isDocument`. -/
def areDocuments (depth : Nat) : List Json → Bool
  | [] => true
  | value :: elements => value.isDocument depth && areDocuments depth elements

/-- Whether the value of every member passes `isDocument`. -/
def membersAreDocuments (depth : Nat) : List (String × Json) → Bool
  | [] => true
  | (_, value) :: members => value.isDocument depth && membersAreDocuments depth members

end

/-- The greatest number of arrays and objects of a document inside each other. -/
def maxDepth : Nat := 127

/-- The document that a text denotes, in sorted form. -/
def parse? (text : String) : Option Json :=
  (read? text).bind fun value => if isDocument maxDepth value then some value.sorted else none

end Curation.Json
