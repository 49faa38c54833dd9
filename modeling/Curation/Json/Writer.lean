import Curation.Json.Value
import Curation.Number.Decimal

/-!
# Written JSON

The two written forms of a JSON value: `compact`, on one line and without spaces, and `pretty`, with
one element or member to a line, indented by two spaces for each enclosing value.
-/

namespace Curation.Json

/-- The text of two hexadecimal digits of a number below 256. -/
def hexByte (n : Nat) : List Char :=
  [Nat.digitChar (n / 16), Nat.digitChar (n % 16)]

/-- A character as it is written inside a string. -/
def writtenChar (c : Char) : List Char :=
  if c = '"' ∨ c = '\\' then ['\\', c]
  else if c = '\n' then ['\\', 'n']
  else if c = '\r' then ['\\', 'r']
  else if c = '\t' then ['\\', 't']
  else if c.toNat = 8 then ['\\', 'b']
  else if c.toNat = 12 then ['\\', 'f']
  else if c.toNat < 32 then ['\\', 'u', '0', '0'] ++ hexByte c.toNat
  else [c]

/-- The written form of a string. -/
def writtenString (s : String) : String :=
  String.ofList ('"' :: (s.toList.flatMap writtenChar ++ ['"']))

/-- The exponent of a written double, with its sign. -/
def writtenExponent (exponent : Int) : List Char :=
  'e' :: (if exponent < 0 then '-' else '+') :: Digits.ofNat exponent.natAbs

/-- The written form of the digits of a double that is not zero: with a point where the leading
digit stands from the fifth place after the point to the sixteenth before it, else with one digit
before the point and an exponent. -/
def writtenDigits (digits : List Char) (exponent : Int) : List Char :=
  let point : Int := digits.length + exponent
  if 0 ≤ exponent ∧ point ≤ 16 then
    digits ++ List.replicate exponent.toNat '0' ++ ['.', '0']
  else if 0 < point ∧ point ≤ 16 then
    digits.take point.toNat ++ '.' :: digits.drop point.toNat
  else if -5 < point ∧ point ≤ 0 then
    ['0', '.'] ++ List.replicate (-point).toNat '0' ++ digits
  else
    match digits with
    | first :: second :: rest => first :: '.' :: second :: rest ++ writtenExponent (point - 1)
    | digits => digits ++ writtenExponent (point - 1)

/-- The written form of a finite double: the shortest digits that read back. -/
def writtenDouble (d : Double) : String :=
  let sign := if d.negative then ['-'] else []
  if d.rank = 0 then String.ofList (sign ++ ['0', '.', '0'])
  else
    let (digits, exponent) := d.shortest
    String.ofList (sign ++ writtenDigits (Digits.ofNat digits) exponent)

/-- The written form of a value that holds no other value; what has none, such as an infinite
double, is written as absent. -/
def writtenScalar : Json → String
  | .bool true => "true"
  | .bool false => "false"
  | .integer n => toString n
  | .double d => if d.isFinite then writtenDouble d else "null"
  | .string s => writtenString s
  | _ => "null"

/-- The texts joined by a separator between each two. -/
def joined (separator : String) : List String → String
  | [] => ""
  | [text] => text
  | text :: texts => text ++ separator ++ joined separator texts

mutual

/-- The value on one line and without spaces. -/
def compact : Json → String
  | .array elements => "[" ++ joined "," (compactElements elements) ++ "]"
  | .object members => "\x7b" ++ joined "," (compactMembers members) ++ "\x7d"
  | value => writtenScalar value

/-- The elements of an array, each on one line. -/
def compactElements : List Json → List String
  | [] => []
  | value :: elements => value.compact :: compactElements elements

/-- The members of an object, each on one line. -/
def compactMembers : List (String × Json) → List String
  | [] => []
  | (name, value) :: members =>
    (writtenString name ++ ":" ++ value.compact) :: compactMembers members

end

/-- The start of a line inside `depth` values. -/
def newline (depth : Nat) : String :=
  String.ofList ('\n' :: List.replicate (2 * depth) ' ')

/-- Texts one to a line inside `depth + 1` values, between an opening and a closing text. -/
def block (opening closing : String) (depth : Nat) : List String → String
  | [] => opening ++ closing
  | texts =>
    opening ++ newline (depth + 1) ++ joined ("," ++ newline (depth + 1)) texts ++ newline depth ++
      closing

mutual

/-- The value with one element or member to a line, inside `depth` values. -/
def prettyAt (depth : Nat) : Json → String
  | .array elements => block "[" "]" depth (prettyElements (depth + 1) elements)
  | .object members => block "\x7b" "\x7d" depth (prettyMembers (depth + 1) members)
  | value => writtenScalar value

/-- The elements of an array, each inside `depth` values. -/
def prettyElements (depth : Nat) : List Json → List String
  | [] => []
  | value :: elements => value.prettyAt depth :: prettyElements depth elements

/-- The members of an object, each inside `depth` values. -/
def prettyMembers (depth : Nat) : List (String × Json) → List String
  | [] => []
  | (name, value) :: members =>
    (writtenString name ++ ": " ++ value.prettyAt depth) :: prettyMembers depth members

end

/-- The value with one element or member to a line. -/
def pretty (value : Json) : String := value.prettyAt 0

end Curation.Json
