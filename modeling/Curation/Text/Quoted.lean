import Curation.Text.Invisible

/-!
# Quoted texts

A message shows a text between double quotes. The quote and the backslash are preceded by a
backslash, four controls have short names, and every other character without a visible form is
shown by its code point.
-/

namespace Curation.Text

/-- The code point of a character in lower-case hexadecimal digits, as it is shown in a quoted
text. -/
def codePoint (c : Char) : List Char :=
  ['\\', 'u', '\x7b'] ++ Nat.toDigits 16 c.toNat ++ ['\x7d']

/-- A character as it is shown in a quoted text. -/
def quotedChar (c : Char) : List Char :=
  if c = '"' ∨ c = '\\' then ['\\', c]
  else if c = '\t' then ['\\', 't']
  else if c = '\n' then ['\\', 'n']
  else if c = '\r' then ['\\', 'r']
  else if c.toNat = 0 then ['\\', '0']
  else if isInvisible c then codePoint c
  else [c]

/-- A text between double quotes. -/
def quoted (s : String) : String :=
  String.ofList ('"' :: (s.toList.flatMap quotedChar ++ ['"']))

end Curation.Text
