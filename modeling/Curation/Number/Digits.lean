/-!
# Decimal digits

The number that a sequence of ASCII digits denotes, and the digits of a number.
-/

namespace Curation.Digits

/-- The number that a digit denotes. -/
def digitValue (c : Char) : Nat := c.toNat - '0'.toNat

/-- The number that a sequence of digits denotes. -/
def value (s : List Char) : Nat := s.foldl (fun n c => 10 * n + digitValue c) 0

/-- Whether the text is not empty and holds digits only. -/
def areDigits (s : List Char) : Bool := !s.isEmpty && s.all Char.isDigit

/-- The digits of a number. -/
def ofNat (n : Nat) : List Char := Nat.toDigits 10 n

/-- The digits of a number, with zeros before them up to a width. -/
def padded (width n : Nat) : List Char :=
  List.replicate (width - (ofNat n).length) '0' ++ ofNat n

end Curation.Digits
