import Curation.Json.Value
import Curation.Number.Decimal

/-!
# Numbers of JSON texts

A number without fraction and exponent is an integer if it fits 64 bits. Any other number is a
double: its leading digits, as many as make a number below 2⁶⁴, are rounded to a double and then
multiplied or divided by a power of ten, which is a double too. A number whose double would be
infinite keeps that infinity, which no document admits.
-/

namespace Curation.Json

/-- The digits read on from `n` while the number stays below 2⁶⁴, and the digits left. -/
def fitDigits : Nat → List Char → Nat × List Char
  | n, [] => (n, [])
  | n, c :: s =>
    let m := 10 * n + Digits.digitValue c
    if m < Nat.pow 2 64 then fitDigits m s else (n, c :: s)

/-- The double nearest to a power of ten. -/
def powerOfTen (n : Nat) : Double := Double.ofDecimal false 1 n

/-- A double divided by `10 ^ n`, 308 powers at a time; four such steps bring every number below
2⁶⁴ to zero. -/
def dividePower : Nat → Double → Nat → Double
  | 0, d, _ => Double.ofRatio d.negative 0 1
  | fuel + 1, d, n =>
    if n ≤ 308 then d.div (powerOfTen n)
    else dividePower fuel (d.div (powerOfTen 308)) (n - 308)

/-- A number below 2⁶⁴ scaled by a power of ten. -/
def scaled (n : Nat) (exponent : Int) : Double :=
  if n = 0 then Double.zero
  else if 308 < exponent then Double.infinity false
  else if 0 ≤ exponent then (Double.ofNat n).mul (powerOfTen exponent.toNat)
  else dividePower 4 (Double.ofNat n) (-exponent).toNat

/-- The number with the given digits before and after the point and the given exponent part, if
there are a fraction or an exponent part. -/
def numberOf (negative : Bool) (whole : List Char) (fraction : Option (List Char))
    (exponent : Option Int) : Json :=
  let (n, left) := fitDigits 0 whole
  if fraction.isNone && exponent.isNone && left.isEmpty then
    if !negative then .integer n
    -- Minus zero and what is below the integers of 64 bits can only be doubles.
    else if n = 0 ∨ Nat.pow 2 63 < n then .double (Double.ofNat n).neg
    else .integer (-n)
  else
    let digits := fraction.getD []
    let (n, leftFraction) := fitDigits n digits
    let place : Int := left.length - ((digits.length - leftFraction.length : Nat) : Int)
    let d := scaled n (place + exponent.getD 0)
    .double (if negative then d.neg else d)

/-- The fraction part at the front of a text, and the text after it. -/
def readFraction? : List Char → Option (Option (List Char) × List Char)
  | '.' :: s =>
    let digits := s.takeWhile Char.isDigit
    if digits.isEmpty then none else some (some digits, s.dropWhile Char.isDigit)
  | s => some (none, s)

/-- The exponent part at the front of a text, and the text after it. -/
def readExponent? : List Char → Option (Option Int × List Char)
  | [] => some (none, [])
  | c :: s =>
    if c = 'e' ∨ c = 'E' then
      let (negative, s) := Double.splitSign s
      let digits := s.takeWhile Char.isDigit
      if digits.isEmpty then none
      else
        let n : Int := Digits.value digits
        some (some (if negative then -n else n), s.dropWhile Char.isDigit)
    else some (none, c :: s)

/-- The number at the front of a text, and the text after it. A number with more than one digit
before the point does not start with zero. -/
def readNumber? (s : List Char) : Option (Json × List Char) := do
  let (negative, s) := match s with
    | '-' :: s => (true, s)
    | s => (false, s)
  let whole := s.takeWhile Char.isDigit
  if whole.isEmpty || (whole.head? == some '0' && 1 < whole.length) then none
  else
    let (fraction, s) ← readFraction? (s.dropWhile Char.isDigit)
    let (exponent, s) ← readExponent? s
    some (numberOf negative whole fraction exponent, s)

end Curation.Json
