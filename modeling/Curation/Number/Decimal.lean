import Curation.Number.Digits
import Curation.Number.Double

/-!
# Decimal numerals

Decimal texts of doubles: the double nearest to a decimal fraction, the reading of a decimal
numeral, and the shortest digits that read back as a given double.

* `ofDecimal`: the double nearest to `digits · 10 ^ exponent`.
* `readNumeral?`: the double that a text denotes.
* `shortest`: of the fewest digits that read back, those nearest to the value.
-/

namespace Curation.Double

/-- The double nearest to `digits · 10 ^ exponent`. Values beyond the decimal exponents that
doubles reach are settled without computing the power. -/
def ofDecimal (negative : Bool) (digits : Nat) (exponent : Int) : Double :=
  let leading := exponent + (Digits.ofNat digits).length
  if digits = 0 ∨ leading < -400 then ⟨negative, 0, zeroRank_lt⟩
  else if 400 < leading then infinity negative
  else if 0 ≤ exponent then ofRatio negative (digits * Nat.pow 10 exponent.toNat) 1
  else ofRatio negative digits (Nat.pow 10 (-exponent).toNat)

/-- The sign at the front of a text, a text without one being positive, and the text after it. -/
def splitSign : List Char → Bool × List Char
  | '-' :: s => (true, s)
  | '+' :: s => (false, s)
  | s => (false, s)

/-- The exponent part of a numeral, a missing one being zero. -/
def readExponent? : List Char → Option Int
  | [] => some 0
  | c :: s =>
    if c = 'e' ∨ c = 'E' then
      let (negative, ds) := splitSign s
      if Digits.areDigits ds then
        some (if negative then -(Digits.value ds : Int) else Digits.value ds)
      else none
    else none

/-- The double that a numeral without sign denotes: digits with at most one point among or beside
them, and an exponent part. -/
def readUnsigned? (negative : Bool) (s : List Char) : Option Double := do
  let whole := s.takeWhile Char.isDigit
  let rest := s.dropWhile Char.isDigit
  let (fraction, rest) := match rest with
    | '.' :: rest => (rest.takeWhile Char.isDigit, rest.dropWhile Char.isDigit)
    | rest => ([], rest)
  if (whole ++ fraction).isEmpty then none
  else
    let exponent ← readExponent? rest
    some (ofDecimal negative (Digits.value (whole ++ fraction)) (exponent - fraction.length))

/-- The double that a text denotes: an optional sign, and a numeral or, in any case, the name of
infinity or of no number. -/
def readNumeral? (s : List Char) : Option Double :=
  let (negative, s) := splitSign s
  let name := String.ofList (s.map Char.toLower)
  if name = "inf" ∨ name = "infinity" then some (infinity negative)
  else if name = "nan" then some ⟨negative, infiniteRank + Nat.pow 2 51, by decide⟩
  else readUnsigned? negative s

/-- The least place `p` with `num / den < 10 ^ p`, for a positive ratio. -/
def decimalPlace (num den : Nat) : Int :=
  let below (p : Int) : Bool :=
    if 0 ≤ p then num < den * Nat.pow 10 p.toNat else num * Nat.pow 10 (-p).toNat < den
  -- The logarithms are cut off, so the estimate is less than two places away.
  let estimate : Int := (((num.log2 : Int) - den.log2) * 30103) / 100000
  (((List.range 5).map fun i : Nat => estimate - 2 + (i : Int)).find? below).getD (estimate + 3)

/-- Of two neighbours `low` and `low + 1` of `num / den`, those that pass `keep`, the nearer first
and of two equally near ones the even one. -/
def neighbour? (num den : Nat) (keep : Nat → Bool) : Option Nat :=
  let low := num / den
  let rest := num % den
  let nearer := if 2 * rest < den ∨ (2 * rest = den ∧ low % 2 = 0) then [low, low + 1]
    else [low + 1, low]
  nearer.find? keep

/-- The digits and the exponent of the decimal with at most `count` digits that reads back as the
double and is nearest to it, if there is one. -/
def decimalOf? (d : Double) (count : Nat) : Option (Nat × Int) :=
  let exponent := decimalPlace d.magnitude one - count
  let (num, den) :=
    if 0 ≤ exponent then (d.magnitude, one * Nat.pow 10 exponent.toNat)
    else (d.magnitude * Nat.pow 10 (-exponent).toNat, one)
  (neighbour? num den fun digits => ofDecimal d.negative digits exponent = d).map fun digits =>
    -- The upper neighbour may have one digit more, and is a power of ten then.
    if digits = Nat.pow 10 count then (1, exponent + count) else (digits, exponent)

/-- The digits and the exponent of the shortest decimal that reads back as a finite double that is
not zero. -/
def shortest (d : Double) : Nat × Int :=
  ((List.range 17).findSome? fun n => decimalOf? d (n + 1)).getD (0, 0)

end Curation.Double
