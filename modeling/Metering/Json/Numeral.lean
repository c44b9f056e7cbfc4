import Metering.Json.Basic

/-!
# Json — Numeral

The numbers of JSON texts (`ofNumeral`).  Whole numbers of 64 bits are kept exactly.  Any other number becomes a double
in two roundings: its first digits, as many as fit in a word, are rounded, and the result is scaled by a power of ten
that is a double itself.  So it may come out beside the double that is nearest to the number.
-/

namespace Metering.Json

/-- The characters that numbers are made of. -/
def isNumeric (c : Char) : Bool :=
  isDigit c || c = '-' || c = '+' || c = '.' || c = 'e' || c = 'E'

/-! ### Words -/

/-- Appends digits to a word while it stays one, and tells how many digits are left over. -/
def appendDigits (word : Nat) : List Char → Nat × Nat
  | [] => (word, 0)
  | c :: rest =>
      let longer := 10 * word + (digitValue c).getD 0
      if longer < UInt64.size then appendDigits longer rest else (word, rest.length + 1)

/-- The least whole number that is kept exactly. -/
def leastWhole : Int := -0x8000000000000000

/-! ### Doubles -/

/-- The greatest power of ten that is a double. -/
def greatestPower : Nat := 308

def power (n : Nat) : Double := (Double.nearest ⟨false, 1, n⟩).getD ⟨false, 0, -1074⟩

/-- A double times a power of ten.  Below the powers that are doubles it is divided twice; what is left of a word by
then is zero if a third time were needed. -/
def scale (x : Double) (exponent : Int) : Option Double :=
  if 0 ≤ exponent then
    if exponent ≤ greatestPower then x.mul (power exponent.toNat)
    else if x.mantissa = 0 then some x
    else none
  else
    let size := exponent.natAbs
    if size ≤ greatestPower then x.div (power size)
    else do (← x.div (power greatestPower)).div (power (min (size - greatestPower) greatestPower))

/-- A word times a power of ten. -/
def ofWord (negative : Bool) (word : Nat) (exponent : Int) : Option Json := do
  return float (← scale (← Double.ofFraction negative word 1) exponent)

/-! ### Numbers -/

/-- The exponent that a number ends with, zero if it has none. -/
def readExponent : List Char → Option Int
  | [] => some 0
  | e :: rest =>
      if e = 'e' ∨ e = 'E' then
        match rest with
        | '-' :: ds => (natOfDigits 10 ds).map fun n => -(n : Int)
        | '+' :: ds => (natOfDigits 10 ds).map Int.ofNat
        | ds => (natOfDigits 10 ds).map Int.ofNat
      else none

/-- A whole number: kept exactly if it has 64 bits, but for the negative zero. -/
def ofWhole (negative : Bool) (digits : List Char) : Option Json :=
  let (word, left) := appendDigits 0 digits
  let value : Int := if negative then -word else word
  if 0 < left ∨ (negative ∧ word = 0) ∨ value < leastWhole then ofWord negative word left
  else some (integer value)

/-- The number that a text writes. -/
def ofNumeral (text : List Char) : Option Json :=
  let negative := text.head? = some '-'
  let text := if negative then text.drop 1 else text
  let whole := text.takeWhile isDigit
  let rest := text.dropWhile isDigit
  let (word, left) := appendDigits 0 whole
  if whole = [] ∨ (whole.head? = some '0' ∧ whole ≠ ['0']) then none
  else
    match rest with
    | [] => ofWhole negative whole
    | '.' :: rest =>
        let fraction := rest.takeWhile isDigit
        let (word, unread) := appendDigits word fraction
        if fraction = [] then none
        else (readExponent (rest.dropWhile isDigit)).bind fun e =>
          ofWord negative word (e + left + unread - fraction.length)
    | rest => (readExponent rest).bind fun e => ofWord negative word (e + left)

end Metering.Json
