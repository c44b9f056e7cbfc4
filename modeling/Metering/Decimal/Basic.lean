/-!
# Decimal — Basic

Decimal numerals: a whole number times a power of ten, with a sign.  `ofParts` reads one from the digits before and
after the point; `natOfDigits` reads a run of digits in a base.
-/

namespace Metering

/-- The value of an ASCII digit or letter as a digit of a base up to 36. -/
def digitValue (c : Char) : Option Nat :=
  if '0' ≤ c ∧ c ≤ '9' then some (c.toNat - '0'.toNat)
  else if 'a' ≤ c ∧ c ≤ 'z' then some (c.toNat - 'a'.toNat + 10)
  else if 'A' ≤ c ∧ c ≤ 'Z' then some (c.toNat - 'A'.toNat + 10)
  else none

/-- Whether a character is a decimal digit of ASCII. -/
def isDigit (c : Char) : Bool := '0' ≤ c && c ≤ '9'

/-- The number that a non-empty run of digits writes in a base. -/
def natOfDigits (base : Nat) : List Char → Option Nat
  | [] => none
  | cs => cs.foldlM (fun n c => (digitValue c).bind fun d =>
      if d < base then some (base * n + d) else none) 0

/-- `digits · 10 ^ exponent`, below zero if `negative`. -/
structure Decimal where
  negative : Bool
  digits : Nat
  exponent : Int
deriving DecidableEq

namespace Decimal

/-- The numeral with these digits before and after the point, times a power of ten. -/
def ofParts (negative : Bool) (whole fraction : List Char) (exponent : Int) : Decimal where
  negative
  digits := (natOfDigits 10 (whole ++ fraction)).getD 0
  exponent := exponent - fraction.length

/-- How many digits a number has in base ten. -/
def length (n : Nat) : Nat := (Nat.toDigits 10 n).length

end Decimal

end Metering
