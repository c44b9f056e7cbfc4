import Metering.Decimal.Shortest

/-!
# Decimal — Layout

How the digits of a double are laid out as text.  Every text has a point or an exponent, so that it does not read as
a whole number.
-/

namespace Metering.Decimal

/-- The decisions of a text format about its numbers. -/
structure Layout where
  /-- Whether a number whose point stands after that many digits is written without an exponent. -/
  isPositional : Int → Bool
  /-- Which of two shortest numerals is written that are as near to the number. -/
  tie : Double.Tie

/-- The digits with a point after the first `point` of them and zeros where there are none. -/
def positional (digits : List Char) (point : Int) : List Char :=
  if (digits.length : Int) ≤ point then
    digits ++ List.replicate (point - digits.length).toNat '0' ++ ['.', '0']
  else if 0 < point then digits.take point.toNat ++ '.' :: digits.drop point.toNat
  else '0' :: '.' :: (List.replicate (-point).toNat '0' ++ digits)

/-- The first digit, the others after a point, and the power of ten with its sign. -/
def scientific (digits : List Char) (point : Int) : List Char :=
  let fraction := digits.drop 1
  let power := point - 1
  digits.take 1 ++ (if fraction = [] then [] else '.' :: fraction) ++
    'e' :: (if power < 0 then '-' else '+') :: Nat.toDigits 10 power.natAbs

/-- The text of a double in a layout. -/
def Layout.text (layout : Layout) (x : Double) : String :=
  let numeral := x.shortest layout.tie
  let digits := Nat.toDigits 10 numeral.digits
  let point := digits.length + numeral.exponent
  let body := if layout.isPositional point then positional digits point else scientific digits point
  String.ofList ((if x.negative then ['-'] else []) ++ body)

end Metering.Decimal
