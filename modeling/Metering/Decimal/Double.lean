import Metering.Decimal.Basic

/-!
# Decimal — Double

Finite double-precision numbers in exact arithmetic: the one nearest to a decimal numeral, and products and quotients.
A half goes to the even mantissa; a result whose nearest neighbour would have too large an exponent has none.
-/

namespace Metering

/-- `mantissa · 2 ^ exponent`, below zero if `negative`.  The mantissa has at most 53 bits and the exponent is at
least -1074; a mantissa of fewer bits has that least exponent. -/
structure Double where
  negative : Bool
  mantissa : Nat
  exponent : Int
deriving DecidableEq

namespace Double

/-- The least mantissa of 53 bits. -/
def leastNormal : Nat := 0x10000000000000

/-- The quotient rounded to the nearest number, a half to the even one. -/
def roundDiv (num den : Nat) : Nat :=
  let quotient := num / den
  let twice := 2 * (num % den)
  if den < twice ∨ (twice = den ∧ quotient % 2 = 1) then quotient + 1 else quotient

/-- `num / den` times `2 ^ shift`, as a fraction. -/
def scaled (num den : Nat) (shift : Int) : Nat × Nat :=
  (num * Nat.pow 2 shift.toNat, den * Nat.pow 2 (-shift).toNat)

/-- The greatest `e` with `2 ^ e ≤ num / den`. -/
def floorLog2 (num den : Nat) : Int :=
  let guess : Int := num.log2 - den.log2
  let (n, d) := scaled num den (-guess)
  if n < d then guess - 1 else guess

/-- The double nearest to `num / den`, if its exponent is not too large. -/
def ofFraction (negative : Bool) (num den : Nat) : Option Double :=
  if num = 0 then some ⟨negative, 0, -1074⟩
  else
    let exponent := max (floorLog2 num den - 52) (-1074)
    let (n, d) := scaled num den (-exponent)
    let mantissa := roundDiv n d
    let (mantissa, exponent) :=
      if mantissa = 2 * leastNormal then (leastNormal, exponent + 1) else (mantissa, exponent)
    if 971 < exponent then none else some ⟨negative, mantissa, exponent⟩

/-- The double nearest to a product. -/
def mul (x y : Double) : Option Double :=
  let (n, d) := scaled (x.mantissa * y.mantissa) 1 (x.exponent + y.exponent)
  ofFraction (x.negative != y.negative) n d

/-- The double nearest to a quotient, whose divisor is not zero. -/
def div (x y : Double) : Option Double :=
  let (n, d) := scaled x.mantissa y.mantissa (x.exponent - y.exponent)
  ofFraction (x.negative != y.negative) n d

/-- The double nearest to a numeral.  Every double lies between `10 ^ -324` and `10 ^ 309`, so numerals far outside
are not expanded. -/
def nearest (x : Decimal) : Option Double :=
  let magnitude := x.exponent + Decimal.length x.digits
  if x.digits = 0 ∨ magnitude < -330 then some ⟨x.negative, 0, -1074⟩
  else if 330 < magnitude then none
  else ofFraction x.negative (x.digits * Nat.pow 10 x.exponent.toNat)
      (Nat.pow 10 (-x.exponent).toNat)

/-- What is rounded stays within a half of the quotient. -/
theorem roundDiv_near (num : Nat) {den : Nat} (h : 0 < den) :
    2 * num ≤ 2 * (roundDiv num den * den) + den ∧ 2 * (roundDiv num den * den) ≤ 2 * num + den := by
  have hd := Nat.div_add_mod num den
  have hm := Nat.mod_lt num h
  have hc := Nat.mul_comm den (num / den)
  simp only [roundDiv]
  split
  · rw [Nat.add_mul, Nat.one_mul]; omega
  · omega

end Double

end Metering
