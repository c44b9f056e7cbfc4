import Metering.Decimal.Double

/-!
# Decimal — Shortest

The shortest decimal numeral that reads back as a given double.  The numerals that read back fill an interval around
the number, its ends included when the mantissa is even.  Grids of ten's powers are tried from the coarsest on; on
each, only the two neighbours of the number can be the nearest numeral.
-/

namespace Metering.Double

/-- Which of two numerals is taken that are as near to a number. -/
inductive Tie where
  | up
  | toEven
deriving DecidableEq

/-- Whether the lower of two neighbours is taken, given its digits. -/
def Tie.picksLower : Tie → Nat → Bool
  | up, _ => false
  | toEven, digits => digits % 2 = 0

/-- The number and the two ends of the interval of numerals that read back as it, over one denominator. -/
structure Interval where
  low : Nat
  value : Nat
  high : Nat
  den : Nat
  closed : Bool

/-- The interval that rounds to a double: half a step to each side, a quarter below a power of two. -/
def interval (x : Double) : Interval :=
  let below := if x.mantissa = leastNormal ∧ x.exponent ≠ -1074 then 1 else 2
  let up := Nat.pow 2 (x.exponent - 2).toNat
  { low := (4 * x.mantissa - below) * up
    value := 4 * x.mantissa * up
    high := (4 * x.mantissa + 2) * up
    den := Nat.pow 2 (2 - x.exponent).toNat
    closed := x.mantissa % 2 = 0 }

namespace Interval

def holds (i : Interval) (n : Nat) : Bool :=
  if i.closed then i.low ≤ n && n ≤ i.high else i.low < n && n < i.high

/-- The interval with its numbers multiplied, so that one step of the grid `10 ^ k` is a whole number. -/
def onGrid (i : Interval) (k : Int) : Interval :=
  let up := Nat.pow 10 (-k).toNat
  { i with low := i.low * up, value := i.value * up, high := i.high * up }

/-- The point of the grid `10 ^ k` in the interval that is nearest to its number. -/
def nearestOn (i : Interval) (tie : Tie) (k : Int) : Option Nat :=
  let j := i.onGrid k
  let step := j.den * Nat.pow 10 k.toNat
  let below := j.value / step
  let above := below + 1
  let toBelow := j.value - below * step
  let toAbove := above * step - j.value
  if j.holds (below * step) && (!j.holds (above * step) || toBelow < toAbove ||
      (toBelow == toAbove && tie.picksLower below)) then some below
  else if j.holds (above * step) then some above
  else none

end Interval

/-- The shortest numeral that reads back as `x`.  Its digits have no trailing zero, for a numeral with one would lie
on a coarser grid. -/
def shortest (tie : Tie) (x : Double) : Decimal :=
  if x.mantissa = 0 then ⟨x.negative, 0, 0⟩
  else
    let grid (n : Nat) : Int := 309 - n
    let found := (List.range 660).findSome? fun n =>
      (x.interval.nearestOn tie (grid n)).map fun digits => (digits, grid n)
    let (digits, exponent) := found.getD (0, 0)
    ⟨x.negative, digits, exponent⟩

end Metering.Double
