import Collector.Number.Double

/-!
# Arithmetic

Sums, products, quotients and remainders of finite numbers, each rounded once. Where a result is
not finite there is none.
-/

namespace Collector.Double

/-- The value of a finite number as a fraction. -/
def ratio? : Double → Option (Int × Nat)
  | .finite negative mantissa e =>
    let (numerator, denominator) := magnitudeRatio mantissa e
    some (if negative then -(numerator : Int) else numerator, denominator)
  | _ => none

/-- Whether a number has a minus sign. -/
def isNegative : Double → Bool
  | .finite negative _ _ => negative
  | .infinite negative => negative
  | .notANumber => false

/-- A number unless it is infinite. -/
def finite? : Double → Option Double
  | .finite negative mantissa e => some (.finite negative mantissa e)
  | _ => none

/-- The number nearest to a fraction. A zero has the given sign. -/
def nearest? (zeroSign : Bool) (numerator : Int) (denominator : Nat) : Option Double :=
  if numerator = 0 then some (zero zeroSign)
  else finite? (ofRatio (numerator < 0) numerator.natAbs denominator)

/-- The sum of two finite numbers. It is a negative zero only if both are. -/
def add? (x y : Double) : Option Double := do
  let (a, b) ← x.ratio?
  let (c, d) ← y.ratio?
  nearest? (x.isNegative && y.isNegative) (a * d + c * b) (b * d)

/-- The difference of two finite numbers. -/
def subtract? (x y : Double) : Option Double := x.add? y.negate

/-- The product of two finite numbers. -/
def multiply? (x y : Double) : Option Double := do
  let (a, b) ← x.ratio?
  let (c, d) ← y.ratio?
  nearest? (x.isNegative != y.isNegative) (a * c) (b * d)

/-- The quotient of two finite numbers. -/
def divide? (x y : Double) : Option Double := do
  let (a, b) ← x.ratio?
  let (c, d) ← y.ratio?
  if c = 0 then none
  else nearest? (x.isNegative != y.isNegative) (a * d * c.sign) (b * c.natAbs)

/-- What is left of a finite number after whole quotients, with its sign. -/
def remainder? (x y : Double) : Option Double := do
  let (a, b) ← x.ratio?
  let (c, d) ← y.ratio?
  if c = 0 then none
  else nearest? x.isNegative (Int.tmod (a * d) (c * b)) (b * d)

/-- A power with a whole exponent that is not negative, if it is exact. -/
def power? (x y : Double) : Option Double := do
  let n ← y.toInt?
  let base ← x.toInt?
  if 0 ≤ n ∧ n ≤ 64 then nearest? false (base.pow n.toNat) 1 else none

/-- Whether one finite number is less than another. -/
def less? (x y : Double) : Option Bool := do
  let (a, b) ← x.ratio?
  let (c, d) ← y.ratio?
  return decide (a * d < c * b)

/-- The whole number of 32 bits that a finite number stands for in operations on bits. -/
def toBits32? (x : Double) : Option Int := do
  let (a, b) ← x.ratio?
  return Int.bmod (Int.tdiv a b) (1 <<< 32)

/-- The number nearest to a whole number. -/
def ofInt (n : Int) : Double := ofRatio (n < 0) n.natAbs 1

end Collector.Double
