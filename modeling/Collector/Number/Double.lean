/-!
# Doubles

Binary floating-point numbers of 64 bits, held exactly: a finite one is a sign, a whole number
and a power of two. A rational number is rounded to the nearest double, and a half goes to the
even neighbour.
-/

namespace Collector

/-- A floating-point number with 53 significant bits and exponents from -1074 to 971.

A finite number is in lowest exponent form: its mantissa is below `2 ^ 53`, and it is at least
`2 ^ 52` unless the exponent is the least one. -/
inductive Double where
  | finite (negative : Bool) (mantissa : Nat) (exponent : Int)
  | infinite (negative : Bool)
  | notANumber
  deriving DecidableEq

namespace Double

/-- The least exponent. -/
def leastExponent : Int := -1074

/-- The greatest exponent. -/
def greatestExponent : Int := 971

/-- Zero with a sign. -/
def zero (negative : Bool) : Double := .finite negative 0 leastExponent

/-- The power `base ^ e` as a numerator and a denominator. -/
def powerRatio (base : Nat) (e : Int) : Nat × Nat :=
  if 0 ≤ e then (base.pow e.toNat, 1) else (1, base.pow (-e).toNat)

/-- The whole number nearest to `numerator / denominator`, a half going to the even one. -/
def nearestEven (numerator denominator : Nat) : Nat :=
  let quotient := numerator / denominator
  let twice := 2 * (numerator % denominator)
  if twice < denominator then quotient
  else if denominator < twice then quotient + 1
  else quotient + quotient % 2

/-- The exponent at which `numerator / denominator` is rounded: the one that leaves 53 bits
before the point, and no less than the least one. -/
def ratioExponent (numerator denominator : Nat) : Int :=
  let guess : Int := (numerator.log2 : Int) - (denominator.log2 : Int) - 52
  let (up, down) := powerRatio 2 guess
  let tight := if numerator * down / (denominator * up) < 1 <<< 52 then guess - 1 else guess
  max tight leastExponent

/-- The double nearest to `numerator / denominator`, for a positive denominator. -/
def ofRatio (negative : Bool) (numerator denominator : Nat) : Double :=
  if numerator = 0 then zero negative
  else
    let e := ratioExponent numerator denominator
    let (up, down) := powerRatio 2 e
    let rounded := nearestEven (numerator * down) (denominator * up)
    let (mantissa, e) := if rounded = 1 <<< 53 then (1 <<< 52, e + 1) else (rounded, e)
    if greatestExponent < e then .infinite negative else .finite negative mantissa e

/-- The double nearest to a whole number. -/
def ofNat (n : Nat) : Double := ofRatio false n 1

/-- The double nearest to `significand * 10 ^ e`. Scales far outside the range of doubles are
answered without computing the power. -/
def ofDecimal (negative : Bool) (significand : Nat) (e : Int) : Double :=
  let digits : Int := (Nat.toDigits 10 significand).length
  if significand = 0 || digits + e < -330 then zero negative
  else if 310 < digits + e then .infinite negative
  else
    let (up, down) := powerRatio 10 e
    ofRatio negative (significand * up) down

/-- Magnitude of a finite number as a numerator and a denominator. -/
def magnitudeRatio (mantissa : Nat) (e : Int) : Nat × Nat :=
  let (up, down) := powerRatio 2 e
  (mantissa * up, down)

/-- Whether a number is infinite. -/
def isInfinite : Double → Bool
  | .infinite _ => true
  | _ => false

/-- Changes the sign. -/
def negate : Double → Double
  | .finite negative mantissa e => .finite (!negative) mantissa e
  | .infinite negative => .infinite (!negative)
  | .notANumber => .notANumber

/-- The value of a number without a fraction; both zeros have the value 0. -/
def toInt? : Double → Option Int
  | .finite negative mantissa e =>
    let (numerator, denominator) := magnitudeRatio mantissa e
    if numerator % denominator = 0 then
      let size : Int := (numerator / denominator : Nat)
      some (if negative then -size else size)
    else none
  | _ => none

/-- Numeric equality: the two zeros are equal, and a number that is not one equals nothing. -/
def sameValue : Double → Double → Bool
  | .finite sign mantissa e, .finite sign' mantissa' e' =>
    mantissa == mantissa' && e == e' && (sign == sign' || mantissa == 0)
  | .infinite sign, .infinite sign' => sign == sign'
  | _, _ => false

/-- Whole numbers of smaller magnitude are written as whole numbers. -/
def safeBound : Nat := 1 <<< 53

/-- The value of a whole number whose magnitude is below `safeBound`. -/
def safeInt? (x : Double) : Option Int :=
  x.toInt?.filter fun n => n.natAbs < safeBound

/-! ## Arithmetic -/

/-- Product with a positive finite number of the form `numerator / denominator`, rounded once. -/
def scaleRatio (x : Double) (numerator denominator : Nat) : Double :=
  match x with
  | .finite negative mantissa e =>
    let (up, down) := magnitudeRatio mantissa e
    ofRatio negative (up * numerator) (down * denominator)
  | other => other

/-- Product of a number with a finite positive number. -/
def timesPositive (x y : Double) : Double :=
  match y with
  | .finite _ mantissa e =>
    let (up, down) := magnitudeRatio mantissa e
    x.scaleRatio up down
  | _ => .notANumber

/-- Quotient of a number by a finite positive number. -/
def overPositive (x y : Double) : Double :=
  match y with
  | .finite _ mantissa e =>
    let (up, down) := magnitudeRatio mantissa e
    x.scaleRatio down up
  | _ => .notANumber

end Double

end Collector
