import Collector.Number.Double

/-!
# Shortest decimals

A finite double is written with the fewest decimal digits that read back as the same double; of
several such decimals the nearest one is taken. How the digits are set out, with or without an
exponent, is a `Notation` of its own.
-/

namespace Collector.Double

/-! ## Digits -/

/-- The number of decimal digits of a whole number. -/
def digitCount (n : Nat) : Nat := (Nat.toDigits 10 n).length

/-- The least `p` with `numerator / denominator < 10 ^ p`, for positive arguments. -/
def decimalPoint (numerator denominator : Nat) : Int :=
  let whole := numerator / denominator
  if 0 < whole then digitCount whole
  else
    let zeros := digitCount (denominator / numerator)
    if denominator ≤ numerator * Nat.pow 10 (zeros - 1) then 2 - zeros else 1 - zeros

/-- The numbers that round to a double, as three numerators over one denominator: the lower end,
the double itself and the upper end. -/
structure RoundingInterval where
  lower : Nat
  value : Nat
  upper : Nat
  denominator : Nat
  /-- Whether the two ends round to the double too. -/
  closed : Bool

/-- The rounding interval of `mantissa * 2 ^ e`. Below a power of two the doubles lie twice as
dense. -/
def roundingInterval (mantissa : Nat) (e : Int) : RoundingInterval :=
  let (up, down) := powerRatio 2 (e - 2)
  let below := if mantissa = 1 <<< 52 ∧ leastExponent < e then 1 else 2
  { lower := (4 * mantissa - below) * up
    value := 4 * mantissa * up
    upper := (4 * mantissa + 2) * up
    denominator := down
    closed := mantissa % 2 = 0 }

/-- Whether `n * 10 ^ k` lies in the interval. -/
def RoundingInterval.contains (i : RoundingInterval) (n : Nat) (k : Int) : Bool :=
  let (up, down) := powerRatio 10 k
  let point := n * up * i.denominator
  if i.closed then decide (i.lower * down ≤ point) && decide (point ≤ i.upper * down)
  else decide (i.lower * down < point) && decide (point < i.upper * down)

/-- The multiple of `10 ^ k` in the interval that is nearest to its value, by its factor. -/
def RoundingInterval.onGrid? (i : RoundingInterval) (k : Int) : Option Nat :=
  let (up, down) := powerRatio 10 k
  let numerator := i.value * down
  let denominator := i.denominator * up
  let floor := numerator / denominator
  let nearest := nearestEven numerator denominator
  let other := if nearest = floor then floor + 1 else floor
  if i.contains nearest k then some nearest
  else if i.contains other k then some other
  else none

/-- Moves the zeros at the end of a whole number into the exponent. -/
def dropZeros : Nat → Nat → Int → Nat × Int
  | 0, n, k => (n, k)
  | fuel + 1, n, k => if n % 10 = 0 then dropZeros fuel (n / 10) (k + 1) else (n, k)

/-- The shortest decimal `n * 10 ^ k` that reads back as `mantissa * 2 ^ e`. Seventeen digits
always suffice. -/
def shortest (mantissa : Nat) (e : Int) : Nat × Int :=
  if mantissa = 0 then (0, 0)
  else
    let interval := roundingInterval mantissa e
    let point := decimalPoint interval.value interval.denominator
    let hit := (List.range 17).findSome? fun digits =>
      let k := point - (digits + 1 : Nat)
      (interval.onGrid? k).map fun n => (n, k)
    match hit with
    | some (n, k) => dropZeros 20 n k
    | none => (0, 0)

/-! ## Setting out -/

/-- How a decimal is set out. -/
structure Notation where
  /-- The least place of the decimal point that is written without an exponent. -/
  fixedFrom : Int
  /-- The greatest place of the decimal point that is written without an exponent. -/
  fixedTo : Int
  /-- What follows a number without a fraction. -/
  whole : String
  /-- The sign before a positive exponent. -/
  plus : String

/-- A text of zeros. -/
def zeros (n : Nat) : String := String.ofList (List.replicate n '0')

/-- Writes `0.digits * 10 ^ point`. -/
def Notation.layOut (form : Notation) (digits : String) (point : Int) : String :=
  let count := digits.length
  if form.fixedFrom ≤ point ∧ point ≤ form.fixedTo then
    if point ≤ 0 then "0." ++ zeros (-point).toNat ++ digits
    else if (count : Int) ≤ point then digits ++ zeros (point - count).toNat ++ form.whole
    else
      let cs := digits.toList
      String.ofList (cs.take point.toNat) ++ "." ++ String.ofList (cs.drop point.toNat)
  else
    let cs := digits.toList
    let head := String.ofList (cs.take 1)
    let tail := cs.drop 1
    let fraction := if tail.isEmpty then "" else "." ++ String.ofList tail
    let power := point - 1
    head ++ fraction ++ "e" ++ (if 0 < power then form.plus else "") ++ toString power

/-- Writes a number; those that are not finite have no digits. -/
def Notation.write (form : Notation) : Double → String
  | .finite negative mantissa e =>
    let (n, k) := shortest mantissa e
    let digits := toString n
    let point := if mantissa = 0 then 1 else (digits.length : Int) + k
    (if negative then "-" else "") ++ form.layOut digits point
  | .infinite negative => if negative then "-inf" else "inf"
  | .notANumber => "NaN"

/-- Plain positional notation, whatever the magnitude. -/
def positional : Notation := ⟨-400, 400, "", ""⟩

end Collector.Double
