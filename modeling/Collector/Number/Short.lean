import Collector.Number.Decimal

/-!
# Short numbers

The shortest spelling of a number as a literal of a script. No zero stands before the point, long
runs of zeros become an exponent, and a whole number may be written in base sixteen.
-/

namespace Collector.Double

/-- Notation with a point for places from -5 to 21, and an exponent with its sign otherwise. -/
def plain : Notation := ⟨-5, 21, "", "+"⟩

/-- The shorter of two texts; of two that are equally long the first. -/
def shorter (a b : String) : String := if b.length < a.length then b else a

/-- A text without a zero before its point. -/
def withoutLeadingZero (text : String) : String :=
  match text.toList with
  | '0' :: '.' :: rest => String.ofList ('.' :: rest)
  | _ => text

/-- A text without the sign of a positive exponent. -/
def withoutPlus (text : String) : String := String.ofList (text.toList.filter (· != '+'))

/-- A whole number in base sixteen. -/
def hexadecimal (n : Nat) : String := "0x" ++ String.ofList (Nat.toDigits 16 n)

/-- A small fraction with its zeros counted in an exponent. -/
def smallFraction (text : String) : String :=
  match text.toList with
  | '.' :: '0' :: rest =>
    let digits := rest.dropWhile (· == '0')
    String.ofList digits ++ "e-" ++ toString (rest.length + 1)
  | _ => text

/-- A text with the zeros at its end counted in an exponent. -/
def countedZeros (text : String) : String :=
  let digits := text.toList.reverse.dropWhile (· == '0')
  let count := text.length - digits.length
  if count = 0 then text else String.ofList digits.reverse ++ "e" ++ toString count

/-- A number with an exponent, its point moved behind the last digit. -/
def pointless (text : String) : String :=
  match text.splitOn "e" with
  | [number, power] =>
    match number.splitOn ".", power.toInt? with
    | [whole, fraction], some power =>
      whole ++ fraction ++ "e" ++ toString (power - fraction.length)
    | _, _ => text
  | _ => text

/-- The shortest spelling of a number that is neither negative nor infinite. -/
def shortPositive (x : Double) : String :=
  let text := withoutLeadingZero (withoutPlus (plain.write x))
  match x.toInt? with
  | some n =>
    if n < 1000 then text
    else
      let best := shorter text (hexadecimal n.toNat)
      if best.startsWith "0x" then best
      else if text.endsWith "0" then shorter best (countedZeros text)
      else shorter best (pointless text)
  | none => shorter (shorter text (smallFraction text)) (pointless text)

/-- The shortest spelling of a number. -/
def short : Double → String
  | .finite true mantissa e => "-" ++ shortPositive (.finite false mantissa e)
  | .infinite negative => if negative then "-1/0" else "1/0"
  | .notANumber => "NaN"
  | x => shortPositive x

end Collector.Double
