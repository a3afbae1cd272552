import Collector.Script.Token
import Collector.Text.Character

/-!
# Literals

Readers for numbers, strings, the text of templates, regular expressions and names, each on the
text that begins with the literal.

An escape may name half of a surrogate pair. Two halves in a row join to one character. A half
on its own becomes U+FFFD followed by its four hexadecimal digits; a text that holds one writes
U+FFFD itself in the same way.
-/

namespace Collector.Script

open Collector.Text

/-- A scanner takes something off the front of a text. -/
abbrev Scanner (α : Type) := List Char → Option (α × List Char)

/-! ## Digits -/

/-- The value of a digit in bases up to sixteen. -/
def digitValue (c : Char) : Nat :=
  if c.isDigit then c.toNat - '0'.toNat
  else if 'a' ≤ c ∧ c ≤ 'f' then c.toNat - 'a'.toNat + 10
  else if 'A' ≤ c ∧ c ≤ 'F' then c.toNat - 'A'.toNat + 10
  else 16

/-- Whether `c` is a digit in a base. -/
def isDigitIn (base : Nat) (c : Char) : Bool := decide (digitValue c < base)

/-- The number that a run of digits stands for. -/
def digitsValue (base : Nat) (digits : List Char) : Nat :=
  digits.foldl (fun n c => n * base + digitValue c) 0

/-- Digits behind a digit; single underscores may stand between two of them. -/
def moreDigits (base : Nat) : Scanner (List Char)
  | [] => some ([], [])
  | '_' :: c :: rest =>
    if isDigitIn base c then
      (moreDigits base rest).map fun (digits, rest) => (c :: digits, rest)
    else none
  | c :: rest =>
    if isDigitIn base c then
      (moreDigits base rest).map fun (digits, rest) => (c :: digits, rest)
    else if c == '_' then none
    else some ([], c :: rest)

/-- At least one digit. -/
def someDigits (base : Nat) : Scanner (List Char)
  | c :: rest =>
    if isDigitIn base c then
      (moreDigits base rest).map fun (digits, rest) => (c :: digits, rest)
    else none
  | [] => none

/-! ## Numbers -/

/-- The base that the letter behind a leading zero announces. -/
def baseOf? : Char → Option Nat
  | 'x' => some 16
  | 'X' => some 16
  | 'o' => some 8
  | 'O' => some 8
  | 'b' => some 2
  | 'B' => some 2
  | _ => none

/-- A whole number, or a bigint if `n` follows. -/
def wholeOrBigint (value : Nat) : List Char → Token × List Char
  | 'n' :: rest => (.bigint (toString value), rest)
  | rest => (.number (Double.ofNat value), rest)

/-- An optional exponent. -/
def optionalExponent : Scanner Int
  | c :: rest =>
    if c == 'e' || c == 'E' then
      let (negative, digits) := match rest with
        | '+' :: tail => (false, tail)
        | '-' :: tail => (true, tail)
        | _ => (false, rest)
      (someDigits 10 digits).map fun (digits, rest) =>
        let size : Int := (digitsValue 10 digits : Nat)
        (if negative then -size else size, rest)
    else some (0, c :: rest)
  | [] => some (0, [])

/-- The fraction and the exponent behind the digits before the point. -/
def fractionAndExponent (whole : List Char) : Scanner Token := fun text => do
  let (fraction, text) ← match text with
    | '.' :: c :: rest =>
      if c.isDigit then someDigits 10 (c :: rest) else some ([], c :: rest)
    | ['.'] => some ([], [])
    | _ => some ([], text)
  let (exponent, rest) ← optionalExponent text
  let value := Double.ofDecimal false (digitsValue 10 (whole ++ fraction))
    (exponent - fraction.length)
  some (.number value, rest)

/-- A number that begins with a zero and another digit: octal, unless a digit is too great. -/
def legacyNumber : Scanner Token := fun text =>
  let digits := text.takeWhile Char.isDigit
  let rest := text.dropWhile Char.isDigit
  if digits.all (isDigitIn 8) then some (.number (Double.ofNat (digitsValue 8 digits)), rest)
  else fractionAndExponent digits rest

/-- A number of any notation. -/
def numberBody : Scanner Token
  | '.' :: rest => fractionAndExponent [] ('.' :: rest)
  | '0' :: c :: rest =>
    match baseOf? c with
    | some base => (someDigits base rest).map fun (digits, rest) =>
        wholeOrBigint (digitsValue base digits) rest
    | none =>
      if c.isDigit then legacyNumber ('0' :: c :: rest)
      else if c == 'n' then some (.bigint "0", rest)
      else fractionAndExponent ['0'] (c :: rest)
  | text => do
    let (digits, rest) ← someDigits 10 text
    match rest with
    | 'n' :: rest => some (.bigint (toString (digitsValue 10 digits)), rest)
    | _ => fractionAndExponent digits rest

/-- A number. No name and no further digit may follow it at once. -/
def number : Scanner Token := fun text => do
  let (token, rest) ← numberBody text
  match rest with
  | c :: _ => if isIdentifierStart c || c.isDigit then none else some (token, rest)
  | [] => some (token, [])

/-! ## Escapes -/

/-- A character, or half of a surrogate pair. -/
inductive CodeUnit where
  | char (c : Char)
  | half (n : Nat)
  deriving DecidableEq

/-- Whether `n` is the first half of a pair. -/
def isHighHalf (n : Nat) : Bool := decide (0xD800 ≤ n) && decide (n < 0xDC00)

/-- Whether `n` is the second half of a pair. -/
def isLowHalf (n : Nat) : Bool := decide (0xDC00 ≤ n) && decide (n < 0xE000)

/-- The unit for a code point. -/
def CodeUnit.ofNat (n : Nat) : CodeUnit :=
  if isHighHalf n || isLowHalf n then .half n else .char (Char.ofNat n)

/-- Exactly `count` hexadecimal digits. -/
def hexDigits : Nat → Nat → Scanner Nat
  | 0, value, text => some (value, text)
  | count + 1, value, c :: rest =>
    if isDigitIn 16 c then hexDigits count (value * 16 + digitValue c) rest else none
  | _ + 1, _, [] => none

/-- The code point behind `\u`. -/
def codePoint : Scanner Nat
  | '\x7b' :: rest =>
    let digits := rest.takeWhile (isDigitIn 16)
    match digits, rest.dropWhile (isDigitIn 16) with
    | [], _ => none
    | _, '\x7d' :: rest =>
      let value := digitsValue 16 digits
      if value ≤ 0x10FFFF then some (value, rest) else none
    | _, _ => none
  | text => hexDigits 4 0 text

/-- The octal digits of an escape: up to three, and no more than two if the first is above 3. -/
def octalEscape (text : List Char) : Nat × List Char :=
  let digits := (text.take 3).takeWhile (isDigitIn 8)
  let digits := match digits with
    | first :: _ => if first ≤ '3' then digits else digits.take 2
    | [] => []
  (digitsValue 8 digits, text.drop digits.length)

/-- What stands behind a backslash. Octal escapes are for strings only. -/
def escape (octal : Bool) : Scanner (List CodeUnit)
  | [] => none
  | '\r' :: '\n' :: rest => some ([], rest)
  | 'x' :: rest => (hexDigits 2 0 rest).map fun (n, rest) => ([.char (Char.ofNat n)], rest)
  | 'u' :: rest => (codePoint rest).map fun (n, rest) => ([CodeUnit.ofNat n], rest)
  | c :: rest =>
    if isLineEnd c then some ([], rest)
    else if c.isDigit then
      if c == '0' && !(rest.head?.any Char.isDigit) then some ([.char '\x00'], rest)
      else if !octal then none
      else if isDigitIn 8 c then
        let (n, rest) := octalEscape (c :: rest)
        some ([.char (Char.ofNat n)], rest)
      else some ([.char c], rest)
    else
      let named := match c with
        | 'n' => '\n'
        | 't' => '\t'
        | 'r' => '\r'
        | 'b' => '\x08'
        | 'v' => '\x0b'
        | 'f' => '\x0c'
        | c => c
      some ([.char named], rest)

/-- Joins halves that stand side by side. -/
def joinHalves : List CodeUnit → List CodeUnit
  | .half high :: .half low :: rest =>
    if isHighHalf high && isLowHalf low then
      .char (Char.ofNat (0x10000 + (high - 0xD800) * 0x400 + (low - 0xDC00))) :: joinHalves rest
    else .half high :: joinHalves (.half low :: rest)
  | unit :: rest => unit :: joinHalves rest
  | [] => []

/-- The four hexadecimal digits of a unit, behind the replacement character. -/
def replaced (n : Nat) : List Char :=
  '\ufffd' :: [n / 4096 % 16, n / 256 % 16, n / 16 % 16, n % 16].map Nat.digitChar

/-- The text that a list of units stands for. -/
def unitsText (units : List CodeUnit) : String :=
  let joined := joinHalves units
  let broken := joined.any fun unit => match unit with
    | .half _ => true
    | .char _ => false
  String.ofList <| joined.flatMap fun unit => match unit with
    | .half n => replaced n
    | .char c => if broken && c == '\ufffd' then replaced 0xFFFD else [c]

/-! ## Strings -/

/-- The units of a string up to its closing quote. Every step takes a character, so the length of
the text bounds their number. -/
def stringUnits (quote : Char) : Nat → Scanner (List CodeUnit)
  | 0, _ => none
  | fuel + 1, text =>
    match text with
    | [] => none
    | '\\' :: rest => do
      let (units, rest) ← escape true rest
      let (more, rest) ← stringUnits quote fuel rest
      some (units ++ more, rest)
    | c :: rest =>
      if c == quote then some ([], rest)
      else if c == '\n' || c == '\r' then none
      else (stringUnits quote fuel rest).map fun (more, rest) => (.char c :: more, rest)

/-- A string behind its opening quote. -/
def string (quote : Char) : Scanner Token := fun text =>
  (stringUnits quote (text.length + 1) text).map fun (units, rest) =>
    (.string (unitsText units), rest)

/-! ## Templates -/

/-- A piece of the text of a template: its value, unless an escape in it is malformed, and its
spelling. -/
structure Quasi where
  cooked : Option String
  raw : String
  deriving DecidableEq

/-- The text of a template up to its end or its next substitution. -/
structure TemplateText where
  /-- The units, unless an escape is malformed. -/
  units : Option (List CodeUnit)
  spelling : List Char
  /-- Whether the template ends here. -/
  last : Bool

/-- Puts a unit and its spelling before a text. -/
def TemplateText.push (units : Option (List CodeUnit)) (spelling : List Char)
    (text : TemplateText) : TemplateText :=
  { text with
    units := (units.bind fun units => text.units.map fun more => units ++ more)
    spelling := spelling ++ text.spelling }

/-- The text of a template. Line ends count as `\n`. -/
def templateText : Nat → Scanner TemplateText
  | 0, _ => none
  | fuel + 1, text =>
    match text with
    | [] => none
    | '\x60' :: rest => some (⟨some [], [], true⟩, rest)
    | '$' :: '\x7b' :: rest => some (⟨some [], [], false⟩, rest)
    | '\r' :: '\n' :: rest =>
      (templateText fuel rest).map fun (more, rest) => (more.push (some [.char '\n']) ['\n'], rest)
    | '\r' :: rest =>
      (templateText fuel rest).map fun (more, rest) => (more.push (some [.char '\n']) ['\n'], rest)
    | '\\' :: rest =>
      match escape false rest with
      | some (units, after) =>
        let spelling := '\\' :: rest.take (rest.length - after.length)
        (templateText fuel after).map fun (more, rest) => (more.push (some units) spelling, rest)
      | none =>
        match rest with
        | c :: rest =>
          (templateText fuel rest).map fun (more, rest) => (more.push none ['\\', c], rest)
        | [] => none
    | c :: rest =>
      (templateText fuel rest).map fun (more, rest) => (more.push (some [.char c]) [c], rest)

/-- A piece of a template, and whether it is the last one. -/
def quasi : Scanner (Quasi × Bool) := fun text =>
  (templateText (text.length + 1) text).map fun (piece, rest) =>
    ((⟨piece.units.map unitsText, String.ofList piece.spelling⟩, piece.last), rest)

/-! ## Regular expressions -/

/-- The body of a regular expression up to its closing slash. Inside a class a slash is a
character like any other. -/
def regexBody (inClass : Bool) : Scanner (List Char)
  | [] => none
  | '\\' :: c :: rest =>
    if isLineEnd c then none
    else (regexBody inClass rest).map fun (body, rest) => ('\\' :: c :: body, rest)
  | c :: rest =>
    if isLineEnd c then none
    else if c == '/' && !inClass then some ([], rest)
    else
      let inClass := if c == '[' then true else if c == ']' then false else inClass
      (regexBody inClass rest).map fun (body, rest) => (c :: body, rest)

/-- The flags that a regular expression may carry. -/
def regexFlags : List Char := ['d', 'g', 'i', 'm', 's', 'u', 'v', 'y']

/-- Whether all flags are known and none is repeated. -/
def goodFlags : List Char → Bool
  | [] => true
  | c :: rest => regexFlags.contains c && !rest.contains c && goodFlags rest

/-- A regular expression behind its opening slash: its body and its flags. -/
def regex : Scanner (String × String) := fun text => do
  let (body, rest) ← regexBody false text
  let flags := rest.takeWhile isIdentifierPart
  if goodFlags flags then
    some ((String.ofList body, String.ofList flags), rest.dropWhile isIdentifierPart)
  else none

/-! ## Names -/

/-- The rest of a name, and whether an escape stands in it. -/
def nameRest : Nat → List Char → Option ((List Char × Bool) × List Char)
  | 0, _ => none
  | fuel + 1, text =>
    match text with
    | '\\' :: 'u' :: rest => do
      let (n, rest) ← codePoint rest
      let c := Char.ofNat n
      if isIdentifierPart c then
        let ((more, _), rest) ← nameRest fuel rest
        some ((c :: more, true), rest)
      else none
    | c :: rest =>
      if isIdentifierPart c then
        (nameRest fuel rest).map fun ((more, escaped), rest) => ((c :: more, escaped), rest)
      else if c == '\\' then none
      else some (([], false), c :: rest)
    | [] => some (([], false), [])

/-- A name. -/
def name : Scanner (String × Bool) := fun text =>
  let begins : Bool := match text with
    | '\\' :: 'u' :: rest => (codePoint rest).any fun (n, _) => isIdentifierStart (Char.ofNat n)
    | c :: _ => isIdentifierStart c
    | [] => false
  if begins then
    (nameRest (text.length + 1) text).map fun ((cs, escaped), rest) =>
      ((String.ofList cs, escaped), rest)
  else none

end Collector.Script
