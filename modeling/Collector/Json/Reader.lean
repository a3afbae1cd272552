import Collector.Json.Value

/-!
# Reading JSON

A reader for JSON texts. It refuses containers nested deeper than `depthLimit`, escapes of half
a surrogate pair and numbers beyond the range of doubles.

A number with a fraction or an exponent, or too long for 64 bits, is read as a significand of as
many digits as fit 64 bits and a power of ten; it is rounded once as the significand turns into a
double and once more for each power of ten it is scaled by.
-/

namespace Collector.Json

/-- How deep containers may be nested. -/
def depthLimit : Nat := 127

/-- A reader takes a value off the front of a text. -/
abbrev Reader (α : Type) := List Char → Option (α × List Char)

/-- White space between the tokens of a JSON text. -/
def isSpace (c : Char) : Bool := c == ' ' || c == '\n' || c == '\t' || c == '\r'

/-- The text behind leading white space. -/
def skipSpace (text : List Char) : List Char := text.dropWhile isSpace

/-! ## Numbers -/

/-- The greatest significand. -/
def significandLimit : Nat := 1 <<< 64

/-- A decimal number under construction: `significand * 10 ^ scale`. -/
structure Decimal where
  significand : Nat
  scale : Int

/-- Adds the digits of `text` to a significand as long as it fits; the digits that no longer fit
are dropped. Answers the new significand, how many digits were added and how many were dropped. -/
def addDigits : List Char → Nat → Nat × Nat × Nat
  | [], significand => (significand, 0, 0)
  | c :: rest, significand =>
    let next := significand * 10 + (c.toNat - '0'.toNat)
    if next < significandLimit then
      let (total, added, dropped) := addDigits rest next
      (total, added + 1, dropped)
    else (significand, 0, rest.length + 1)

/-- Scales a double by a power of ten, 308 places at a time; `none` beyond the range of doubles. -/
def scaleByTen : Nat → Double → Int → Option Double
  | 0, x, _ => some x
  | fuel + 1, x, e =>
    if e.natAbs ≤ 308 then
      let power := Double.ofDecimal false 1 e.natAbs
      if 0 ≤ e then
        let product := x.timesPositive power
        if product.isInfinite then none else some product
      else some (x.overPositive power)
    else if x.sameValue (Double.zero false) then some x
    else if 0 ≤ e then none
    else scaleByTen fuel (x.overPositive (Double.ofDecimal false 1 308)) (e + 308)

/-- The double for a significand and a scale. Three rounds of scaling take any significand to
zero. -/
def Decimal.toDouble? (d : Decimal) : Option Double :=
  scaleByTen 8 (Double.ofNat d.significand) d.scale

/-- An exponent after its `e`: an optional sign and at least one digit. -/
def readExponent : Reader Int := fun text =>
  let (negative, text) := match text with
    | '+' :: rest => (false, rest)
    | '-' :: rest => (true, rest)
    | _ => (false, text)
  let digits := text.takeWhile Char.isDigit
  let rest := text.dropWhile Char.isDigit
  if digits.isEmpty then none
  else
    let size : Int := (digits.foldl (fun n c => n * 10 + (c.toNat - '0'.toNat)) 0 : Nat)
    some (if negative then -size else size, rest)

/-- A number without its sign: the whole digits, the fraction and the exponent. The flag tells
whether it can only be a double. -/
def readDecimal : Reader (Decimal × Bool) := fun text => do
  let whole := text.takeWhile Char.isDigit
  let rest := text.dropWhile Char.isDigit
  if whole.isEmpty || (whole.head? == some '0' && 1 < whole.length) then none
  else
    let (significand, _, droppedWhole) := addDigits whole 0
    let decimal : Decimal := ⟨significand, droppedWhole⟩
    let (decimal, isDouble, rest) ← match rest with
      | '.' :: tail =>
        let fraction := tail.takeWhile Char.isDigit
        if fraction.isEmpty then none
        else
          let (significand, added, _) := addDigits fraction decimal.significand
          some (⟨significand, decimal.scale - added⟩, true, tail.dropWhile Char.isDigit)
      | _ => some (decimal, decide (0 < droppedWhole), rest)
    match rest with
    | c :: tail =>
      if c == 'e' || c == 'E' then
        let (e, rest) ← readExponent tail
        some ((⟨decimal.significand, decimal.scale + e⟩, true), rest)
      else some ((decimal, isDouble), rest)
    | [] => some ((decimal, isDouble), rest)

/-- A number. Whole numbers of 64 bits stay whole, except for `-0`. -/
def readNumber : Reader Json := fun text => do
  let (negative, text) := match text with
    | '-' :: rest => (true, rest)
    | _ => (false, text)
  let ((decimal, isDouble), rest) ← readDecimal text
  let n := decimal.significand
  if isDouble || (negative && (n == 0 || decide (1 <<< 63 < n))) then
    let x ← decimal.toDouble?
    some (.double (if negative then x.negate else x), rest)
  else some (.integer (if negative then -(n : Int) else n), rest)

/-! ## Strings -/

/-- The value of a hexadecimal digit. -/
def hexDigit? (c : Char) : Option Nat :=
  if c.isDigit then some (c.toNat - '0'.toNat)
  else if 'a' ≤ c ∧ c ≤ 'f' then some (c.toNat - 'a'.toNat + 10)
  else if 'A' ≤ c ∧ c ≤ 'F' then some (c.toNat - 'A'.toNat + 10)
  else none

/-- Four hexadecimal digits. -/
def readHex4 : Reader Nat
  | a :: b :: c :: d :: rest => do
    let a ← hexDigit? a
    let b ← hexDigit? b
    let c ← hexDigit? c
    let d ← hexDigit? d
    some (((a * 16 + b) * 16 + c) * 16 + d, rest)
  | _ => none

/-- The character named by the digits behind `\u`; two halves of a surrogate pair join. -/
def readCodePoint : Reader Char := fun text => do
  let (n, rest) ← readHex4 text
  if 0xD800 ≤ n ∧ n < 0xDC00 then
    match rest with
    | '\\' :: 'u' :: rest =>
      let (low, rest) ← readHex4 rest
      if 0xDC00 ≤ low ∧ low < 0xE000 then
        some (Char.ofNat (0x10000 + (n - 0xD800) * 0x400 + (low - 0xDC00)), rest)
      else none
    | _ => none
  else if 0xDC00 ≤ n ∧ n < 0xE000 then none
  else some (Char.ofNat n, rest)

/-- The character behind a backslash, other than `u`. -/
def plainEscape? : Char → Option Char
  | '"' => some '"'
  | '\\' => some '\\'
  | '/' => some '/'
  | 'b' => some '\x08'
  | 'f' => some '\x0c'
  | 'n' => some '\n'
  | 'r' => some '\r'
  | 't' => some '\t'
  | _ => none

/-- The characters of a string up to its closing quote. Each step takes a character, so the
length of the text bounds their number. -/
def readChars : Nat → Reader (List Char)
  | 0, _ => none
  | fuel + 1, text =>
    match text with
    | [] => none
    | '"' :: rest => some ([], rest)
    | '\\' :: 'u' :: rest => do
      let (c, rest) ← readCodePoint rest
      let (cs, rest) ← readChars fuel rest
      some (c :: cs, rest)
    | '\\' :: c :: rest => do
      let c ← plainEscape? c
      let (cs, rest) ← readChars fuel rest
      some (c :: cs, rest)
    | c :: rest =>
      if c.toNat < 0x20 || c == '\\' then none
      else do
        let (cs, rest) ← readChars fuel rest
        some (c :: cs, rest)

/-- A string behind its opening quote. -/
def readString : Reader String := fun text => do
  let (cs, rest) ← readChars (text.length + 1) text
  some (String.ofList cs, rest)

/-! ## Values -/

/-- A fixed word. -/
def readWord (word : List Char) (value : Json) : Reader Json := fun text =>
  if word.isPrefixOf text then some (value, text.drop word.length) else none

/-- The items of an array behind its first one, up to the closing bracket. -/
def readItems (item : Reader Json) : Nat → Reader (List Json)
  | 0, _ => none
  | fuel + 1, text => do
    let (value, rest) ← item text
    match skipSpace rest with
    | ',' :: rest => do
      let (values, rest) ← readItems item fuel rest
      some (value :: values, rest)
    | ']' :: rest => some ([value], rest)
    | _ => none

/-- The fields of an object, up to the closing brace. -/
def readFields (item : Reader Json) : Nat → Reader (List (String × Json))
  | 0, _ => none
  | fuel + 1, text => do
    match skipSpace text with
    | '"' :: rest => do
      let (name, rest) ← readString rest
      match skipSpace rest with
      | ':' :: rest => do
        let (value, rest) ← item rest
        match skipSpace rest with
        | ',' :: rest => do
          let (fields, rest) ← readFields item fuel rest
          some ((name, value) :: fields, rest)
        | '\x7d' :: rest => some ([(name, value)], rest)
        | _ => none
      | _ => none
    | _ => none

/-- A value that no container holds. -/
def readScalar : Reader Json := fun text =>
  match text with
  | '"' :: rest => (readString rest).map fun (value, rest) => (.string value, rest)
  | 't' :: _ => readWord "true".toList (.bool true) text
  | 'f' :: _ => readWord "false".toList (.bool false) text
  | 'n' :: _ => readWord "null".toList .null text
  | _ => readNumber text

/-- A value, with the containers around it counted down. -/
def readValue : Nat → Reader Json
  | 0, text =>
    match skipSpace text with
    | '[' :: _ => none
    | '\x7b' :: _ => none
    | rest => readScalar rest
  | depth + 1, text =>
    match skipSpace text with
    | '[' :: rest =>
      match skipSpace rest with
      | ']' :: rest => some (.array [], rest)
      | _ =>
        (readItems (readValue depth) (rest.length + 1) rest).map fun (items, rest) =>
          (.array items, rest)
    | '\x7b' :: rest =>
      match skipSpace rest with
      | '\x7d' :: rest => some (.object [], rest)
      | _ =>
        (readFields (readValue depth) (rest.length + 1) rest).map fun (fields, rest) =>
          (.object (Entries.ofList fields), rest)
    | rest => readScalar rest

/-- Reads a whole text. -/
def parse? (text : String) : Option Json := do
  let (value, rest) ← readValue depthLimit text.toList
  if (skipSpace rest).isEmpty then some value else none

end Collector.Json
