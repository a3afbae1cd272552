import Collector.Json.Value
import Collector.Number.Decimal

/-!
# Writing JSON

A compact form without spaces, and a pretty form that gives every item a line of its own.
-/

namespace Collector.Json

/-- Doubles always show a point or an exponent. They are positional from `0.00001` up to `1e+16`. -/
def doubleForm : Double.Notation := ⟨-4, 16, ".0", "+"⟩

/-- A hexadecimal digit. -/
def hexDigit (n : Nat) : Char := (Nat.digitChar n)

/-- One character of a string. Control characters, quotes and backslashes are escaped. -/
def escapeChar (c : Char) : String :=
  if c == '"' then "\\\""
  else if c == '\\' then "\\\\"
  else if c == '\x08' then "\\b"
  else if c == '\x0c' then "\\f"
  else if c == '\n' then "\\n"
  else if c == '\r' then "\\r"
  else if c == '\t' then "\\t"
  else if c.toNat < 0x20 then
    "\\u00" ++ String.ofList [hexDigit (c.toNat / 16), hexDigit (c.toNat % 16)]
  else String.ofList [c]

/-- A string with its quotes. -/
def quote (text : String) : String :=
  "\"" ++ String.join (text.toList.map escapeChar) ++ "\""

/-- A value that no container holds. -/
def writeScalar : Json → String
  | .null => "null"
  | .bool value => if value then "true" else "false"
  | .integer value => toString value
  | .double value => doubleForm.write value
  | .string value => quote value
  | .array _ => "[]"
  | .object _ => "\x7b\x7d"

mutual

/-- The compact form. -/
def compact : Json → String
  | .array items => "[" ++ compactItems items ++ "]"
  | .object fields => "\x7b" ++ compactFields fields ++ "\x7d"
  | scalar => writeScalar scalar

/-- Items with commas between them. -/
def compactItems : List Json → String
  | [] => ""
  | [item] => compact item
  | item :: rest => compact item ++ "," ++ compactItems rest

/-- Fields with commas between them. -/
def compactFields : List (String × Json) → String
  | [] => ""
  | [(name, value)] => quote name ++ ":" ++ compact value
  | (name, value) :: rest => quote name ++ ":" ++ compact value ++ "," ++ compactFields rest

end

/-- A line break and the blanks before the next item. -/
def lineBreak (depth : Nat) : String := "\n" ++ String.ofList (List.replicate (2 * depth) ' ')

mutual

/-- The pretty form inside `depth` containers. -/
def prettyAt (depth : Nat) : Json → String
  | .array [] => "[]"
  | .array items => "[" ++ prettyItems (depth + 1) items ++ lineBreak depth ++ "]"
  | .object [] => "\x7b\x7d"
  | .object fields => "\x7b" ++ prettyFields (depth + 1) fields ++ lineBreak depth ++ "\x7d"
  | scalar => writeScalar scalar

/-- Items on lines of their own. -/
def prettyItems (depth : Nat) : List Json → String
  | [] => ""
  | [item] => lineBreak depth ++ prettyAt depth item
  | item :: rest => lineBreak depth ++ prettyAt depth item ++ "," ++ prettyItems depth rest

/-- Fields on lines of their own. -/
def prettyFields (depth : Nat) : List (String × Json) → String
  | [] => ""
  | [(name, value)] => lineBreak depth ++ quote name ++ ": " ++ prettyAt depth value
  | (name, value) :: rest =>
    lineBreak depth ++ quote name ++ ": " ++ prettyAt depth value ++ "," ++
      prettyFields depth rest

end

/-- The pretty form: two blanks for each level, and empty containers on one line. -/
def pretty (value : Json) : String := prettyAt 0 value

end Collector.Json
