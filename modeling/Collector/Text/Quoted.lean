import Collector.Text.Character
import Collector.Text.ConcealedRanges

/-!
# Quoted text

Text as messages quote it: in double quotes, with an escape for every character that would end
the quotation or that a reader could not see.
-/

namespace Collector.Text

/-- Whether a reader cannot see `c`. -/
def isConcealed (c : Char) : Bool := decide (c.toNat < 0x20) || inRanges concealedRanges c

/-- A code point as an escape: its hexadecimal digits in braces. -/
def codePointEscape (c : Char) : List Char :=
  ['\\', 'u', '\x7b'] ++ Nat.toDigits 16 c.toNat ++ ['\x7d']

/-- A character inside a quotation. -/
def quoteChar (c : Char) : List Char :=
  match c with
  | '\x00' => ['\\', '0']
  | '\t' => ['\\', 't']
  | '\n' => ['\\', 'n']
  | '\r' => ['\\', 'r']
  | '"' => ['\\', '"']
  | '\\' => ['\\', '\\']
  | c => if isConcealed c then codePointEscape c else [c]

/-- A text in double quotes. -/
def quoted (text : String) : String :=
  String.ofList (['"'] ++ text.toList.flatMap quoteChar ++ ['"'])

end Collector.Text
