import Collector.Text.IdentifierRanges

/-!
# Character classes

The classes of characters that the rest of the library asks about: blanks around a text, blanks
and line ends inside a script, the characters of identifiers, and the characters of words.
-/

namespace Collector.Text

/-- Whether `c` lies in one of the inclusive `ranges`. -/
def inRanges (ranges : List (Nat × Nat)) (c : Char) : Bool :=
  ranges.any fun range => decide (range.1 ≤ c.toNat) && decide (c.toNat ≤ range.2)

/-- Whether `c` lies outside ASCII. -/
def isWide (c : Char) : Bool := decide (0x7F < c.toNat)

/-! ## Blanks -/

/-- The Unicode property `White_Space`. -/
def isBlank (c : Char) : Bool :=
  inRanges [(0x09, 0x0D), (0x20, 0x20), (0x85, 0x85), (0xA0, 0xA0), (0x1680, 0x1680),
    (0x2000, 0x200A), (0x2028, 0x2029), (0x202F, 0x202F), (0x205F, 0x205F), (0x3000, 0x3000)] c

/-- The four characters that end a line of a script. -/
def isLineEnd (c : Char) : Bool :=
  c == '\n' || c == '\r' || c == '\u2028' || c == '\u2029'

/-- White space between the tokens of a script, line ends apart. -/
def isGap (c : Char) : Bool :=
  c == ' ' || c == '\t' ||
    inRanges [(0x0B, 0x0C), (0x85, 0x85), (0xA0, 0xA0), (0x1680, 0x1680), (0x2000, 0x200B),
      (0x202F, 0x202F), (0x205F, 0x205F), (0x3000, 0x3000), (0xFEFF, 0xFEFF)] c

/-- A text without the blanks at its two ends. -/
def trim (text : List Char) : List Char :=
  ((text.dropWhile isBlank).reverse.dropWhile isBlank).reverse

/-! ## Identifiers and words -/

/-- Whether an identifier may begin with `c`. -/
def isIdentifierStart (c : Char) : Bool :=
  c.isAlpha || c == '$' || c == '_' || (isWide c && inRanges startRanges c)

/-- Whether an identifier may go on with `c`. -/
def isIdentifierPart (c : Char) : Bool :=
  isIdentifierStart c || c.isDigit || c == '\u200c' || c == '\u200d' ||
    (isWide c && inRanges continueRanges c)

/-- Identifier characters above ASCII that no word contains. -/
def unwordlyRanges : List (Nat × Nat) :=
  [(0xB7, 0xB7), (0x387, 0x387), (0x1369, 0x1371), (0x19DA, 0x19DA), (0x2118, 0x2118),
    (0x212E, 0x212E), (0x309B, 0x309C)]

/-- Characters of words above ASCII that no identifier contains. -/
def wordOnlyRanges : List (Nat × Nat) :=
  [(0x488, 0x489), (0x1ABE, 0x1ABE), (0x20DD, 0x20E0), (0x20E2, 0x20E4), (0x24B6, 0x24E9),
    (0x2E2F, 0x2E2F), (0xA670, 0xA672), (0x1F130, 0x1F149), (0x1F150, 0x1F169),
    (0x1F170, 0x1F189)]

/-- The characters of words: letters, marks, decimal digits, connectors and the two joiners. -/
def isWordly (c : Char) : Bool :=
  (isIdentifierPart c && c != '$' && !inRanges unwordlyRanges c) || inRanges wordOnlyRanges c

end Collector.Text
