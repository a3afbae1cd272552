import Collector.Number.Double

/-!
# Tokens

The tokens of a script. A slash is always read as an operator and a backtick stands alone: only
a parser knows where a regular expression or the text of a template begins, and reads on there.
-/

namespace Collector.Script

/-- Punctuators and operators. -/
inductive Punctuator where
  | openBrace | closeBrace | openParen | closeParen | openBracket | closeBracket
  | dot | ellipsis | semicolon | comma | colon | question | questionDot | arrow | at | backtick
  | less | greater | lessEqual | greaterEqual
  | equal | notEqual | strictEqual | strictNotEqual
  | plus | minus | star | slash | percent | power | increment | decrement
  | shiftLeft | shiftRight | shiftRightUnsigned
  | ampersand | bar | caret | bang | tilde
  | andAnd | orOr | coalesce
  | assign | plusAssign | minusAssign | starAssign | slashAssign | percentAssign | powerAssign
  | shiftLeftAssign | shiftRightAssign | shiftRightUnsignedAssign
  | ampersandAssign | barAssign | caretAssign | andAndAssign | orOrAssign | coalesceAssign
  deriving DecidableEq

/-- Spellings of punctuators; a longer one stands before those that begin it. -/
def spellings : List (List Char × Punctuator) :=
  [(">>>=", .shiftRightUnsignedAssign), ("...", .ellipsis), ("===", .strictEqual),
    ("!==", .strictNotEqual), ("**=", .powerAssign), ("<<=", .shiftLeftAssign),
    (">>=", .shiftRightAssign), (">>>", .shiftRightUnsigned), ("&&=", .andAndAssign),
    ("||=", .orOrAssign), ("??=", .coalesceAssign), ("=>", .arrow), ("==", .equal),
    ("!=", .notEqual), ("<=", .lessEqual), (">=", .greaterEqual), ("&&", .andAnd),
    ("||", .orOr), ("??", .coalesce), ("?.", .questionDot), ("++", .increment),
    ("--", .decrement), ("**", .power), ("<<", .shiftLeft), (">>", .shiftRight),
    ("+=", .plusAssign), ("-=", .minusAssign), ("*=", .starAssign), ("/=", .slashAssign),
    ("%=", .percentAssign), ("&=", .ampersandAssign), ("|=", .barAssign),
    ("^=", .caretAssign), ("(", .openParen), (")", .closeParen), (".", .dot), (",", .comma),
    (";", .semicolon), (":", .colon), ("=", .assign), ("\x7b", .openBrace),
    ("\x7d", .closeBrace), ("[", .openBracket), ("]", .closeBracket), ("?", .question),
    ("@", .at), ("\x60", .backtick), ("<", .less), (">", .greater), ("+", .plus),
    ("-", .minus), ("*", .star), ("/", .slash), ("%", .percent), ("&", .ampersand),
    ("|", .bar), ("^", .caret), ("!", .bang), ("~", .tilde)].map
    fun entry => (entry.1.toList, entry.2)

/-- A token. -/
inductive Token where
  /-- The end of the script. -/
  | finish
  /-- Text that is no token. -/
  | invalid
  /-- An identifier or a keyword, with its escapes resolved. -/
  | word (name : String) (escaped : Bool)
  | privateName (name : String)
  | number (value : Double)
  | bigint (digits : String)
  | string (value : String)
  | punctuator (p : Punctuator)
  deriving DecidableEq

/-- A token in its place: whether a line ends before it, the text from its first character on,
and the text behind it. -/
structure Lexeme where
  token : Token
  newline : Bool
  start : List Char
  rest : List Char

end Collector.Script
