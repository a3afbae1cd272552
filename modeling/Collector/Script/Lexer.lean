import Collector.Script.Literal

/-!
# Reading tokens

`lex` reads the token at the front of a text, behind any white space and comments. It depends on
the text alone, so the tokens of a part of a script are the same wherever the part stands.
-/

namespace Collector.Script

open Collector.Text

/-- Where a scan over white space stands. -/
inductive GapMode where
  /-- Outside comments. -/
  | between
  /-- In a comment that ends with the line. -/
  | line
  /-- In a comment with an end of its own. -/
  | block

/-- Skips white space and comments. The flag tells whether a line has ended so far: then `-->`
begins a comment too, as `<!--` always does. An unfinished comment is `none`. -/
def skipGap : GapMode → Bool → List Char → Option (Bool × List Char)
  | .line, newline, [] => some (newline, [])
  | .line, newline, c :: rest =>
    if isLineEnd c then skipGap .between true rest else skipGap .line newline rest
  | .block, _, [] => none
  | .block, newline, '*' :: '/' :: rest => skipGap .between newline rest
  | .block, newline, c :: rest => skipGap .block (newline || isLineEnd c) rest
  | .between, newline, '/' :: '/' :: rest => skipGap .line newline rest
  | .between, newline, '/' :: '*' :: rest => skipGap .block newline rest
  | .between, newline, '<' :: '!' :: '-' :: '-' :: rest => skipGap .line newline rest
  | .between, true, '-' :: '-' :: '>' :: rest => skipGap .line true rest
  | .between, newline, c :: rest =>
    if isLineEnd c then skipGap .between true rest
    else if isGap c then skipGap .between newline rest
    else some (newline, c :: rest)
  | .between, newline, [] => some (newline, [])

/-- The longest punctuator at the front of a text. A question mark before a point and a digit
stands alone. -/
def punctuator? (text : List Char) : Option (Punctuator × List Char) :=
  let found := spellings.find? fun entry =>
    entry.1.isPrefixOf text &&
      !(entry.2 == .questionDot && (text.drop 2).head?.any Char.isDigit)
  found.map fun entry => (entry.2, text.drop entry.1.length)

/-- The token at the very front of a text. -/
def tokenAt (text : List Char) : Token × List Char :=
  let orInvalid (scanned : Option (Token × List Char)) : Token × List Char :=
    scanned.getD (.invalid, text)
  let punctuator := (punctuator? text).map fun (p, rest) => (.punctuator p, rest)
  match text with
  | [] => (.finish, [])
  | '"' :: rest => orInvalid (string '"' rest)
  | '\'' :: rest => orInvalid (string '\'' rest)
  | '#' :: rest => orInvalid <| (name rest).map fun ((id, _), rest) => (.privateName id, rest)
  | '.' :: c :: _ => orInvalid (if c.isDigit then number text else punctuator)
  | c :: _ =>
    if c.isDigit then orInvalid (number text)
    else if c == '\\' || isIdentifierStart c then
      orInvalid <| (name text).map fun ((id, escaped), rest) => (.word id escaped, rest)
    else orInvalid punctuator

/-- Where a token is read. -/
inductive Origin where
  /-- Behind another token. -/
  | inside
  /-- At the front of an expression on its own. -/
  | expression
  /-- At the front of a script, where `#!` begins a comment. -/
  | script
  deriving DecidableEq

/-- Skips what may stand before a token. The front of a text counts as the front of a line. -/
def skipBefore : Origin → List Char → Option (Bool × List Char)
  | .inside, text => skipGap .between false text
  | .expression, text => skipGap .between true text
  | .script, '#' :: '!' :: rest => skipGap .line true rest
  | .script, text => skipGap .between true text

/-- Reads the next token. -/
def lex (origin : Origin) (text : List Char) : Lexeme :=
  match skipBefore origin text with
  | none => ⟨.invalid, false, text, text⟩
  | some (newline, start) =>
    let (token, rest) := tokenAt start
    ⟨token, newline, start, rest⟩

end Collector.Script
