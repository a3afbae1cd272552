import Collector.Compact.Node

/-!
# Strings in scripts

How a string is written as a literal: between the marks that need the fewest escapes.
-/

namespace Collector.Compact

/-- Marks that a string may stand between. -/
inductive Mark where
  | backtick | double | single
  deriving DecidableEq

/-- The character of a mark. -/
def Mark.char : Mark → Char
  | .backtick => '\x60'
  | .double => '"'
  | .single => '\''

/-- Whether a text goes on like a tag that ends a script in a page. -/
def closesScript (text : List Char) : Bool :=
  (text.take 7).map Char.toLower == "/script".toList

/-- A character inside a string between marks, given the text behind it. In backticks a line may
end, but no substitution may begin. -/
def Mark.spell (mark : Mark) (c : Char) (behind : List Char) : List Char :=
  if c == mark.char then ['\\', c]
  else if c == '$' && mark == .backtick && behind.head? == some '\x7b' then ['\\', c]
  else if c == '\n' then (if mark == .backtick then [c] else ['\\', 'n'])
  else if c == '\\' then ['\\', '\\']
  else if c == '\x00' then
    (if behind.head?.any Char.isDigit then ['\\', 'x', '0', '0'] else ['\\', '0'])
  else if c == '\x07' then ['\\', 'x', '0', '7']
  else if c == '\x08' then ['\\', 'b']
  else if c == '\x0b' then ['\\', 'v']
  else if c == '\x0c' then ['\\', 'f']
  else if c == '\r' then ['\\', 'r']
  else if c == '\x1b' then ['\\', 'x', '1', 'B']
  else if c == '\u2028' then ['\\', 'u', '2', '0', '2', '8']
  else if c == '\u2029' then ['\\', 'u', '2', '0', '2', '9']
  else if c == '\u00a0' then ['\\', 'x', 'A', '0']
  else if c == '<' && closesScript behind then [c, '\\']
  else [c]

/-- A string between marks, without them. -/
def Mark.inner (mark : Mark) : List Char → List Char
  | [] => []
  | c :: rest => mark.spell c rest ++ mark.inner rest

/-- A string between marks. -/
def Mark.quote (mark : Mark) (text : List Char) : List Char :=
  [mark.char] ++ mark.inner text ++ [mark.char]

/-- The shortest spelling of a string between one of some marks. Of several the first is taken. -/
def quoteIn (marks : List Mark) (text : String) : String :=
  let spellings := marks.map fun mark => mark.quote text.toList
  let best := spellings.foldl (fun best spelling =>
    match best with
    | some best => if spelling.length < best.length then some spelling else some best
    | none => some spelling) (none : Option (List Char))
  String.ofList (best.getD [])

/-- A string as an expression. -/
def quoteValue (text : String) : String := quoteIn [.backtick, .double, .single] text

/-- A string as a name, where backticks may not stand. -/
def quoteName (text : String) : String := quoteIn [.double, .single] text

/-- The text of a directive, between marks that do not occur in it. -/
def quoteDirective (text : String) : String :=
  let mark := match text.toList.find? fun c => c == '\'' || c == '"' with
    | some '\'' => "\""
    | _ => "'"
  mark ++ text ++ mark

/-- The spelling of a string in the text of a template. -/
def templateSpelling (text : String) : String := String.ofList (Mark.backtick.inner text.toList)

end Collector.Compact
