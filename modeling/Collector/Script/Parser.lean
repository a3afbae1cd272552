import Collector.Script.Lexer

/-!
# Parsers

A parser moves a cursor over a script. The cursor stands behind a token and knows the next one;
both depend only on the text that is left.
-/

namespace Collector.Script

/-- A place between two tokens. -/
structure Cursor where
  /-- The text behind the last token. -/
  left : List Char
  origin : Origin
  /-- The next token. -/
  next : Lexeme
  next_eq : next = lex origin left

/-- The cursor at the front of a text. -/
def Cursor.front (origin : Origin) (text : List Char) : Cursor :=
  ⟨text, origin, lex origin text, rfl⟩

/-- The text between two places of a script, the second of them given by the text behind it. -/
def slice (start stop : List Char) : String :=
  String.ofList (start.take (start.length - stop.length))

/-- A parser answers a value and the cursor behind it, or fails. -/
abbrev Parser (α : Type) := StateT Cursor Option α

namespace Parser

/-- The next token, which stays where it is. -/
def peek : Parser Lexeme := fun c => some (c.next, c)

/-- The text behind the last token. -/
def left : Parser (List Char) := fun c => some (c.left, c)

/-- Moves the cursor to a place further on. -/
def jump (text : List Char) : Parser Unit := fun _ => some ((), .front .inside text)

/-- Moves behind the next token. There is nothing behind the end of a script. -/
def advance : Parser Unit := do
  let next ← peek
  match next.token with
  | .finish | .invalid => failure
  | _ => jump next.rest

/-- The token behind the next one. -/
def peekSecond : Parser Lexeme := do
  let next ← peek
  match next.token with
  | .finish | .invalid => pure next
  | _ => pure (lex .inside next.rest)

/-- Fails unless a condition holds. -/
def check (condition : Bool) : Parser Unit := if condition then pure () else failure

/-- The value of an option, or failure. -/
def lift {α : Type} : Option α → Parser α
  | some value => pure value
  | none => failure

end Parser

/-! ## Looking at tokens -/

/-- Whether a lexeme is a punctuator. -/
def Lexeme.is (lexeme : Lexeme) (p : Punctuator) : Bool := lexeme.token == .punctuator p

/-- Whether a lexeme is a keyword, written without escapes. -/
def Lexeme.isWord (lexeme : Lexeme) (word : String) : Bool := lexeme.token == .word word false

/-- The punctuator of a lexeme. -/
def Lexeme.punctuator? (lexeme : Lexeme) : Option Punctuator :=
  match lexeme.token with
  | .punctuator p => some p
  | _ => none

/-- Words that are never names. -/
def reservedWords : List String :=
  ["break", "case", "catch", "class", "const", "continue", "debugger", "default", "delete", "do",
    "else", "enum", "export", "extends", "false", "finally", "for", "function", "if", "import",
    "in", "instanceof", "new", "null", "return", "super", "switch", "this", "throw", "true", "try",
    "typeof", "var", "void", "while", "with"]

/-- The grammar's parameters: what is allowed where a construct stands. -/
structure Mode where
  /-- Whether `in` is an operator. -/
  isIn : Bool
  /-- Whether `await` is an operator, and no name. -/
  isAsync : Bool
  /-- Whether `yield` is an operator, and no name. -/
  isGenerator : Bool
  /-- Whether `return` may stand. -/
  isFunction : Bool

/-- The mode of a script. -/
def Mode.script : Mode := ⟨true, false, false, false⟩

/-- The mode in which `in` is an operator. -/
def Mode.withIn (m : Mode) : Mode := { m with isIn := true }

/-- The mode in which `in` ends an expression. -/
def Mode.withoutIn (m : Mode) : Mode := { m with isIn := false }

/-- Whether a word is a name in a mode. -/
def Mode.allows (m : Mode) (id : String) : Bool :=
  !reservedWords.contains id && !(m.isAsync && id == "await") && !(m.isGenerator && id == "yield")

/-- The name that a lexeme is in a mode. -/
def Lexeme.identifier? (lexeme : Lexeme) (m : Mode) : Option String :=
  match lexeme.token with
  | .word id _ => if m.allows id then some id else none
  | _ => none

namespace Parser

/-- Whether the next token is a punctuator. -/
def sees (p : Punctuator) : Parser Bool := return (← peek).is p

/-- Whether the next token is a keyword. -/
def seesWord (word : String) : Parser Bool := return (← peek).isWord word

/-- Takes a punctuator if it comes next. -/
def accept (p : Punctuator) : Parser Bool := do
  if ← sees p then
    advance
    return true
  else return false

/-- Takes a keyword if it comes next. -/
def acceptWord (word : String) : Parser Bool := do
  if ← seesWord word then
    advance
    return true
  else return false

/-- Takes a punctuator. -/
def expect (p : Punctuator) : Parser Unit := do check (← accept p)

/-- Takes a keyword. -/
def expectWord (word : String) : Parser Unit := do check (← acceptWord word)

/-- Takes a name. -/
def identifier (m : Mode) : Parser String := do
  let id ← lift ((← peek).identifier? m)
  advance
  return id

/-- Ends a statement: with a semicolon, or where the line, the block or the script ends. -/
def endStatement : Parser Unit := do
  let next ← peek
  if next.is .semicolon then advance
  else check (next.newline || next.is .closeBrace || next.token == .finish)

/-- The text from a place up to the last token taken. -/
def textFrom (start : List Char) : Parser String := return slice start (← left)

/-- Repeats a step, which answers either a new state or the result. The fuel bounds the number of
repetitions. -/
def iterate {σ α : Type} : Nat → (σ → Parser (σ ⊕ α)) → σ → Parser α
  | 0, _, _ => failure
  | fuel + 1, step, state => do
    match ← step state with
    | .inl state => iterate fuel step state
    | .inr result => return result

end Parser

end Collector.Script
