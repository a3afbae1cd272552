import Collector.Script.Grammar.Pattern

/-!
# Functions and bodies

The productions for parameter lists, for the statements of bodies and for functions.
-/

namespace Collector.Script.Grammar

/-- A parameter. -/
def parameter (g : Grammar) (m : Mode) : Parser Pattern := do
  if ← Parser.sees .ellipsis then
    let pattern ← g.bindingRest m
    Parser.check (← Parser.sees .closeParen)
    return pattern
  else g.bindingItem m

/-- A parameter list with its text. -/
def parameters (g : Grammar) (m : Mode) : Parser (List Pattern × String) := do
  let start := (← Parser.peek).start
  Parser.expect .openParen
  let (params, _) ← g.listUntil .closeParen (g.parameter m)
  return (params, ← Parser.textFrom start)

/-- The statement that an expression statement at the front of a body is: a string on its own is
a directive. -/
def directive? (quoted : String) : Statement → Option Statement
  | .expression (.string _) => some (.directive quoted)
  | _ => none

/-- The next statement of a body, with its texts. The flag tells whether directives may still
stand here, before and behind the statement. -/
def item (g : Grammar) (m : Mode) (prologue : Bool) : Parser (Item × Bool) := do
  let before ← Parser.left
  let next ← Parser.peek
  let statement ← g.statement m true
  let text ← Parser.textFrom next.start
  let lead := slice before next.start
  let directive := match next.token with
    | .string _ => if prologue then directive? (slice next.start next.rest) statement else none
    | _ => none
  match directive with
  | some directive => return (⟨lead, text, directive⟩, true)
  | none => return (⟨lead, text, statement⟩, false)

/-- Statements up to a closing brace or the end of the script, with the text behind them. -/
def body (g : Grammar) (m : Mode) : Parser Body :=
  Parser.iterate g.fuel (fun (items, prologue) => do
    let next ← Parser.peek
    if next.is .closeBrace || next.token == .finish then
      return .inr ⟨items.reverse, slice (← Parser.left) next.start⟩
    else
      let (item, prologue) ← g.item m prologue
      return .inl (item :: items, prologue)) ([], true)

/-- The body of a function, in braces. -/
def functionBody (g : Grammar) (m : Mode) : Parser Body := do
  Parser.expect .openBrace
  let body ← g.body m
  Parser.expect .closeBrace
  return body

/-- The mode inside a function. -/
def functionMode (isAsync isGenerator : Bool) : Mode := ⟨true, isAsync, isGenerator, true⟩

/-- The parameters and the body of a function, which begins at `start`. -/
def functionRest (g : Grammar) (isAsync isGenerator : Bool) (name : Option String)
    (start : List Char) : Parser Function := do
  let m := functionMode isAsync isGenerator
  let head := slice start (← Parser.peek).start
  let (params, paramsText) ← g.parameters m
  let behind ← Parser.left
  let gap := slice behind (← Parser.peek).start
  let body ← g.functionBody m
  return ⟨isAsync, isGenerator, name, head, params, paramsText, gap, body.items, body.tail⟩

/-- A function from its first keyword on. In a declaration its name follows the rules of the
place where it stands, in an expression those of its own body. -/
def function (g : Grammar) (m : Mode) (isDeclaration : Bool) : Parser Function := do
  let start := (← Parser.peek).start
  let isAsync ← Parser.acceptWord "async"
  Parser.expectWord "function"
  let isGenerator ← Parser.accept .star
  let nameMode := if isDeclaration then m else functionMode isAsync isGenerator
  let name ← if ← Parser.sees .openParen then pure none
    else some <$> Parser.identifier nameMode
  g.functionRest isAsync isGenerator name start

/-- Whether a function begins here: with its keyword, or with `async` before it on one line. -/
def seesFunction : Parser Bool := do
  let next ← Parser.peek
  if next.isWord "function" then return true
  else if next.isWord "async" then
    let second ← Parser.peekSecond
    return second.isWord "function" && !second.newline
  else return false

/-! ## Modifiers -/

/-- Whether a lexeme begins the name of a property. -/
def beginsKey (lexeme : Lexeme) : Bool :=
  match lexeme.token with
  | .word _ _ | .string _ | .number _ | .bigint _ | .privateName _
  | .punctuator .openBracket => true
  | _ => false

/-- Takes a word that modifies the property behind it. -/
def acceptModifier (word : String) : Parser Bool := do
  let next ← Parser.peek
  let second ← Parser.peekSecond
  if next.isWord word && beginsKey second then
    Parser.advance
    return true
  else return false

/-- Takes `async` before the name of a method, or before the star of a generator, on one line. -/
def acceptAsync : Parser Bool := do
  let next ← Parser.peek
  let second ← Parser.peekSecond
  if next.isWord "async" && (beginsKey second || second.is .star) && !second.newline then
    Parser.advance
    return true
  else return false

/-- What stands before the name of a property or a member: an accessor's word, or `async` and a
star. -/
structure Modifiers where
  accessor : Option AccessorKind
  isAsync : Bool
  isGenerator : Bool

/-- The words before the name of a property. -/
def modifiers : Parser Modifiers := do
  if ← acceptModifier "get" then return ⟨some .get, false, false⟩
  else if ← acceptModifier "set" then return ⟨some .set, false, false⟩
  else
    let isAsync ← acceptAsync
    let isGenerator ← Parser.accept .star
    return ⟨none, isAsync, isGenerator⟩

/-- Whether modifiers demand a method. -/
def Modifiers.demandMethod (mods : Modifiers) : Bool :=
  mods.accessor.isSome || mods.isAsync || mods.isGenerator

/-- Whether a method with modifiers may have parameters. A getter has none, and a setter has one,
which does not take all values that are left. -/
def Modifiers.fit (mods : Modifiers) (params : List Pattern) : Bool :=
  match mods.accessor, params with
  | none, _ => true
  | some .get, params => params.isEmpty
  | some .set, [.rest _] => false
  | some .set, params => params.length == 1

/-- A method, from its parameters on. -/
def method (g : Grammar) (mods : Modifiers) : Parser Function := do
  let f ← g.functionRest mods.isAsync mods.isGenerator none (← Parser.peek).start
  Parser.check (mods.fit f.params)
  return f

end Collector.Script.Grammar
