import Collector.Script.Grammar.Expression

/-!
# Statements

The productions for statements. A statement of a list may declare names that belong to the block
around it; one that stands alone, such as the body of a loop, may not.
-/

namespace Collector.Script.Grammar

/-! ## Declarations -/

/-- Where a declaration stands. In the head of a loop its values may be missing. -/
inductive DeclarationPlace where
  | statement
  | head
  deriving DecidableEq

/-- Whether a kind of declaration binds single names only. -/
def bindsNames : DeclarationKind → Bool
  | .using | .awaitUsing => true
  | _ => false

/-- Whether a declared pattern needs an initial value. -/
def needsValue (kind : DeclarationKind) : Pattern → Bool
  | .bind _ => kind != .var && kind != .letting
  | .withValue _ _ => false
  | _ => true

/-- A declared pattern with its initial value. -/
def declarator (g : Grammar) (m : Mode) (kind : DeclarationKind) : Parser Pattern := do
  let pattern ← g.binding m
  Parser.check (!bindsNames kind || pattern.isSimple)
  if ← Parser.accept .assign then
    let value ← g.assignment m
    return .withValue pattern value
  else return pattern

/-- The declared patterns behind the words of a declaration. -/
def declarators (g : Grammar) (m : Mode) (kind : DeclarationKind) : Parser (List Pattern) :=
  Parser.iterate g.fuel (fun patterns : List Pattern => do
    let pattern ← g.declarator m kind
    let patterns := pattern :: patterns
    if ← Parser.accept .comma then return .inl patterns
    else return .inr patterns.reverse) []

/-- A declaration behind its words. -/
def declaration (g : Grammar) (m : Mode) (kind : DeclarationKind) : Parser Statement := do
  let patterns ← g.declarators m kind
  Parser.check (patterns.all fun pattern => !needsValue kind pattern)
  Parser.endStatement
  return .declare kind patterns

/-- Whether a lexeme continues an expression that is the name `let`. -/
def continuesName (lexeme : Lexeme) : Bool :=
  (assignOp? lexeme).isSome || (infix? Mode.script lexeme).isSome || lexeme.is .dot ||
    lexeme.is .openParen

/-- Whether a lexeme begins a pattern behind `let` in the head of a loop. -/
def beginsPattern (lexeme : Lexeme) : Bool :=
  match lexeme.token with
  | .word id _ => id != "in"
  | .punctuator .openBrace => true
  | .punctuator .openBracket => true
  | _ => false

/-- Whether a lexeme is a name on the line of the token before it. -/
def isNameOnLine (lexeme : Lexeme) : Bool :=
  !lexeme.newline && (lexeme.identifier? Mode.script).isSome

/-- The kind of a declaration that begins here with `using`, or with `await using`. -/
def usingKind? (place : DeclarationPlace) : Parser (Option DeclarationKind) := do
  let next ← Parser.peek
  let second ← Parser.peekSecond
  let named (lexeme : Lexeme) : Bool :=
    isNameOnLine lexeme && (place == .statement || !lexeme.isWord "of")
  if next.isWord "using" then
    return if named second then some .using else none
  else if next.isWord "await" && second.isWord "using" && !second.newline then
    return if named (lex .inside second.rest) then some .awaitUsing else none
  else return none

/-- Takes the words of a declaration. -/
def declarationWords : DeclarationKind → Parser Unit
  | .awaitUsing => do
    Parser.advance
    Parser.advance
  | _ => Parser.advance

/-! ## Parts of statements -/

/-- An expression in parentheses, as the head of a statement. -/
def condition (g : Grammar) (m : Mode) : Parser Expr := do
  Parser.expect .openParen
  let e ← g.expression m.withIn
  Parser.expect .closeParen
  return e

/-- A statement that stands alone. -/
def single (g : Grammar) (m : Mode) : Parser Statement := g.statement m false

/-- An expression as a statement, or a label with its statement. -/
def expressionStatement (g : Grammar) (m : Mode) : Parser Statement := do
  let e ← g.expression m.withIn
  match e with
  | .name id =>
    if ← Parser.accept .colon then
      let body ← g.single m
      return .labelled id body
    else
      Parser.endStatement
      return .expression e
  | _ =>
    Parser.endStatement
    return .expression e

/-- A statement that begins with `let`: a declaration, unless the word is a name. -/
def letStatement (g : Grammar) (m : Mode) (inList : Bool) : Parser Statement := do
  let second ← Parser.peekSecond
  if continuesName second then g.expressionStatement m
  else
    Parser.advance
    if second.is .semicolon || (!inList && !second.is .openBracket) then
      Parser.endStatement
      return .expression (.name "let")
    else
      Parser.check inList
      g.declaration m .letting

/-- A function as a statement. It has a name; alone it is neither async nor a generator. -/
def functionStatement (g : Grammar) (m : Mode) (inList : Bool) : Parser Statement := do
  let f ← g.function m true
  Parser.check f.name.isSome
  Parser.check (inList || !(f.isAsync || f.isGenerator))
  return .function f

/-- A class as a statement. -/
def classStatement (g : Grammar) (m : Mode) (inList : Bool) : Parser Statement := do
  let c ← g.classOf m true
  Parser.check inList
  return .classOf c

/-- A conditional statement. -/
def ifStatement (g : Grammar) (m : Mode) : Parser Statement := do
  Parser.expectWord "if"
  let test ← g.condition m
  let yes ← g.single m
  let no ← if ← Parser.acceptWord "else" then List.singleton <$> g.single m else pure []
  return .ifElse test yes no

/-! ## Loops -/

/-- A loop that tests a condition before each round. -/
def whileStatement (g : Grammar) (m : Mode) : Parser Statement := do
  Parser.expectWord "while"
  let test ← g.condition m
  return .while test (← g.single m)

/-- A loop that tests a condition after each round. A semicolon may end it. -/
def doStatement (g : Grammar) (m : Mode) : Parser Statement := do
  Parser.expectWord "do"
  let body ← g.single m
  Parser.expectWord "while"
  let test ← g.condition m
  let _ ← Parser.accept .semicolon
  return .doWhile body test

/-- An expression that a token may take the place of. -/
def optionalExpression (g : Grammar) (m : Mode) (stop : Punctuator) : Parser (List Expr) := do
  if ← Parser.accept stop then return []
  else
    let e ← g.expression m.withIn
    Parser.expect stop
    return [e]

/-- A counted loop from its first semicolon on. -/
def loopRest (g : Grammar) (m : Mode) (init : List Statement) : Parser Statement := do
  Parser.expect .semicolon
  let test ← g.optionalExpression m .semicolon
  let update ← g.optionalExpression m .closeParen
  return .loop init test update (← g.single m)

/-- A loop over the names of an object, behind `in`. -/
def forInRest (g : Grammar) (m : Mode) (kind : Option DeclarationKind) (head : List Pattern) :
    Parser Statement := do
  let object ← g.expression m.withIn
  Parser.expect .closeParen
  return .forIn kind head object (← g.single m)

/-- A loop over the items of a collection, behind `of`. -/
def forOfRest (g : Grammar) (m : Mode) (isAwait : Bool) (kind : Option DeclarationKind)
    (head : List Pattern) : Parser Statement := do
  let items ← g.assignment m.withIn
  Parser.expect .closeParen
  return .forOf isAwait kind head items (← g.single m)

/-- A loop behind the declaration in its head. -/
def forDeclared (g : Grammar) (m : Mode) (isAwait : Bool) (kind : DeclarationKind) :
    Parser Statement := do
  declarationWords kind
  let patterns ← g.declarators m.withoutIn kind
  if ← Parser.acceptWord "in" then
    Parser.check (!isAwait)
    g.forInRest m (some kind) patterns
  else if ← Parser.acceptWord "of" then g.forOfRest m isAwait (some kind) patterns
  else
    Parser.check (!isAwait && patterns.all fun pattern => !needsValue kind pattern)
    g.loopRest m [.declare kind patterns]

/-- A loop whose head begins with an expression. -/
def forExpression (g : Grammar) (m : Mode) (isAwait : Bool) : Parser Statement := do
  let next ← Parser.peek
  let second ← Parser.peekSecond
  let head ← g.expression m.withoutIn
  if ← Parser.acceptWord "in" then
    Parser.check (!isAwait)
    let target ← Parser.lift head.target?
    g.forInRest m none [target]
  else if ← Parser.acceptWord "of" then
    Parser.check (isAwait || !(next.isWord "async" && second.isWord "of"))
    let target ← Parser.lift head.target?
    g.forOfRest m isAwait none [target]
  else
    Parser.check (!isAwait)
    g.loopRest m [.expression head]

/-- The kind of the declaration in the head of a loop. -/
def headKind? : Parser (Option DeclarationKind) := do
  let next ← Parser.peek
  let second ← Parser.peekSecond
  if next.isWord "var" then return some .var
  else if next.isWord "const" then return some .const
  else if next.isWord "let" && beginsPattern second then return some .letting
  else usingKind? .head

/-- A loop with a head of its own. `await` may stand in it where it is an operator. -/
def forStatement (g : Grammar) (m : Mode) : Parser Statement := do
  Parser.expectWord "for"
  let isAwait ← Parser.acceptWord "await"
  Parser.check (!isAwait || m.isAsync)
  Parser.expect .openParen
  if ← Parser.sees .semicolon then
    Parser.check (!isAwait)
    g.loopRest m []
  else match ← headKind? with
    | some kind => g.forDeclared m isAwait kind
    | none => g.forExpression m isAwait

/-! ## Jumps -/

/-- Whether a statement may end here without a semicolon, or ends with one. -/
def seesEnd : Parser Bool := do
  let next ← Parser.peek
  return next.newline || next.is .semicolon || next.is .closeBrace || next.token == .finish

/-- The label of a jump, and the end of the statement. -/
def jumpLabel (m : Mode) : Parser (Option String) := do
  let label ← if ← seesEnd then pure none else some <$> Parser.identifier m
  Parser.endStatement
  return label

/-- The answer of a function. -/
def returnStatement (g : Grammar) (m : Mode) : Parser Statement := do
  Parser.expectWord "return"
  Parser.check m.isFunction
  let value ← if ← seesEnd then pure [] else List.singleton <$> g.expression m.withIn
  Parser.endStatement
  return .return value

/-- An exception. Its value stands on the same line. -/
def throwStatement (g : Grammar) (m : Mode) : Parser Statement := do
  Parser.expectWord "throw"
  Parser.check (!(← Parser.peek).newline)
  let value ← g.expression m.withIn
  Parser.endStatement
  return .throw value

/-! ## Statements with blocks -/

/-- The test of a branch: none for the default one. -/
def caseTest (g : Grammar) (m : Mode) : Parser (List Expr) := do
  if ← Parser.acceptWord "default" then
    Parser.expect .colon
    return []
  else
    Parser.expectWord "case"
    let test ← g.expression m.withIn
    Parser.expect .colon
    return [test]

/-- A branch of a switch. -/
def branch (g : Grammar) (m : Mode) : Parser Case := do
  let test ← g.caseTest m
  Parser.iterate g.fuel (fun statements : List Statement => do
    let next ← Parser.peek
    if next.isWord "case" || next.isWord "default" || next.is .closeBrace then
      return .inr (.branch test statements.reverse)
    else
      let s ← g.statement m true
      return .inl (s :: statements)) []

/-- A choice between branches. -/
def switchStatement (g : Grammar) (m : Mode) : Parser Statement := do
  Parser.expectWord "switch"
  let value ← g.condition m
  Parser.expect .openBrace
  Parser.iterate g.fuel (fun cases : List Case => do
    if ← Parser.accept .closeBrace then return .inr (.switch value cases.reverse)
    else
      let c ← g.branch m
      return .inl (c :: cases)) []

/-- The parameter of a handler, in parentheses. -/
def handlerParameter (g : Grammar) (m : Mode) : Parser (List Pattern) := do
  if ← Parser.accept .openParen then
    let pattern ← g.binding m
    Parser.expect .closeParen
    return [pattern]
  else return []

/-- A block with a handler, a block that is run at last, or both. -/
def tryStatement (g : Grammar) (m : Mode) : Parser Statement := do
  Parser.expectWord "try"
  let body ← g.braces m
  let handled ← Parser.acceptWord "catch"
  let param ← if handled then g.handlerParameter m else pure []
  let handler ← if handled then (fun s => [Statement.block s]) <$> g.braces m else pure []
  let finished ← Parser.acceptWord "finally"
  let finalizer ← if finished then (fun s => [Statement.block s]) <$> g.braces m else pure []
  Parser.check (handled || finished)
  return .try body param handler finalizer

/-- Statements that see the properties of an object as names. -/
def withStatement (g : Grammar) (m : Mode) : Parser Statement := do
  Parser.expectWord "with"
  let object ← g.condition m
  return .with object (← g.single m)

/-! ## Imports and exports -/

/-- A name as other scripts see it: any word or a string. -/
def outerName : Parser (Option String) := do
  match (← Parser.peek).token with
  | .word id _ =>
    Parser.advance
    return some id
  | .string _ =>
    Parser.advance
    return none
  | _ => failure

/-- The string that names another script, with attributes, and the end of the statement. -/
def source (g : Grammar) : Parser Unit := do
  match (← Parser.peek).token with
  | .string _ => Parser.advance
  | _ => failure
  let next ← Parser.peek
  if next.isWord "with" || (next.isWord "assert" && !next.newline) then
    Parser.advance
    Parser.expect .openBrace
    let _ ← g.listUntil .closeBrace do
      let _ ← outerName
      Parser.expect .colon
      match (← Parser.peek).token with
      | .string _ => Parser.advance
      | _ => failure
  Parser.endStatement

/-- `from` and the string behind it. -/
def fromSource (g : Grammar) : Parser Unit := do
  Parser.expectWord "from"
  g.source

/-- A name that is imported, with the name that it is bound to. -/
def importItem (m : Mode) : Parser Unit := do
  let next ← Parser.peek
  let _ ← outerName
  if ← Parser.acceptWord "as" then
    let _ ← Parser.identifier m
  else Parser.check (next.identifier? m).isSome

/-- Names in braces, or one name for all of them. -/
def importGroup (g : Grammar) (m : Mode) : Parser Unit := do
  if ← Parser.accept .star then
    Parser.expectWord "as"
    let _ ← Parser.identifier m
  else
    Parser.expect .openBrace
    let _ ← g.listUntil .closeBrace (importItem m)

/-- Takes the phase of an import, which stands before a binding. -/
def importPhase : Parser Unit := do
  let next ← Parser.peek
  let second ← Parser.peekSecond
  let isPhase := match second.token with
    | .word id _ => id != "from" || (lex .inside second.rest).isWord "from"
    | _ => false
  if next.isWord "defer" && second.is .star then Parser.advance
  else if next.isWord "source" && isPhase then Parser.advance

/-- An import behind its keyword. -/
def importRest (g : Grammar) (m : Mode) : Parser Statement := do
  let next ← Parser.peek
  match next.token with
  | .string _ => g.source
  | _ =>
    importPhase
    if (← Parser.sees .star) || (← Parser.sees .openBrace) then g.importGroup m
    else
      let _ ← Parser.identifier m
      if ← Parser.accept .comma then g.importGroup m
    g.fromSource
  return .imports

/-- An import, or an expression that begins with its keyword. -/
def importStatement (g : Grammar) (m : Mode) : Parser Statement := do
  let second ← Parser.peekSecond
  if second.is .openParen || second.is .dot then g.expressionStatement m
  else
    Parser.expectWord "import"
    g.importRest m

/-- A name that is exported, with its name outside. -/
def exportItem : Parser (List String) := do
  let id ← outerName
  if ← Parser.acceptWord "as" then
    let _ ← outerName
  return id.toList

/-- What is exported as the default. -/
def exportDefault (g : Grammar) (m : Mode) : Parser Statement := do
  let next ← Parser.peek
  if ← seesFunction then return .function (← g.function m true)
  else if next.isWord "class" || next.is .at then return .classOf (← g.classOf m false)
  else
    let value ← g.assignment m.withIn
    Parser.endStatement
    return .expression value

/-- Whether a statement may be exported. -/
def isDeclaration : Statement → Bool
  | .declare _ _ | .function _ | .classOf _ => true
  | _ => false

/-- An export. -/
def exportStatement (g : Grammar) (m : Mode) : Parser Statement := do
  Parser.expectWord "export"
  if ← Parser.acceptWord "default" then return .exports [← g.exportDefault m] []
  else if ← Parser.accept .star then
    if ← Parser.acceptWord "as" then
      let _ ← outerName
    g.fromSource
    return .exports [] []
  else if ← Parser.accept .openBrace then
    let (names, _) ← g.listUntil .closeBrace exportItem
    if ← Parser.seesWord "from" then
      g.fromSource
      return .exports [] []
    else
      Parser.endStatement
      return .exports [] names.flatten
  else
    let declaration ← g.statement m true
    Parser.check (isDeclaration declaration)
    return .exports [declaration] []

/-! ## Statements -/

/-- A statement that begins with a keyword, or with any other word. -/
def wordStatement (g : Grammar) (m : Mode) (inList : Bool) (word : String) : Parser Statement :=
  match word with
  | "if" => g.ifStatement m
  | "do" => g.doStatement m
  | "while" => g.whileStatement m
  | "for" => g.forStatement m
  | "continue" => do
    Parser.advance
    return .continue (← jumpLabel m)
  | "break" => do
    Parser.advance
    return .break (← jumpLabel m)
  | "with" => g.withStatement m
  | "switch" => g.switchStatement m
  | "throw" => g.throwStatement m
  | "try" => g.tryStatement m
  | "debugger" => do
    Parser.advance
    Parser.endStatement
    return .debugger
  | "class" => g.classStatement m inList
  | "export" => g.exportStatement m
  | "import" => g.importStatement m
  | "return" => g.returnStatement m
  | "let" => g.letStatement m inList
  | "var" => do
    Parser.advance
    g.declaration m .var
  | "const" => do
    Parser.check inList
    Parser.advance
    g.declaration m .const
  | _ => do
    if ← seesFunction then g.functionStatement m inList
    else match ← usingKind? .statement with
      | some kind =>
        Parser.check inList
        declarationWords kind
        g.declaration m kind
      | none => g.expressionStatement m

/-- A statement. -/
def anyStatement (g : Grammar) (m : Mode) (inList : Bool) : Parser Statement := do
  let next ← Parser.peek
  match next.token with
  | .punctuator .openBrace => return .block (← g.braces m)
  | .punctuator .semicolon =>
    Parser.advance
    return .empty
  | .punctuator .at => g.classStatement m inList
  | .word word false => g.wordStatement m inList word
  | _ => g.expressionStatement m

end Collector.Script.Grammar
