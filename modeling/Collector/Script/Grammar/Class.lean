import Collector.Script.Grammar.Function

/-!
# Classes

The productions for classes and their members.
-/

namespace Collector.Script.Grammar

/-- Decorators, each behind an at sign. -/
def decorators (g : Grammar) (m : Mode) : Parser (List Expr) :=
  Parser.iterate g.fuel (fun items : List Expr => do
    if ← Parser.accept .at then
      let e ← g.leftHand m
      return .inl (e :: items)
    else return .inr items.reverse) []

/-- The mode of the value of a class field. -/
def fieldMode : Mode := ⟨true, false, false, false⟩

/-- The mode of a block of a class. `await` is no name in it. -/
def blockMode : Mode := ⟨true, true, false, false⟩

/-- Statements in braces. -/
def braces (g : Grammar) (m : Mode) : Parser (List Statement) := do
  Parser.expect .openBrace
  Parser.iterate g.fuel (fun items : List Statement => do
    if ← Parser.accept .closeBrace then return .inr items.reverse
    else
      let s ← g.statement m true
      return .inl (s :: items)) []

/-- The value of a field, and the end of the member. -/
def fieldRest (g : Grammar) : Parser (List Expr) := do
  let value ← if ← Parser.accept .assign then
      List.singleton <$> g.assignment fieldMode
    else pure []
  Parser.endStatement
  return value

/-- Whether a field of a class may have the name that a lexeme is. Names in brackets are free. -/
def namesField (isStatic : Bool) (lexeme : Lexeme) : Bool :=
  match lexeme.token with
  | .word id _ | .string id => id != "constructor" && !(isStatic && id == "prototype")
  | .privateName id => id != "constructor"
  | _ => true

/-- Whether a method of a class may have the name that a lexeme is. Nothing modifies the
constructor. -/
def namesMethod (isStatic : Bool) (mods : Modifiers) (lexeme : Lexeme) : Bool :=
  match lexeme.token with
  | .word id _ | .string id =>
    if isStatic then id != "prototype" else id != "constructor" || !mods.demandMethod
  | .privateName id => id != "constructor"
  | _ => true

/-- A member from its modifiers on. -/
def memberRest (g : Grammar) (m : Mode) (decorators : List Expr) (isStatic : Bool) :
    Parser Member := do
  if ← acceptModifier "accessor" then
    Parser.check (namesField isStatic (← Parser.peek))
    let key ← g.key m
    let value ← g.fieldRest
    return .field decorators isStatic true key value
  else
    let mods ← modifiers
    let name ← Parser.peek
    let key ← g.key m
    if mods.demandMethod || (← Parser.sees .openParen) then
      Parser.check (namesMethod isStatic mods name)
      let f ← g.method mods
      return .method decorators mods.accessor isStatic key f
    else
      Parser.check (namesField isStatic name)
      let value ← g.fieldRest
      return .field decorators isStatic false key value

/-- A member of a class. -/
def member (g : Grammar) (m : Mode) : Parser Member := do
  let decorators ← g.decorators m
  let next ← Parser.peek
  let second ← Parser.peekSecond
  if next.isWord "static" && second.is .openBrace then
    Parser.advance
    let statements ← g.braces blockMode
    return .staticBlock statements
  else if next.isWord "static" && (beginsKey second || second.is .star) then
    Parser.advance
    g.memberRest m decorators true
  else g.memberRest m decorators false

/-- The members of a class, in braces. -/
def members (g : Grammar) (m : Mode) : Parser (List Member) := do
  Parser.expect .openBrace
  Parser.iterate g.fuel (fun items : List Member => do
    if ← Parser.accept .closeBrace then return .inr items.reverse
    else if ← Parser.accept .semicolon then return .inl items
    else
      let x ← g.member m
      return .inl (x :: items)) []

/-- A class from its decorators on. A declaration has a name. -/
def classOf (g : Grammar) (m : Mode) (named : Bool) : Parser Class := do
  let decorators ← g.decorators m
  Parser.expectWord "class"
  let next ← Parser.peek
  let name ← if next.is .openBrace || next.isWord "extends" then
      Parser.check (!named)
      pure none
    else some <$> Parser.identifier m
  let heritage ← if ← Parser.acceptWord "extends" then
      List.singleton <$> g.leftHand m
    else pure []
  let members ← g.members m
  return ⟨decorators, name, heritage, members⟩

end Collector.Script.Grammar
