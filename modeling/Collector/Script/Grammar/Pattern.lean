import Collector.Script.Grammar

/-!
# Names of properties and patterns

The productions for the names of properties and for the patterns that new names are bound by.
-/

namespace Collector.Script.Grammar

/-- A value in brackets as the name of a property. -/
def keyOfValue : Expr → Key
  | .string value => .string value
  | .number value => .number value
  | .bigint digits => .bigint digits
  | e => .computed e

/-- The name of a property. -/
def key (g : Grammar) (m : Mode) : Parser Key := do
  let next ← Parser.peek
  match next.token with
  | .word id _ =>
    Parser.advance
    return .name id
  | .string value =>
    Parser.advance
    return .string value
  | .number value =>
    Parser.advance
    return .number value
  | .bigint digits =>
    Parser.advance
    return .bigint digits
  | .privateName id =>
    Parser.advance
    return .privateName id
  | .punctuator .openBracket =>
    Parser.advance
    let value ← g.assignment m.withIn
    Parser.expect .closeBracket
    return keyOfValue value
  | _ => failure

/-- A pattern with an optional value behind it. -/
def withDefault (g : Grammar) (m : Mode) (pattern : Pattern) : Parser Pattern := do
  if ← Parser.accept .assign then
    let value ← g.assignment m.withIn
    return .withValue pattern value
  else return pattern

/-- A pattern among others, behind a token. -/
def bindingItem (g : Grammar) (m : Mode) : Parser Pattern := do
  let pattern ← g.binding m
  g.withDefault m pattern

/-- The rest of an array or of a parameter list, with its dots. -/
def bindingRest (g : Grammar) (m : Mode) : Parser Pattern := do
  Parser.expect .ellipsis
  let pattern ← g.binding m
  return .rest pattern

/-- An item of an array pattern. -/
def arrayBinding (g : Grammar) (m : Mode) : Parser Pattern := do
  if ← Parser.sees .comma then return .hole
  else if ← Parser.sees .ellipsis then
    let pattern ← g.bindingRest m
    Parser.check (← Parser.sees .closeBracket)
    return pattern
  else g.bindingItem m

/-- A property of an object pattern. -/
def objectBinding (g : Grammar) (m : Mode) : Parser Pattern := do
  if ← Parser.accept .ellipsis then
    let id ← Parser.identifier m
    Parser.check (← Parser.sees .closeBrace)
    return .rest (.bind id)
  else
    let next ← Parser.peek
    let key ← g.key m
    if ← Parser.accept .colon then
      let value ← g.bindingItem m
      return .field key value false
    else
      let id ← Parser.lift (next.identifier? m)
      let value ← g.withDefault m (.bind id)
      return .field (.name id) value true

/-- The pattern of a new name. -/
def bindingTarget (g : Grammar) (m : Mode) : Parser Pattern := do
  if ← Parser.accept .openBracket then
    let (items, _) ← g.listUntil .closeBracket (g.arrayBinding m)
    return .array items
  else if ← Parser.accept .openBrace then
    let (properties, _) ← g.listUntil .closeBrace (g.objectBinding m)
    return .object properties
  else
    let id ← Parser.identifier m
    return .bind id

end Collector.Script.Grammar
