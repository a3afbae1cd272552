import Collector.Script.Grammar.Statement
import Collector.Script.Tree

/-!
# Reading scripts and expressions

The grammar of all levels, and the functions that read a whole text with it.
-/

namespace Collector.Script

/-- The grammar of a level: nothing is parsed at level zero, and every production of a level calls
those of the level below. A recursive call takes a token at least every second time. -/
def grammar (fuel : Nat) : Nat → Grammar
  | 0 => .empty
  | level + 1 =>
    { fuel := fuel
      assignment := fun m c => (grammar fuel level).assignmentExpression m c
      operand := fun m above c => (grammar fuel level).operandAbove m above c
      unary := fun m c => (grammar fuel level).unaryExpression m c
      leftHand := fun m c => (grammar fuel level).leftHandSide m c
      callee := fun m c => (grammar fuel level).newCallee m c
      binding := fun m c => (grammar fuel level).bindingTarget m c
      statement := fun m inList c => (grammar fuel level).anyStatement m inList c }

/-- The grammar with levels enough for a text. -/
def grammarFor (text : List Char) : Grammar := grammar (text.length + 2) (2 * text.length + 4)

/-- Reads a script. A default outside all patterns is an error. -/
def parseScript? (source : String) : Option Body := do
  let text := source.toList
  let (body, cursor) ← (grammarFor text).body Mode.script (.front .script text)
  if cursor.next.token == .finish && !body.tree.isPending then some body else none

/-- Reads the expression at the front of a text. Behind it one token must be readable; what
stands there is left alone. -/
def parseExpression? (source : String) : Option Expr := do
  let text := source.toList
  let (e, cursor) ← (grammarFor text).expression Mode.script (.front .expression text)
  if cursor.next.token != .invalid && !e.tree.isPending then some e else none

end Collector.Script
