import Collector.Script.Parser
import Collector.Script.Syntax

/-!
# The grammar as a record

The productions of the grammar call one another. A `Grammar` holds those that are called
recursively; the productions themselves are functions of it, and a grammar of one level is made
from the one of the level below. A recursive call is made only behind a token, so the number of
levels needed is bounded by the length of the text.
-/

namespace Collector.Script

/-- The productions that others call recursively. -/
structure Grammar where
  /-- A bound on repetitions. -/
  fuel : Nat
  /-- An expression without commas. -/
  assignment : Mode → Parser Expr
  /-- An operand with the operators that bind more tightly than a level. -/
  operand : Mode → Nat → Parser Expr
  /-- An operand with the operators before it. -/
  unary : Mode → Parser Expr
  /-- A name, literal or call with what follows it. -/
  leftHand : Mode → Parser Expr
  /-- What stands behind `new`. -/
  callee : Mode → Parser Expr
  /-- The pattern of a new name. -/
  binding : Mode → Parser Pattern
  /-- A statement; the flag tells whether it stands in a list of statements. -/
  statement : Mode → Bool → Parser Statement

/-- The grammar in which nothing can be parsed. -/
def Grammar.empty : Grammar :=
  { fuel := 0
    assignment := fun _ => failure
    operand := fun _ _ => failure
    unary := fun _ => failure
    leftHand := fun _ => failure
    callee := fun _ => failure
    binding := fun _ => failure
    statement := fun _ _ => failure }

namespace Grammar

/-- An expression: one or more assignments with commas between them. -/
def commaList (g : Grammar) (m : Mode) (first : Expr) : Parser Expr :=
  Parser.iterate g.fuel (fun items : List Expr => do
    if ← Parser.accept .comma then
      let item ← g.assignment m
      return .inl (item :: items)
    else
      return .inr (match items with
        | [item] => item
        | _ => .sequence items.reverse)) [first]

/-- An expression, behind a token. -/
def expression (g : Grammar) (m : Mode) : Parser Expr := do
  let first ← g.assignment m
  g.commaList m first

/-- Items with commas between them, behind an opening bracket and up to the closing one. Answers
whether the last one is followed by a comma. -/
def listUntil {α : Type} (g : Grammar) (stop : Punctuator) (item : Parser α) :
    Parser (List α × Bool) :=
  Parser.iterate g.fuel (fun (items, comma) => do
    if ← Parser.accept stop then
      return .inr (items.reverse, comma)
    else
      let value ← item
      if ← Parser.accept .comma then
        return .inl (value :: items, true)
      else
        Parser.expect stop
        return .inr ((value :: items).reverse, false)) ([], false)

end Grammar

end Collector.Script
