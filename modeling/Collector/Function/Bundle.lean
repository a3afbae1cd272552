import Collector.Export.Value
import Collector.Function.Canonical

/-!
# Bundles

A compiled function can import nothing, so the helpers of its group are declared inside it, at
the end of its body.
-/

namespace Collector

/-- Splits a text before its last closing brace. -/
def splitLastBrace (text : List Char) : Option (List Char × List Char) :=
  match text.reverse.dropWhile (· != '\x7d') with
  | [] => none
  | rest => some ((rest.drop 1).reverse, text.drop (rest.length - 1))

/-- The canonical form of a helper under its own name. -/
def helperText (name : String) (helper : Export) : Outcome String :=
  match helper.function? with
  | some code => normalize code name
  | none => .error (.helperNotFunction name)

/-- The declarations of helpers, each behind a semicolon. -/
def declarations : Entries Export → Outcome String
  | [] => .ok ""
  | (name, helper) :: rest => do
    let text ← helperText name helper
    let others ← declarations rest
    .ok (";" ++ text ++ others)

/-- Declares helpers before the last closing brace of a function. -/
def bundle (code : String) (helpers : Entries Export) : Outcome String :=
  match helpers, splitLastBrace code.toList with
  | [], _ => .ok code
  | _, none => .error .noClosingBrace
  | _, some (front, back) => do
    let texts ← declarations helpers
    .ok (String.ofList front ++ texts ++ String.ofList back)

end Collector
