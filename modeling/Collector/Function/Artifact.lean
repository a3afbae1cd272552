import Collector.Error
import Collector.Script.Reader

/-!
# Artifacts

A compiled function is stored as the statements of its body: a collector binds the parameters
itself.
-/

namespace Collector

open Script

/-- A compiled function by its parts. The body has no braces. -/
structure Artifact where
  name : String
  body : String

/-- The function that a statement declares. -/
def Script.Statement.function? : Statement → Option Function
  | .function f => some f
  | _ => none

/-- Reads the only function that is declared at the top of a script. -/
def Artifact.ofSource (source : String) : Outcome Artifact :=
  match parseScript? source with
  | none => .error .outputSyntax
  | some body =>
    match body.statements.filterMap Statement.function? with
    | [f] => .ok ⟨f.name.getD "", f.body.source⟩
    | _ => .error .outputNotOneFunction

/-- The statements of the body of a compiled function. -/
def extractBody (source : String) : Outcome String := (Artifact.ofSource source).map Artifact.body

end Collector
