import Collector.Context.Schema
import Collector.Export.Value

/-!
# Shared exports of a group

Both groups of functions export a context schema and helpers in the same way.
-/

namespace Collector

namespace Exports

/-- The first field of a variable that is not constant, with the name of the variable. -/
def runtimeField? (definitions : Entries Export) : Option (String × String) :=
  definitions.findSome? fun (name, entry) =>
    ((entry.object?.getD []).find? fun field => field.2.json?.isNone).map fun field =>
      (name, field.1)

/-- The context schema of a group. Where all variables are objects, all their fields have to be
constant. -/
def schema (exports : Exports) : Outcome Schema :=
  match exports.defined? "contextDefinition" with
  | none => Schema.ofJson none
  | some value =>
    let definitions := (value.object?.filter fun definitions =>
      definitions.all fun entry => entry.2.object?.isSome).getD []
    match runtimeField? definitions with
    | some (name, field) => .error (.notStatic name field)
    | none => Schema.ofJson (some value.shownJson)

/-- The helpers of a group. -/
def helpers (exports : Exports) : Outcome (Entries Export) :=
  match exports.defined? "helpers" with
  | none => .ok []
  | some (.object helpers) => .ok helpers
  | some _ => .error (.helperNotFunction "helpers")

end Exports

end Collector
