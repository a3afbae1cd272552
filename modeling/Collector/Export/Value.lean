import Collector.Json.Value

/-!
# Exported values

A module of a group exports an object. Its values are known as far as they can be without running
the module: functions by their text, objects entry by entry, constants by their value, and all
else by its text.
-/

namespace Collector

/-- A value that a module exports. -/
inductive Export where
  /-- A method, a function expression or an arrow function, with its text. -/
  | function (source : String)
  | object (entries : List (String × Export))
  /-- A constant, or an array of constants. -/
  | literal (value : Json)
  /-- A value that only running the module would show, with its text. -/
  | dynamic (source : String)

/-- The exports of a module, in order. -/
abbrev Exports := Entries Export

namespace Export

/-- The text of a function. -/
def function? : Export → Option String
  | .function source => some source
  | _ => none

/-- The entries of an object. -/
def object? : Export → Option (Entries Export)
  | .object entries => some entries
  | _ => none

/-- Whether a value counts as exported. `null` and `undefined` do not. -/
def isDefined : Export → Bool
  | .literal value => !value.isNull
  | _ => true

mutual

/-- A value as JSON, if it holds constants only. -/
def json? : Export → Option Json
  | .literal value => some value
  | .object entries => (jsonFields? entries).map .object
  | .function _ | .dynamic _ => none

/-- Entries as the fields of a JSON object. -/
def jsonFields? : List (String × Export) → Option (List (String × Json))
  | [] => some []
  | (name, value) :: rest => do
    let value ← json? value
    let fields ← jsonFields? rest
    some ((name, value) :: fields)

end

mutual

/-- A value as JSON, in which texts stand for what is not constant. -/
def shownJson : Export → Json
  | .literal value => value
  | .object entries => .object (shownFields entries)
  | .function source | .dynamic source => .string source

/-- Entries as the fields of a JSON object, in the same way. -/
def shownFields : List (String × Export) → List (String × Json)
  | [] => []
  | (name, value) :: rest => (name, shownJson value) :: shownFields rest

end

end Export

/-- An export that is present, and neither `null` nor `undefined`. -/
def Exports.defined? (exports : Exports) (name : String) : Option Export :=
  (Entries.get? exports name).filter Export.isDefined

end Collector
