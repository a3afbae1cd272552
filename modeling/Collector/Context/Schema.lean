import Collector.Context.Variable

/-!
# Context schemas

A schema names the context variables of a group of functions. It is read off a JSON value by
`Schema.ofJson`, which accepts sound definitions only, and two schemas can be compared for names
that they define differently.
-/

namespace Collector

/-- Context variables under their names, in order. -/
abbrev Schema := Entries Variable

namespace Schema

/-- A schema as an object. -/
def toJson (schema : Schema) : Json := .object (Entries.mapValues Variable.toJson schema)

/-! ## Reading -/

/-- Whether fields hold a description with at least one character. -/
def isDescribed (fields : Entries Json) : Bool :=
  (Variable.description? fields).any fun description => !description.isEmpty

/-- Whether fields demand a value and give a default as well. -/
def isOverdetermined (fields : Entries Json) : Bool :=
  Variable.flag? fields "required" == some true && (Variable.present? fields "default").isSome

/-- Reads the variable `name` off its fields. -/
def variableOf (name : String) (fields : Entries Json) : Outcome Variable :=
  if !isDescribed fields then .error (.descriptionRequired name)
  else if isOverdetermined fields then .error (.defaultNotNeeded name)
  else
    match Variable.ofFields fields with
    | .ok v => .ok v
    | .error .noDescription => .error (.descriptionRequired name)
    | .error (.notABoolean found) => .error (.notABoolean name found)

/-- Reads the variables of an object one after another. All values are objects. -/
def ofEntries : Entries Json → Outcome Schema
  | [] => .ok []
  | (name, value) :: rest => do
    let v ← variableOf name (value.fields?.getD [])
    let schema ← ofEntries rest
    .ok ((name, v) :: schema)

/-- Reads a schema off a value; without a value it is empty. That all variables are objects is
looked at before anything else about them. -/
def ofJson : Option Json → Outcome Schema
  | none | some .null => .ok []
  | some (.object entries) =>
    match entries.find? fun entry => !entry.2.isObject with
    | some (name, _) => .error (.variableNotObject name)
    | none => ofEntries entries
  | some _ => .error .schemaNotObject

/-! ## Comparing -/

/-- The names that two schemas define differently. -/
def conflicts (a b : Schema) : List String :=
  Entries.names <| a.filter fun (name, v) =>
    match Entries.get? b name with
    | some w => !v.agrees w
    | none => false

/-- The least of several names, in the order of their code points. -/
def leastName? : List String → Option String
  | [] => none
  | name :: rest =>
    match leastName? rest with
    | some other => some (if other < name then other else name)
    | none => some name

/-- Fails with the least name that two schemas define differently. -/
def checkConflicts (a b : Schema) : Outcome Unit :=
  match leastName? (conflicts a b) with
  | some name => .error (.conflictingContext name)
  | none => .ok ()

end Schema

end Collector
