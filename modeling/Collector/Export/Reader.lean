import Collector.Error
import Collector.Export.Value
import Collector.Number.Decimal
import Collector.Script.Reader

/-!
# Reading exports

What a module exports is read off its syntax tree: the object that its last assignment to
`module.exports` writes.
-/

namespace Collector

open Script

/-! ## Constants -/

/-- A number as JSON: a whole one without a point if it is small enough to be exact. -/
def numberJson? (value : Double) : Option Json :=
  match value.safeInt?, value with
  | some n, _ => some (.integer n)
  | none, .finite _ _ _ => some (.double value)
  | none, _ => none

/-- A number as the name of a property. -/
def numberName (value : Double) : String :=
  match value.safeInt? with
  | some n => toString n
  | none => Double.positional.write value

/-- The name that a key stands for, if it can be read off. -/
def Script.Key.text? : Key → Option String
  | .name id => some id
  | .string value => some value
  | .number value => some (numberName value)
  | .bigint _ | .privateName _ | .computed _ => none

mutual

/-- The value of a constant expression. -/
def Script.Expr.literal? : Expr → Option Json
  | .string value => some (.string value)
  | .template [text] [] => some (.string (text.cooked.getD text.raw))
  | .number value => numberJson? value
  | .bool value => some (.bool value)
  | .null => some .null
  | .name id => if id = "undefined" then some .null else none
  | .unary .minus (.number value) => numberJson? value.negate
  | .array items _ => (literalItems? items).map .array
  | .object properties _ =>
    (literalFields? properties).map fun fields => .object (Entries.ofList fields)
  | .paren _ inner => inner.literal?
  | _ => none

/-- The values of constant array items. -/
def literalItems? : List Expr → Option (List Json)
  | [] => some []
  | e :: rest => do
    let value ← e.literal?
    let values ← literalItems? rest
    some (value :: values)

/-- The fields of an object in which everything is constant. -/
def literalFields? : List Property → Option (List (String × Json))
  | [] => some []
  | .field key value _ _ :: rest => do
    let name ← key.text?
    let value ← value.literal?
    let fields ← literalFields? rest
    some ((name, value) :: fields)
  | _ :: _ => none

end

/-! ## Exports -/

mutual

/-- Reads an exported value with a given text. Parentheses around it do not count. -/
def Script.Expr.export (text : String) : Expr → Export
  | .function _ => .function text
  | .arrow _ _ => .function text
  | .object properties _ => .object (Entries.ofList (exportFields properties))
  | .paren inside inner => inner.export inside
  | e =>
    match e.literal? with
    | some value => .literal value
    | none => .dynamic text

/-- Reads the properties of an exported object. Spreads are left out, and so are properties whose
names cannot be read off. -/
def exportFields : List Property → List (String × Export)
  | [] => []
  | .field key value _ text :: rest =>
    (key.text?.map fun name => (name, value.export text)).toList ++ exportFields rest
  | .method key _ text :: rest =>
    (key.text?.map fun name => (name, Export.function text)).toList ++ exportFields rest
  | .accessor _ key _ text :: rest =>
    (key.text?.map fun name => (name, Export.dynamic text)).toList ++ exportFields rest
  | .spread _ :: rest => exportFields rest
  | .pending _ _ :: rest => exportFields rest

end

/-! ## Modules -/

/-- Whether an expression is `module.exports`. -/
def isModuleExports (e : Expr) : Bool :=
  match e.withoutParens with
  | .member (.name object) property false => object == "module" && property == "exports"
  | _ => false

/-- The properties of the object that a statement assigns to `module.exports`. -/
def Script.Statement.exported? : Statement → Option (List Property)
  | .expression (.assign _ (.place target) value) =>
    match isModuleExports target, value.withoutParens with
    | true, .object properties _ => some properties
    | _, _ => none
  | _ => none

/-- Reads the exports of a module off its source. -/
def Exports.ofSource (source : String) : Outcome Exports :=
  match parseScript? source with
  | none => .error (.moduleFault none .syntaxError)
  | some body =>
    match (body.statements.filterMap Statement.exported?).getLast? with
    | some properties => .ok (Entries.ofList (exportFields properties))
    | none => .error (.moduleFault none .noExports)

end Collector
