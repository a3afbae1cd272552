import Collector.Error
import Collector.Json.Printer
import Collector.Text.Quoted

/-!
# Context variables

A context variable is a value that the user of a collector supplies. Its definition has four
fields with a meaning; all others are kept as they were written.
-/

namespace Collector

/-- The definition of a context variable. -/
structure Variable where
  description : String
  required : Option Bool
  default : Option Json
  encrypted : Option Bool
  /-- The fields without a meaning, in order. -/
  extra : Entries Json

namespace Variable

/-- A variable of which only the description is known. -/
def ofDescription (description : String) : Variable := ⟨description, none, none, none, []⟩

/-- The names of the fields with a meaning. -/
def fieldNames : List String := ["description", "required", "default", "encrypted"]

/-! ## Writing -/

/-- A field that is left out where it has no value. -/
def optionalField (name : String) (value : Option Json) : Entries Json :=
  value.toList.map fun value => (name, value)

/-- The fields of a variable: those with a meaning in a fixed order, then all others. -/
def fields (v : Variable) : Entries Json :=
  [("description", Json.string v.description)] ++
    optionalField "required" (v.required.map Json.bool) ++
    optionalField "default" v.default ++
    optionalField "encrypted" (v.encrypted.map Json.bool) ++ v.extra

/-- A variable as an object. A field of which there are two has the value of the last one. -/
def toJson (v : Variable) : Json := .object (Entries.ofList v.fields)

/-! ## Reading -/

/-- Why fields do not define a variable. -/
inductive Fault where
  | noDescription
  /-- A value stands where only a boolean may; its kind is given in words. -/
  | notABoolean (found : String)

/-- The words for the kind of a value. -/
def kindWords : Json → String
  | .null => "null"
  | .bool value => "boolean \x60" ++ (if value then "true" else "false") ++ "\x60"
  | .integer value => "integer \x60" ++ toString value ++ "\x60"
  | .double value => "floating point \x60" ++ Json.compact (.double value) ++ "\x60"
  | .string value => "string " ++ Text.quoted value
  | .array _ => "sequence"
  | .object _ => "map"

/-- Whether a field must hold a boolean or `null`. -/
def isFlag (name : String) : Bool := name == "required" || name == "encrypted"

/-- The fault of a field. -/
def fieldFault? (field : String × Json) : Option Fault :=
  if isFlag field.1 then
    match field.2 with
    | .null | .bool _ => none
    | value => some (.notABoolean (kindWords value))
  else none

/-- The value of a flag. -/
def flag? (fields : Entries Json) (name : String) : Option Bool :=
  match Entries.get? fields name with
  | some (.bool value) => some value
  | _ => none

/-- The value of a field, where `null` counts as none. -/
def present? (fields : Entries Json) (name : String) : Option Json :=
  (Entries.get? fields name).filter fun value => !value.isNull

/-- The description among fields. -/
def description? (fields : Entries Json) : Option String :=
  (Entries.get? fields "description").bind Json.string?

/-- The fields without a meaning. -/
def extras (fields : Entries Json) : Entries Json :=
  fields.filter fun field => !fieldNames.contains field.1

/-- Reads the definition of a variable off the fields of an object. The first faulty flag in the
order of the fields decides. -/
def ofFields (fields : Entries Json) : Except Fault Variable :=
  match fields.findSome? fieldFault? with
  | some fault => .error fault
  | none =>
    match description? fields with
    | none => .error .noDescription
    | some description =>
      .ok
        { description
          required := flag? fields "required"
          default := present? fields "default"
          encrypted := flag? fields "encrypted"
          extra := extras fields }

/-- Reads the definition of a variable off a value, whatever may be wrong with it. -/
def ofJson (value : Json) : Outcome Variable :=
  match value with
  | .object fields => (ofFields fields).mapError fun _ => .json
  | _ => .error .json

/-! ## Comparing -/

/-- Equality of optional values. -/
def sameDefault : Option Json → Option Json → Bool
  | some a, some b => a.same b
  | none, none => true
  | _, _ => false

/-- Whether two definitions of one variable agree: in description, in `required` and in the
default. A missing `required` differs from a false one. -/
def agrees (a b : Variable) : Bool :=
  a.description == b.description && a.required == b.required && sameDefault a.default b.default

end Variable

end Collector
