import Collector.Entries
import Collector.Number.Double

/-!
# JSON values

Values as they stand in a template document. The fields of an object keep their order, and a
whole number is kept apart from a double.
-/

namespace Collector

/-- A JSON value. -/
inductive Json where
  | null
  | bool (value : Bool)
  | integer (value : Int)
  | double (value : Double)
  | string (value : String)
  | array (items : List Json)
  | object (fields : List (String × Json))

namespace Json

/-- The fields of an object. -/
def fields? : Json → Option (Entries Json)
  | .object fields => some fields
  | _ => none

/-- The text of a string. -/
def string? : Json → Option String
  | .string value => some value
  | _ => none

/-- Whether a value is an object. -/
def isObject : Json → Bool
  | .object _ => true
  | _ => false

/-- Whether a value is `null`. -/
def isNull : Json → Bool
  | .null => true
  | _ => false

mutual

/-- Equality of values: the order of fields does not count, and a whole number never equals a
double. -/
def same : Json → Json → Bool
  | .null, .null => true
  | .bool a, .bool b => a == b
  | .integer a, .integer b => a == b
  | .double a, .double b => a.sameValue b
  | .string a, .string b => a == b
  | .array a, .array b => sameItems a b
  | .object a, .object b => a.length == b.length && sameFields a b
  | _, _ => false

/-- Equality of arrays, item by item. -/
def sameItems : List Json → List Json → Bool
  | [], [] => true
  | a :: as, b :: bs => same a b && sameItems as bs
  | _, _ => false

/-- Whether each of the first fields has an equal one under its name among the second. -/
def sameFields : List (String × Json) → List (String × Json) → Bool
  | [], _ => true
  | (name, a) :: rest, others =>
    (match Entries.get? others name with
      | some b => same a b
      | none => false) && sameFields rest others

end

end Json

end Collector
