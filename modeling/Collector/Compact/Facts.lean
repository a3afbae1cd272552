import Collector.Compact.Node
import Collector.Number.Arithmetic
import Collector.Number.Decimal

/-!
# Facts about expressions

What can be said about an expression without running it: whether it does anything besides having
a value, of what type the value is, whether it counts as true, and how often variables are used.
-/

namespace Collector.Compact

open Script

/-! ## Uses of variables -/

/-- How often variables are declared, read and written. -/
structure Uses where
  bindings : Array Nat
  reads : Array Nat
  stores : Array Nat
  /-- Whether code may be run that is not seen, so that no variable is known completely. -/
  hidden : Bool

namespace Uses

/-- Counts one more at a place of an array. -/
def count (counts : Array Nat) (id : Nat) : Array Nat := counts.modify id (· + 1)

/-- Notes the uses that a node is itself. A variable that is changed is read as well. -/
def note (uses : Uses) : Node → Uses
  | .node (.bind id) _ => { uses with bindings := count uses.bindings id }
  | .node (.read id) _ => { uses with reads := count uses.reads id }
  | .node (.store id) _ => { uses with stores := count uses.stores id }
  | .node (.assign .set) _ => uses
  | .node (.assign _) (.node (.store id) _ :: _) => { uses with reads := count uses.reads id }
  | .node (.update _ _) (.node (.store id) _ :: _) => { uses with reads := count uses.reads id }
  | .node (.call _) (.node (.outer "eval") _ :: _) => { uses with hidden := true }
  | .node .with _ => { uses with hidden := true }
  | _ => uses

/-- The uses in a tree of a number of variables. -/
def of (count : Nat) (n : Node) : Uses :=
  let none := Array.replicate count 0
  n.nodes.foldl note ⟨none, none, none, false⟩

/-- How often a variable is declared. -/
def bindingCount (uses : Uses) (id : Nat) : Nat := uses.bindings.getD id 0

/-- How often a variable is read. -/
def readCount (uses : Uses) (id : Nat) : Nat := uses.reads.getD id 0

/-- How often a variable is written behind its declaration. -/
def storeCount (uses : Uses) (id : Nat) : Nat := uses.stores.getD id 0

/-- Whether a variable is declared once and keeps its first value. -/
def isFixed (uses : Uses) (id : Nat) : Bool :=
  !uses.hidden && uses.bindingCount id == 1 && uses.storeCount id == 0

/-- Whether a variable is neither read nor written. -/
def isUnused (uses : Uses) (id : Nat) : Bool :=
  !uses.hidden && uses.readCount id == 0 && uses.storeCount id == 0

end Uses

/-! ## Constants -/

/-- Whether a node is a constant without parts. -/
def isConstant (n : Node) : Bool :=
  match n.kind with
  | .null | .undefined | .bool _ | .number _ | .bigint _ | .string _ => true
  | _ => false

/-- The number that a node is. -/
def number? (n : Node) : Option Double :=
  match n.kind with
  | .number value => some value
  | _ => none

/-- The text that a node is. -/
def string? (n : Node) : Option String :=
  match n.kind with
  | .string value => some value
  | _ => none

/-- The text of a whole number that is exact. -/
def integerText? (value : Double) : Option String := value.safeInt?.map toString

/-- The text that a constant becomes when it is added to a text. -/
def constantText? (n : Node) : Option String :=
  match n.kind with
  | .string value => some value
  | .number value => integerText? value
  | .bool value => some (if value then "true" else "false")
  | .null => some "null"
  | .undefined => some "undefined"
  | _ => none

/-! ## Types -/

/-- Types of values. -/
inductive ValueType where
  | undefined | null | bool | number | bigint | string | object
  deriving DecidableEq

/-- The type of the result of an operator, given those of its operands. -/
def binaryType (op : BinaryOp) (left right : Option ValueType) : Option ValueType :=
  match op with
  | .add =>
    if left == some .string || right == some .string then some .string
    else if left == some .number && right == some .number then some .number
    else none
  | .equal | .notEqual | .strictEqual | .strictNotEqual | .less | .lessEqual | .greater
  | .greaterEqual | .isIn | .instanceOf => some .bool
  | _ => if left == some .number || right == some .number then some .number else none

mutual

/-- The type of the value of an expression, if it shows. -/
def valueType : Node → Option ValueType
  | .node kind parts =>
    match kind with
    | .undefined => some .undefined
    | .null => some .null
    | .bool _ => some .bool
    | .number _ => some .number
    | .bigint _ => some .bigint
    | .string _ | .template _ => some .string
    | .array | .object | .regex _ _ | .function _ | .classOf => some .object
    | .unary .not | .unary .delete => some .bool
    | .unary .typeOf => some .string
    | .unary .void => some .undefined
    | .unary .plus => some .number
    | .binary op =>
      match valueTypes parts with
      | [left, right] => binaryType op left right
      | _ => none
    | .conditional =>
      match valueTypes parts with
      | [_, yes, no] => if yes == no then yes else none
      | _ => none
    | .logical _ =>
      match valueTypes parts with
      | [left, right] => if left == right then left else none
      | _ => none
    | .sequence => (valueTypes parts).getLast?.join
    | _ => none

/-- The types of the values of several expressions. -/
def valueTypes : List Node → List (Option ValueType)
  | [] => []
  | n :: rest => valueType n :: valueTypes rest

end

/-- Whether a type is one of values that are no objects. -/
def isPrimitive (type : Option ValueType) : Bool :=
  match type with
  | some .object | none => false
  | some _ => true

/-! ## Effects -/

/-- Whether an operator between two operands without effects has none itself. -/
def isQuiet (op : BinaryOp) (left right : Option ValueType) : Bool :=
  match op with
  | .strictEqual | .strictNotEqual => true
  | .isIn | .instanceOf => false
  | .equal | .notEqual | .less | .lessEqual | .greater | .greaterEqual =>
    isPrimitive left && isPrimitive right
  | .add =>
    (left == some .string || left == some .number) &&
      (right == some .string || right == some .number) ||
      left == some .string && isPrimitive right || right == some .string && isPrimitive left
  | _ => left == some .number && right == some .number

mutual

/-- Whether running an expression may do more than find its value. A use of an outer name may, for
nothing is known of it. -/
def hasEffects : Node → Bool
  | .node kind parts =>
    match kind with
    | .read _ | .this | .null | .undefined | .bool _ | .number _ | .bigint _ | .string _
    | .regex _ _ | .function _ | .hole | .missing | .keyName _ | .keyString _ | .keyNumber _
    | .keyBigint _ | .metaProperty _ _ => false
    | .template _ => anyEffects parts || !(valueTypes parts).all isPrimitive
    | .array | .object | .field | .conditional | .logical _ | .sequence => anyEffects parts
    | .method _ => anyEffects parts
    | .accessor _ _ => anyEffects parts
    | .computed => anyEffects parts || !(valueTypes parts).all isPrimitive
    | .unary .not | .unary .void => anyEffects parts
    | .unary .typeOf =>
      match parts with
      | [.node (.outer _) _] => false
      | _ => anyEffects parts
    | .unary .delete => true
    | .unary _ => anyEffects parts || !(valueTypes parts).all (· == some .number)
    | .binary op =>
      anyEffects parts ||
        match valueTypes parts with
        | [left, right] => !isQuiet op left right
        | _ => true
    | .classOf => !onlyMethods parts
    | _ => true

/-- Whether running one of several expressions may do more than find its value. -/
def anyEffects : List Node → Bool
  | [] => false
  | n :: rest => hasEffects n || anyEffects rest

/-- Whether the parts of a class are methods with plain names only. -/
def onlyMethods : List Node → Bool
  | [] => true
  | .node (.method _) parts :: rest => !anyEffects parts && onlyMethods rest
  | .node (.bind _) _ :: rest => onlyMethods rest
  | .node .missing _ :: rest => onlyMethods rest
  | _ => false

end

/-! ## Truth -/

/-- Whether the value of an expression counts as true, if it shows. -/
def truth? (n : Node) : Option Bool :=
  match n.kind with
  | .null | .undefined => some false
  | .bool value => some value
  | .number (.finite _ mantissa _) => some (mantissa != 0)
  | .number (.infinite _) => some true
  | .number .notANumber => some false
  | .string value => some (!value.isEmpty)
  | .bigint digits => some (digits != "0")
  | .function _ | .regex _ _ | .classOf | .array | .object => some true
  | _ => none

/-- Whether an expression without effects counts as true, if that shows. -/
def quietTruth? (n : Node) : Option Bool := if hasEffects n then none else truth? n

/-- Whether an expression is `null` or undefined, if that shows. -/
def isNothing? (n : Node) : Option Bool :=
  match valueType n with
  | some .null | some .undefined => some true
  | some _ => some false
  | none => none

end Collector.Compact
