import Collector.Compact.Conditions

/-!
# Unused values

What is left of an expression whose value nobody uses: the expressions in it that do something, in
the order in which they are run.
-/

namespace Collector.Compact

open Script Node

/-- What is left of a template whose values leave something. A value that is no primitive one may
run code when it becomes text, so it stays in a template. -/
def templateEffects (n : Node) (values : List Node) (effects : List (List Node)) : List Node :=
  let objects := values.filter fun value => !isPrimitive (valueType value)
  if objects.isEmpty then effects.flatten
  else if values.all fun value => !isPrimitive (valueType value) || !hasEffects value then
    [.node (.template (List.replicate (objects.length + 1) ⟨some "", ""⟩)) objects]
  else [n]

/-- What is left of a choice, given what is left of its test and of its values. -/
def choiceEffects (test : Node) (effects yes no : List Node) : List Node :=
  match yes, no with
  | [], [] => effects
  | [], no => (join .or test (sequenceOf no)).items
  | yes, [] => (join .and test (sequenceOf yes)).items
  | yes, no => (conditional test (sequenceOf yes) (sequenceOf no)).items

/-- What is left of a logical operation, given what is left of its operands. -/
def logicalEffects (op : LogicalOp) (a : Node) (left right : List Node) : List Node :=
  if right.isEmpty then left
  else
    let a := if op == .coalesce then a else inTest a
    (join op a (sequenceOf right)).items

/-- Whether all properties of an object are fields with plain keys. -/
def plainFields (properties : List Node) : Bool :=
  properties.all fun property =>
    match property with
    | .node .field [key, _] => !hasEffects key
    | _ => false

mutual

/-- The expressions that are left of an expression whose value is not used. -/
def effectsOf (uses : Uses) : Node → List Node
  | .node kind parts =>
    let n : Node := .node kind parts
    let effects := effectsOfEach uses parts
    if hasEffects n then
      match kind, parts, effects with
      | .sequence, _, effects => effects.flatten
      | .unary .not, _, effects => effects.flatten
      | .unary .void, _, effects => effects.flatten
      | .unary .typeOf, _, effects => effects.flatten
      | .binary op, [a, b], effects =>
        if isQuiet op (valueType a) (valueType b) then effects.flatten else [n]
      | .conditional, [test, _, _], [first, yes, no] => choiceEffects test first yes no
      | .logical op, [a, _], [left, right] => logicalEffects op a left right
      | .array, items, effects =>
        if items.any fun item => item.kind == .spread then [n] else effects.flatten
      | .object, properties, effects => if plainFields properties then effects.flatten else [n]
      | .field, [_, _], [_, value] => value
      | .template _, values, effects => templateEffects n values effects
      | .assign .set, [.node (.store id) _, _], [_, value] =>
        if !uses.hidden && uses.readCount id == 0 then value else [n]
      | _, _, _ => [n]
    else []

/-- What is left of each of several expressions. -/
def effectsOfEach (uses : Uses) : List Node → List (List Node)
  | [] => []
  | n :: rest => effectsOf uses n :: effectsOfEach uses rest

end

/-- A sequence without the values that are not used: those of all items but the last. -/
def foldSequence (uses : Uses) (items : List Node) : Node :=
  let flat := items.flatMap Node.items
  sequenceOf (flat.dropLast.flatMap (effectsOf uses) ++ flat.getLast?.toList)

/-- An expression as a statement, or the empty statement if it does nothing. -/
def effectStatement (uses : Uses) (n : Node) : Node :=
  match effectsOf uses n with
  | [] => .leaf .empty
  | items => statement (sequenceOf items)

/-- A part of which the value is not used, or nothing if it does nothing. -/
def effectPart (uses : Uses) (n : Node) : Node :=
  if n.isPresent then
    match effectsOf uses n with
    | [] => .missing
    | items => sequenceOf items
  else n

end Collector.Compact
