import Collector.Script.Syntax

/-!
# Expressions as patterns

The left side of an assignment and the parameters of an arrow function are read as expressions
first, for nothing tells them apart until the `=` or the `=>` behind them. These functions read
such an expression as the pattern that it stands for.
-/

namespace Collector.Script

/-- Whether an expression is a place that a value can be stored in. -/
def Expr.isPlace : Expr → Bool
  | .name _ | .member _ _ _ | .index _ _ _ | .privateMember _ _ _ => true
  | .paren _ inner => inner.isPlace
  | _ => false

/-- Whether a pattern is a single name or place. -/
def Pattern.isSimple : Pattern → Bool
  | .bind _ | .place _ => true
  | _ => false

mutual

/-- The pattern that an expression stands for on the left side of an assignment. -/
def Expr.target? : Expr → Option Pattern
  | .array items comma => (targetItems? comma items).map .array
  | .object properties comma => (targetFields? comma properties).map .object
  | .assign .set target value => some (.withValue target value)
  | e => if e.isPlace then some (.place e) else none

/-- The patterns of array items. What spreads stands last, without a comma behind it. -/
def targetItems? (comma : Bool) : List Expr → Option (List Pattern)
  | [] => some []
  | .spread items :: rest =>
    match rest, comma with
    | [], false =>
      match items.target? with
      | some (.withValue _ _) => none
      | some pattern => some [.rest pattern]
      | none => none
    | _, _ => none
  | .hole :: rest => (targetItems? comma rest).map (.hole :: ·)
  | e :: rest => do
    let pattern ← e.target?
    let patterns ← targetItems? comma rest
    some (pattern :: patterns)

/-- The patterns of properties. What spreads stands last and is a single name or place. -/
def targetFields? (comma : Bool) : List Property → Option (List Pattern)
  | [] => some []
  | .spread value :: rest =>
    match rest, comma with
    | [], false => (value.target?.filter Pattern.isSimple).map fun pattern => [.rest pattern]
    | _, _ => none
  | .field key value shorthand _ :: rest => do
    let pattern ← value.target?
    let patterns ← targetFields? comma rest
    some (.field key pattern shorthand :: patterns)
  | .pending id value :: rest => do
    let patterns ← targetFields? comma rest
    some (.field (.name id) (.withValue (.place (.name id)) value) true :: patterns)
  | .method _ _ _ :: _ => none
  | .accessor _ _ _ _ :: _ => none

end

mutual

/-- The same pattern with new names in the place of old ones; other places cannot be bound. -/
def Pattern.binding? : Pattern → Option Pattern
  | .bind id => some (.bind id)
  | .place (.name id) => some (.bind id)
  | .place _ => none
  | .array items => (bindings? items).map .array
  | .object properties => (bindings? properties).map .object
  | .field key value shorthand => value.binding?.map fun value => .field key value shorthand
  | .withValue pattern value => pattern.binding?.map fun pattern => .withValue pattern value
  | .hole => some .hole
  | .rest pattern => pattern.binding?.map .rest

/-- The same patterns with new names. -/
def bindings? : List Pattern → Option (List Pattern)
  | [] => some []
  | p :: rest => do
    let p ← p.binding?
    let rest ← bindings? rest
    some (p :: rest)

end

/-- The parameters that the expressions before an arrow stand for. -/
def parameters? (items : List Expr) (comma : Bool) : Option (List Pattern) :=
  let spreads : Bool := items.getLast?.any fun e => match e with
    | .spread _ => true
    | _ => false
  (targetItems? (comma && spreads) items).bind bindings?

end Collector.Script
