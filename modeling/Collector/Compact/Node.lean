import Collector.Script.Syntax

/-!
# Compact trees

The trees that functions are made smaller in. A node has a kind and its parts in order, so a
question about all nodes is one recursion. Names are resolved: a name that is declared inside the
function is a number, and all others are outer names. Parentheses, texts and spellings are gone.
-/

namespace Collector.Compact

open Script

/-- How a function is written. -/
structure Style where
  isAsync : Bool
  isGenerator : Bool
  isArrow : Bool
  deriving DecidableEq

/-- Kinds of nodes. The parts of a node stand in brackets. -/
inductive Kind where
  /-- Nothing, in the place of a part that may be missing. -/
  | missing
  /-- A name that is declared outside. -/
  | outer (name : String)
  /-- A use of a variable for its value. -/
  | read (id : Nat)
  /-- A variable that a value is assigned to. -/
  | store (id : Nat)
  /-- The declaration of a variable. -/
  | bind (id : Nat)
  | this
  | super
  | null
  | undefined
  | bool (value : Bool)
  | number (value : Double)
  | bigint (digits : String)
  | string (value : String)
  | regex (body flags : String)
  /-- [values] -/
  | template (texts : List Quasi)
  /-- [tag, values] -/
  | tagged (texts : List Quasi)
  /-- [items] -/
  | array
  | hole
  /-- [items] -/
  | spread
  /-- [properties] -/
  | object
  /-- [key, value] -/
  | field
  /-- [key, function] -/
  | method (isStatic : Bool)
  /-- [key, function] -/
  | accessor (kind : AccessorKind) (isStatic : Bool)
  | keyName (name : String)
  | keyString (value : String)
  | keyNumber (value : Double)
  | keyBigint (digits : String)
  | keyPrivate (name : String)
  /-- [value] -/
  | computed
  /-- [name or nothing, params, body] -/
  | function (style : Style)
  /-- [patterns] -/
  | params
  /-- [statements] -/
  | body
  /-- [name or nothing, heritage or nothing, members] -/
  | classOf
  /-- [key, value or nothing] -/
  | classField (isStatic isAccessor : Bool)
  /-- [statements] -/
  | staticBlock
  /-- [object] -/
  | member (property : String) (optional : Bool)
  /-- [object, key] -/
  | index (optional : Bool)
  /-- [object] -/
  | privateMember (property : String) (optional : Bool)
  /-- [callee, arguments] -/
  | call (optional : Bool)
  /-- [callee, arguments] -/
  | new
  /-- [expression with an optional link] -/
  | chain
  /-- [arguments] -/
  | importCall
  | metaProperty (object property : String)
  /-- [operand] -/
  | unary (op : UnaryOp)
  /-- [target] -/
  | update (increment before : Bool)
  /-- [left, right] -/
  | binary (op : BinaryOp)
  /-- [left, right] -/
  | logical (op : LogicalOp)
  /-- [right] -/
  | privateIn (property : String)
  /-- [target, value] -/
  | assign (op : AssignOp)
  /-- [test, yes, no] -/
  | conditional
  /-- [items] -/
  | sequence
  /-- [operand] -/
  | await
  /-- [operand or nothing] -/
  | yield (delegate : Bool)
  /-- [patterns] -/
  | arrayPattern
  /-- [fields] -/
  | objectPattern
  /-- [key, pattern] -/
  | patternField
  /-- [pattern, value] -/
  | withDefault
  /-- [pattern] -/
  | rest
  | directive (text : String)
  /-- [value] -/
  | expression
  /-- [declarators] -/
  | declare (kind : DeclarationKind)
  /-- [pattern, value or nothing] -/
  | declarator
  /-- [function] -/
  | functionDeclaration
  /-- [class] -/
  | classDeclaration
  /-- [statements] -/
  | block
  | empty
  /-- [test, statement, statement or nothing] -/
  | branch
  /-- [declaration or expression or nothing, test or nothing, update or nothing, statement] -/
  | loop
  /-- [declaration or target, object, statement] -/
  | forIn
  /-- [declaration or target, items, statement] -/
  | forOf (isAwait : Bool)
  /-- [statement, test] -/
  | doWhile
  | continue (label : Option String)
  | break (label : Option String)
  /-- [value or nothing] -/
  | return
  /-- [value] -/
  | throw
  /-- [object, statement] -/
  | with
  /-- [value, cases] -/
  | switch
  /-- [test or nothing, statements] -/
  | case
  /-- [statement] -/
  | labelled (label : String)
  /-- [block, parameter or nothing, block or nothing, block or nothing] -/
  | try
  deriving DecidableEq

/-- A node with its parts. -/
inductive Node where
  | node (kind : Kind) (parts : List Node)

namespace Node

/-- A node without parts. -/
def leaf (kind : Kind) : Node := node kind []

/-- Nothing. -/
def missing : Node := leaf .missing

/-- The kind of a node. -/
def kind : Node → Kind
  | node kind _ => kind

/-- The parts of a node. -/
def parts : Node → List Node
  | node _ parts => parts

/-- Whether something stands in the place of a part. -/
def isPresent (n : Node) : Bool := n.kind != .missing

/-! ## Recursion -/

mutual

/-- Changes all nodes of a tree, the parts of a node before the node. -/
def rewrite (change : Node → Node) : Node → Node
  | node kind parts => change (node kind (rewriteAll change parts))

/-- Changes all nodes of several trees. -/
def rewriteAll (change : Node → Node) : List Node → List Node
  | [] => []
  | n :: rest => rewrite change n :: rewriteAll change rest

end

mutual

/-- All nodes of a tree, a node before its parts. -/
def nodes : Node → List Node
  | node kind parts => node kind parts :: nodesOf parts

/-- All nodes of several trees. -/
def nodesOf : List Node → List Node
  | [] => []
  | n :: rest => nodes n ++ nodesOf rest

end

/-- The kinds of all nodes of a tree. -/
def kinds (n : Node) : List Kind := n.nodes.map kind

mutual

/-- Equality of trees. -/
def same : Node → Node → Bool
  | node a as, node b bs => a == b && sameAll as bs

/-- Equality of lists of trees. -/
def sameAll : List Node → List Node → Bool
  | [], [] => true
  | a :: as, b :: bs => same a b && sameAll as bs
  | _, _ => false

end

/-! ## Building -/

/-- The negation of a value. -/
def not (n : Node) : Node := node (.unary .not) [n]

/-- A truth value. -/
def bool (value : Bool) : Node := leaf (.bool value)

/-- A text. -/
def text (value : String) : Node := leaf (.string value)

/-- The value that is no value. -/
def undefined : Node := leaf .undefined

/-- The items of a sequence, or the expression alone. -/
def items : Node → List Node
  | node .sequence parts => parts
  | n => [n]

/-- Expressions one after another. Of several only the last one has a value. -/
def sequenceOf : List Node → Node
  | [n] => n
  | ns => node .sequence ns

/-- Two expressions one after the other. -/
def andThen (a b : Node) : Node := sequenceOf (a.items ++ b.items)

/-- An expression as a statement. -/
def statement (n : Node) : Node := node .expression [n]

/-- A statement that answers a value. -/
def answer (n : Node) : Node := node .return [n]

/-- Joins two operands of a logical operator; operands of the same operator on the right side move
to the left. -/
def joinOperands (op : LogicalOp) (a : Node) : Node → Node
  | node (.logical op') [b, c] =>
    if op == op' then joinOperands op (joinOperands op a b) c
    else node (.logical op) [a, node (.logical op') [b, c]]
  | b => node (.logical op) [a, b]

/-- Joins two operands of a logical operator. What stands before the left one in a sequence stays
before. -/
def join (op : LogicalOp) (a b : Node) : Node :=
  let before := a.items.dropLast
  let joined := joinOperands op (a.items.getLast?.getD a) b
  sequenceOf (before ++ [joined])

end Node

end Collector.Compact
