import Collector.Script.Literal

/-!
# Syntax trees

The trees that scripts are read into. A tree holds no positions. Where a later stage needs the
text of a part, the tree holds that text: of parameter lists, of the statements of a function
body, of properties and of expressions in parentheses. So the tree of a part depends only on the
text of that part.
-/

namespace Collector.Script

/-- Operators before an operand. -/
inductive UnaryOp where
  | plus | minus | not | invert | typeOf | void | delete
  deriving DecidableEq

/-- Operators between two operands that are both evaluated. -/
inductive BinaryOp where
  | equal | notEqual | strictEqual | strictNotEqual
  | less | lessEqual | greater | greaterEqual
  | shiftLeft | shiftRight | shiftRightUnsigned
  | add | subtract | multiply | divide | remainder | power
  | or | xor | and | isIn | instanceOf
  deriving DecidableEq

/-- Operators that may leave out their second operand. -/
inductive LogicalOp where
  | and | or | coalesce
  deriving DecidableEq

/-- What an assignment does with the old value. -/
inductive AssignOp where
  | set
  | binary (op : BinaryOp)
  | logical (op : LogicalOp)
  deriving DecidableEq

/-- What a declaration declares its names as. -/
inductive DeclarationKind where
  | var | letting | const | using | awaitUsing
  deriving DecidableEq

/-- The two kinds of accessors. -/
inductive AccessorKind where
  | get | set
  deriving DecidableEq

mutual

/-- Expressions. -/
inductive Expr where
  | name (id : String)
  | this
  | super
  | null
  | bool (value : Bool)
  | number (value : Double)
  | bigint (digits : String)
  | string (value : String)
  | regex (body flags : String)
  /-- A template: one more text than values, which stand between the texts. -/
  | template (texts : List Quasi) (values : List Expr)
  | tagged (tag : Expr) (texts : List Quasi) (values : List Expr)
  /-- An array. The flag tells whether a comma stands before its closing bracket. -/
  | array (items : List Expr) (comma : Bool)
  /-- A position of an array without a value. -/
  | hole
  /-- The items of a collection, in an array or among arguments. -/
  | spread (items : Expr)
  /-- An object. The flag tells whether a comma stands before its closing brace. -/
  | object (properties : List Property) (comma : Bool)
  | function (f : Function)
  /-- An arrow function. If its body is one expression, it holds that expression as its only
  statement, and the text of the expression stands here. -/
  | arrow (valueText : Option String) (f : Function)
  | classOf (c : Class)
  /-- An expression in parentheses, with its text without them. -/
  | paren (text : String) (inner : Expr)
  | member (object : Expr) (property : String) (optional : Bool)
  | index (object key : Expr) (optional : Bool)
  | privateMember (object : Expr) (property : String) (optional : Bool)
  | call (callee : Expr) (arguments : List Expr) (optional : Bool)
  | new (callee : Expr) (arguments : List Expr)
  /-- The whole of a chain that holds an optional link. -/
  | chain (inner : Expr)
  | importCall (arguments : List Expr)
  /-- `new.target` and `import.meta`. -/
  | metaProperty (object property : String)
  | unary (op : UnaryOp) (operand : Expr)
  /-- Adds one, or takes one off; the operator stands before or behind the target. -/
  | update (increment before : Bool) (target : Expr)
  | binary (op : BinaryOp) (left right : Expr)
  | logical (op : LogicalOp) (left right : Expr)
  | privateIn (property : String) (right : Expr)
  | assign (op : AssignOp) (target : Pattern) (value : Expr)
  | conditional (test yes no : Expr)
  | sequence (items : List Expr)
  | await (operand : Expr)
  | yield (delegate : Bool) (operand : List Expr)

/-- Names of properties. A literal in brackets is the literal itself. -/
inductive Key where
  | name (id : String)
  | string (value : String)
  | number (value : Double)
  | bigint (digits : String)
  | privateName (id : String)
  | computed (value : Expr)

/-- Properties of object literals, with their texts. -/
inductive Property where
  | field (key : Key) (value : Expr) (shorthand : Bool) (valueText : String)
  | method (key : Key) (f : Function) (text : String)
  | accessor (kind : AccessorKind) (key : Key) (f : Function) (text : String)
  | spread (value : Expr)
  /-- `name = value`: a default, which only a pattern may hold. -/
  | pending (id : String) (value : Expr)

/-- Patterns that names are bound by and values assigned to. -/
inductive Pattern where
  /-- A new name. -/
  | bind (id : String)
  /-- A place that exists already. -/
  | place (target : Expr)
  | array (items : List Pattern)
  | object (properties : List Pattern)
  /-- A property of an object pattern. -/
  | field (key : Key) (value : Pattern) (shorthand : Bool)
  /-- A pattern with a default, or a declared pattern with its initial value. -/
  | withValue (pattern : Pattern) (value : Expr)
  /-- An array position without a pattern. -/
  | hole
  /-- What is left of an array, an object or a parameter list. -/
  | rest (pattern : Pattern)

/-- Functions. The text of a function that is not an arrow function is `head`, the parameter
list, `gap` and the body in its braces. -/
structure Function where
  isAsync : Bool
  isGenerator : Bool
  name : Option String
  head : String
  params : List Pattern
  paramsText : String
  gap : String
  items : List Item
  tail : String

/-- A statement with its text and the text between it and the one before. -/
structure Item where
  lead : String
  text : String
  statement : Statement

/-- Classes. -/
structure Class where
  decorators : List Expr
  name : Option String
  heritage : List Expr
  members : List Member

/-- Members of classes. -/
inductive Member where
  | method (decorators : List Expr) (accessor : Option AccessorKind) (isStatic : Bool) (key : Key)
    (f : Function)
  | field (decorators : List Expr) (isStatic isAccessor : Bool) (key : Key) (value : List Expr)
  | staticBlock (statements : List Statement)

/-- Statements. A part that may be missing is a list of at most one. -/
inductive Statement where
  /-- A string on its own at the front of a body, with its quotes. -/
  | directive (text : String)
  | expression (value : Expr)
  | declare (kind : DeclarationKind) (declarators : List Pattern)
  | function (f : Function)
  | classOf (c : Class)
  | block (statements : List Statement)
  | empty
  | debugger
  | ifElse (test : Expr) (yes : Statement) (no : List Statement)
  | loop (init : List Statement) (test update : List Expr) (body : Statement)
  /-- A loop over the names of an object. Its head declares patterns, or without a kind is one
  that is assigned to. -/
  | forIn (kind : Option DeclarationKind) (head : List Pattern) (object : Expr) (body : Statement)
  | forOf (isAwait : Bool) (kind : Option DeclarationKind) (head : List Pattern) (items : Expr)
    (body : Statement)
  | while (test : Expr) (body : Statement)
  | doWhile (body : Statement) (test : Expr)
  | continue (label : Option String)
  | break (label : Option String)
  | return (value : List Expr)
  | throw (value : Expr)
  | with (object : Expr) (body : Statement)
  | switch (value : Expr) (cases : List Case)
  | labelled (label : String) (body : Statement)
  /-- A block, a handler with its parameter, and a block that is run at last. -/
  | try (body : List Statement) (param : List Pattern) (handler finalizer : List Statement)
  | imports
  /-- An export: of a statement, or of names that exist already. -/
  | exports (declaration : List Statement) (names : List String)

/-- A branch of a switch: its test, unless it is the default, and its statements. -/
inductive Case where
  | branch (test : List Expr) (statements : List Statement)

end

/-- Statements, and the text behind the last one: a script, or the inside of a function's
braces. -/
structure Body where
  items : List Item
  tail : String

/-! ## Texts -/

/-- The text of a statement and of what stands before it. -/
def Item.source (item : Item) : String := item.lead ++ item.text

/-- The text of a body. -/
def Body.source (body : Body) : String := String.join (body.items.map Item.source) ++ body.tail

/-- The text of a body in braces. -/
def Body.block (body : Body) : String := "\x7b" ++ body.source ++ "\x7d"

/-- The body of a function. -/
def Function.body (f : Function) : Body := ⟨f.items, f.tail⟩

/-- The text of a function that is not an arrow function. -/
def Function.source (f : Function) : String := f.head ++ f.paramsText ++ f.gap ++ f.body.block

/-- Whether a statement is a directive. -/
def Statement.isDirective : Statement → Bool
  | .directive _ => true
  | _ => false

/-- The statements of a body, directives left out. -/
def Body.statements (body : Body) : List Statement :=
  (body.items.map Item.statement).filter fun s => !s.isDirective

/-- An expression without the parentheses around it. -/
def Expr.withoutParens : Expr → Expr
  | .paren _ inner => inner.withoutParens
  | e => e

end Collector.Script
