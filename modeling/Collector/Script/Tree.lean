import Collector.Script.Syntax

/-!
# Uniform trees

A second view of syntax trees, in which every construct is a labelled node with its parts as
children, in the order of the text. Questions about what occurs anywhere in a script are asked
of this view.
-/

namespace Collector.Script

/-- What a node is, as far as anything asks. -/
inductive Label where
  /-- A use of a name for a value. -/
  | reference (id : String)
  /-- A place where a name is bound. -/
  | binding (id : String)
  /-- A property read by name; the child is the object. -/
  | member (property : String)
  /-- A property read by value; the children are the object and the value. -/
  | index
  /-- A string, or a template without substitutions. -/
  | text (value : String)
  /-- An expression in parentheses. -/
  | paren
  /-- A property with a default outside a pattern. -/
  | pending
  /-- Anything else. -/
  | other
  deriving DecidableEq

/-- A labelled node with its children. -/
inductive Tree where
  | node (label : Label) (children : List Tree)

/-- A node without children. -/
def Tree.leaf (label : Label) : Tree := .node label []

/-- The node of an optional name. -/
def bindingLeaves : Option String → List Tree
  | some id => [.leaf (.binding id)]
  | none => []

/-- The node of a template. -/
def templateTree (texts : List Quasi) (values : List Tree) : Tree :=
  match texts, values with
  | [text], [] => .leaf (.text (text.cooked.getD text.raw))
  | _, values => .node .other values

mutual

/-- The node of an expression. -/
def Expr.tree : Expr → Tree
  | .name id => .leaf (.reference id)
  | .string value => .leaf (.text value)
  | .template texts values => templateTree texts (exprTrees values)
  | .tagged tag _ values => .node .other (tag.tree :: exprTrees values)
  | .array items _ => .node .other (exprTrees items)
  | .spread items => .node .other [items.tree]
  | .object properties _ => .node .other (propertyTrees properties)
  | .function f => f.tree
  | .arrow _ f => f.tree
  | .classOf c => c.tree
  | .paren _ inner => .node .paren [inner.tree]
  | .member object property _ => .node (.member property) [object.tree]
  | .index object key _ => .node .index [object.tree, key.tree]
  | .privateMember object _ _ => .node .other [object.tree]
  | .call callee arguments _ => .node .other (callee.tree :: exprTrees arguments)
  | .new callee arguments => .node .other (callee.tree :: exprTrees arguments)
  | .chain inner => .node .other [inner.tree]
  | .importCall arguments => .node .other (exprTrees arguments)
  | .unary _ operand => .node .other [operand.tree]
  | .update _ _ target => .node .other [target.tree]
  | .binary _ left right => .node .other [left.tree, right.tree]
  | .logical _ left right => .node .other [left.tree, right.tree]
  | .privateIn _ right => .node .other [right.tree]
  | .assign _ target value => .node .other [target.tree, value.tree]
  | .conditional test yes no => .node .other [test.tree, yes.tree, no.tree]
  | .sequence items => .node .other (exprTrees items)
  | .await operand => .node .other [operand.tree]
  | .yield _ operand => .node .other (exprTrees operand)
  | .this | .super | .null | .bool _ | .number _ | .bigint _ | .regex _ _ | .hole
  | .metaProperty _ _ => .leaf .other

/-- The nodes of expressions. -/
def exprTrees : List Expr → List Tree
  | [] => []
  | e :: rest => e.tree :: exprTrees rest

/-- The node of a key. -/
def Key.tree : Key → Tree
  | .computed value => value.tree
  | .name _ | .string _ | .number _ | .bigint _ | .privateName _ => .leaf .other

/-- The node of a property. -/
def Property.tree : Property → Tree
  | .field key value _ _ => .node .other [key.tree, value.tree]
  | .method key f _ => .node .other [key.tree, f.tree]
  | .accessor _ key f _ => .node .other [key.tree, f.tree]
  | .spread value => .node .other [value.tree]
  | .pending id value => .node .pending [.leaf (.reference id), value.tree]

/-- The nodes of properties. -/
def propertyTrees : List Property → List Tree
  | [] => []
  | p :: rest => p.tree :: propertyTrees rest

/-- The node of a pattern. -/
def Pattern.tree : Pattern → Tree
  | .bind id => .leaf (.binding id)
  | .place target => target.tree
  | .array items => .node .other (patternTrees items)
  | .object properties => .node .other (patternTrees properties)
  | .field key value _ => .node .other [key.tree, value.tree]
  | .withValue pattern value => .node .other [pattern.tree, value.tree]
  | .hole => .leaf .other
  | .rest pattern => .node .other [pattern.tree]

/-- The nodes of patterns. -/
def patternTrees : List Pattern → List Tree
  | [] => []
  | p :: rest => p.tree :: patternTrees rest

/-- The node of a function. -/
def Function.tree : Function → Tree
  | ⟨_, _, name, _, params, _, _, items, _⟩ =>
    .node .other (bindingLeaves name ++ patternTrees params ++ itemTrees items)

/-- The nodes of the statements of a body. -/
def itemTrees : List Item → List Tree
  | [] => []
  | ⟨_, _, s⟩ :: rest => s.tree :: itemTrees rest

/-- The node of a class. -/
def Class.tree : Class → Tree
  | ⟨decorators, name, heritage, members⟩ =>
    .node .other
      (exprTrees decorators ++ bindingLeaves name ++ exprTrees heritage ++ memberTrees members)

/-- The node of a member of a class. -/
def Member.tree : Member → Tree
  | .method decorators _ _ key f => .node .other (exprTrees decorators ++ [key.tree, f.tree])
  | .field decorators _ _ key value =>
    .node .other (exprTrees decorators ++ key.tree :: exprTrees value)
  | .staticBlock statements => .node .other (statementTrees statements)

/-- The nodes of the members of a class. -/
def memberTrees : List Member → List Tree
  | [] => []
  | m :: rest => m.tree :: memberTrees rest

/-- The node of a statement. -/
def Statement.tree : Statement → Tree
  | .directive _ => .leaf .other
  | .expression value => .node .other [value.tree]
  | .declare _ declarators => .node .other (patternTrees declarators)
  | .function f => f.tree
  | .classOf c => c.tree
  | .block statements => .node .other (statementTrees statements)
  | .ifElse test yes no => .node .other (test.tree :: yes.tree :: statementTrees no)
  | .loop init test update body =>
    .node .other (statementTrees init ++ exprTrees test ++ exprTrees update ++ [body.tree])
  | .forIn _ head object body => .node .other (patternTrees head ++ [object.tree, body.tree])
  | .forOf _ _ head items body => .node .other (patternTrees head ++ [items.tree, body.tree])
  | .while test body => .node .other [test.tree, body.tree]
  | .doWhile body test => .node .other [body.tree, test.tree]
  | .return value => .node .other (exprTrees value)
  | .throw value => .node .other [value.tree]
  | .with object body => .node .other [object.tree, body.tree]
  | .switch value cases => .node .other (value.tree :: caseTrees cases)
  | .labelled _ body => .node .other [body.tree]
  | .try body param handler finalizer =>
    .node .other
      (statementTrees body ++ patternTrees param ++ statementTrees handler ++
        statementTrees finalizer)
  | .exports declaration names =>
    .node .other (statementTrees declaration ++ names.map fun id => .leaf (.reference id))
  | .empty | .debugger | .continue _ | .break _ | .imports => .leaf .other

/-- The nodes of statements. -/
def statementTrees : List Statement → List Tree
  | [] => []
  | s :: rest => s.tree :: statementTrees rest

/-- The node of a branch of a switch. -/
def Case.tree : Case → Tree
  | .branch test statements => .node .other (exprTrees test ++ statementTrees statements)

/-- The nodes of the branches of a switch. -/
def caseTrees : List Case → List Tree
  | [] => []
  | c :: rest => c.tree :: caseTrees rest

end

/-- The node of a body. -/
def Body.tree (body : Body) : Tree := .node .other (itemTrees body.items)

mutual

/-- All nodes of a tree, a node before its children. -/
def Tree.nodes : Tree → List Tree
  | .node label children => .node label children :: nodesOf children

/-- All nodes of several trees. -/
def nodesOf : List Tree → List Tree
  | [] => []
  | tree :: rest => tree.nodes ++ nodesOf rest

end

/-- The label of a node. -/
def Tree.label : Tree → Label
  | .node label _ => label

/-- All labels in a tree. -/
def Tree.labels (tree : Tree) : List Label := tree.nodes.map Tree.label

/-- The names that a tree refers to, in order. -/
def Tree.references (tree : Tree) : List String :=
  tree.labels.filterMap fun label => match label with
    | .reference id => some id
    | _ => none

/-- Whether a property with a default stands outside all patterns. -/
def Tree.isPending (tree : Tree) : Bool := tree.labels.contains .pending

end Collector.Script
