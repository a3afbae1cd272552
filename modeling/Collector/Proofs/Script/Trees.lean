import Collector.Script.Tree

/-!
# Names and defaults in trees

The nodes of a list are the nodes of its members. What a node refers to is what its children refer
to, and so is whether a default is pending in it.
-/

namespace Collector.Script

/-! ## Lists of nodes -/

theorem exprTrees_eq (items : List Expr) : exprTrees items = items.map Expr.tree := by
  induction items with
  | nil => rfl
  | cons e rest ih => rw [exprTrees, ih, List.map_cons]

theorem propertyTrees_eq (items : List Property) :
    propertyTrees items = items.map Property.tree := by
  induction items with
  | nil => rfl
  | cons p rest ih => rw [propertyTrees, ih, List.map_cons]

theorem patternTrees_eq (items : List Pattern) : patternTrees items = items.map Pattern.tree := by
  induction items with
  | nil => rfl
  | cons p rest ih => rw [patternTrees, ih, List.map_cons]

theorem memberTrees_eq (items : List Member) : memberTrees items = items.map Member.tree := by
  induction items with
  | nil => rfl
  | cons x rest ih => rw [memberTrees, ih, List.map_cons]

theorem statementTrees_eq (items : List Statement) :
    statementTrees items = items.map Statement.tree := by
  induction items with
  | nil => rfl
  | cons s rest ih => rw [statementTrees, ih, List.map_cons]

theorem caseTrees_eq (items : List Case) : caseTrees items = items.map Case.tree := by
  induction items with
  | nil => rfl
  | cons c rest ih => rw [caseTrees, ih, List.map_cons]

theorem itemTrees_eq (items : List Item) :
    itemTrees items = (items.map Item.statement).map Statement.tree := by
  induction items with
  | nil => rfl
  | cons item rest ih =>
    obtain ⟨lead, text, s⟩ := item
    rw [itemTrees, ih]
    rfl

theorem Function.tree_eq (f : Function) :
    f.tree = .node .other
      (bindingLeaves f.name ++ f.params.map Pattern.tree ++
        (f.items.map Item.statement).map Statement.tree) := by
  cases f
  rw [Function.tree, patternTrees_eq, itemTrees_eq]

theorem Class.tree_eq (c : Class) :
    c.tree = .node .other
      (c.decorators.map Expr.tree ++ bindingLeaves c.name ++ c.heritage.map Expr.tree ++
        c.members.map Member.tree) := by
  cases c
  rw [Class.tree, exprTrees_eq, exprTrees_eq, memberTrees_eq]

/-! ## Names and defaults -/

theorem nodesOf_eq (trees : List Tree) : nodesOf trees = trees.flatMap Tree.nodes := by
  induction trees with
  | nil => rfl
  | cons tree rest ih => rw [nodesOf, ih, List.flatMap_cons]

theorem Tree.labels_node (label : Label) (children : List Tree) :
    (Tree.node label children).labels = label :: children.flatMap Tree.labels := by
  unfold Tree.labels
  rw [Tree.nodes, List.map_cons, nodesOf_eq, List.map_flatMap]
  rfl

/-- A default is pending in a tree if it is in a child, unless the node is one itself. -/
theorem Tree.isPending_other (children : List Tree) :
    (Tree.node .other children).isPending = children.any Tree.isPending := by
  unfold Tree.isPending
  rw [Tree.labels_node]
  simp only [List.contains_eq_any_beq, List.any_cons, List.any_flatMap]
  rfl

/-- A node refers to what it is itself and to what its children refer to. -/
@[simp]
theorem Tree.references_node (label : Label) (children : List Tree) :
    (Tree.node label children).references =
      (match label with
        | .reference id => [id]
        | _ => []) ++ children.flatMap Tree.references := by
  unfold Tree.references
  rw [Tree.labels_node, List.filterMap_cons, List.filterMap_flatMap]
  cases label <;> rfl

@[simp]
theorem Tree.references_leaf (label : Label) :
    (Tree.leaf label).references =
      match label with
      | .reference id => [id]
      | _ => [] := by
  simp [Tree.leaf]

theorem references_templateTree (texts : List Quasi) (values : List Tree) :
    (templateTree texts values).references = values.flatMap Tree.references := by
  unfold templateTree
  split <;> simp

theorem references_leaves (names : List String) :
    (names.map fun id => Tree.leaf (.reference id)).flatMap Tree.references = names := by
  induction names with
  | nil => rfl
  | cons id rest ih => rw [List.map_cons, List.flatMap_cons, ih, Tree.references_leaf]; rfl

theorem references_bindingLeaves (name : Option String) :
    (bindingLeaves name).flatMap Tree.references = [] := by
  cases name <;> simp [bindingLeaves]

end Collector.Script
