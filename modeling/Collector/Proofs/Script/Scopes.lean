import Collector.Compact.Resolve
import Collector.Proofs.Script.Trees

/-!
# What names stand for

A name that is used is bound by the innermost declaration around it, or stands for something
outside. `Expr.uses` and its companions list the names that are used in a part of a script, in the
order of the text, each with what it stands for: `inside` if it is declared within the part, and
else whatever a `view` from outside says.

* A parameter is seen in the parameter list and in the body, what the body declares only there.
* A function that is declared in a block is seen in that block, and so are classes and all names
  but those of `var`, which are seen in the whole function.
* The name of a function expression or a class is seen inside it.

The names listed are those that `Tree.references` lists (`Expr.uses_names`), and another view from
outside changes nothing but what the names stand for outside (`Expr.uses_map`).
-/

namespace Collector.Script

open Collector.Compact

variable {β γ : Type}

/-- The view from where names are declared. -/
def within (inside : β) (names : List String) (view : String → β) (name : String) : β :=
  if name ∈ names then inside else view name

/-- The names that a statement declares in the block that it stands in, behind labels too. -/
def blockDeclared : Statement → List String
  | .labelled _ body => blockDeclared body
  | s => scopeNames s

/-- The names that the statements of a function declare there, wherever they stand. -/
def bodyDeclared (statements : List Statement) : List String :=
  functionNamesOf statements ++ statements.flatMap blockDeclared

mutual

/-- The names that are used in an expression. -/
def Expr.uses (inside : β) (view : String → β) : Expr → List (String × β)
  | .name id => [(id, view id)]
  | .template _ values => exprsUses inside view values
  | .tagged tag _ values => tag.uses inside view ++ exprsUses inside view values
  | .array items _ => exprsUses inside view items
  | .spread items => items.uses inside view
  | .object properties _ => propertiesUses inside view properties
  | .function f => f.uses inside (within inside f.name.toList view)
  | .arrow _ f => f.uses inside view
  | .classOf c => c.uses inside view
  | .paren _ inner => inner.uses inside view
  | .member object _ _ => object.uses inside view
  | .index object key _ => object.uses inside view ++ key.uses inside view
  | .privateMember object _ _ => object.uses inside view
  | .call callee arguments _ => callee.uses inside view ++ exprsUses inside view arguments
  | .new callee arguments => callee.uses inside view ++ exprsUses inside view arguments
  | .chain inner => inner.uses inside view
  | .importCall arguments => exprsUses inside view arguments
  | .unary _ operand => operand.uses inside view
  | .update _ _ target => target.uses inside view
  | .binary _ left right => left.uses inside view ++ right.uses inside view
  | .logical _ left right => left.uses inside view ++ right.uses inside view
  | .privateIn _ right => right.uses inside view
  | .assign _ target value => target.uses inside view ++ value.uses inside view
  | .conditional test yes no =>
    test.uses inside view ++ (yes.uses inside view ++ no.uses inside view)
  | .sequence items => exprsUses inside view items
  | .await operand => operand.uses inside view
  | .yield _ operand => exprsUses inside view operand
  | .this | .super | .null | .bool _ | .number _ | .bigint _ | .string _ | .regex _ _ | .hole
  | .metaProperty _ _ => []

/-- The names that are used in expressions. -/
def exprsUses (inside : β) (view : String → β) : List Expr → List (String × β)
  | [] => []
  | e :: rest => e.uses inside view ++ exprsUses inside view rest

/-- The names that are used in a key. -/
def Key.uses (inside : β) (view : String → β) : Key → List (String × β)
  | .computed value => value.uses inside view
  | .name _ | .string _ | .number _ | .bigint _ | .privateName _ => []

/-- The names that are used in a property. -/
def Property.uses (inside : β) (view : String → β) : Property → List (String × β)
  | .field key value _ _ => key.uses inside view ++ value.uses inside view
  | .method key f _ => key.uses inside view ++ f.uses inside view
  | .accessor _ key f _ => key.uses inside view ++ f.uses inside view
  | .spread value => value.uses inside view
  | .pending id value => (id, view id) :: value.uses inside view

/-- The names that are used in properties. -/
def propertiesUses (inside : β) (view : String → β) : List Property → List (String × β)
  | [] => []
  | p :: rest => p.uses inside view ++ propertiesUses inside view rest

/-- The names that are used in a pattern. -/
def Pattern.uses (inside : β) (view : String → β) : Pattern → List (String × β)
  | .bind _ => []
  | .place target => target.uses inside view
  | .array items => patternsUses inside view items
  | .object properties => patternsUses inside view properties
  | .field key value _ => key.uses inside view ++ value.uses inside view
  | .withValue pattern value => pattern.uses inside view ++ value.uses inside view
  | .hole => []
  | .rest pattern => pattern.uses inside view

/-- The names that are used in patterns. -/
def patternsUses (inside : β) (view : String → β) : List Pattern → List (String × β)
  | [] => []
  | p :: rest => p.uses inside view ++ patternsUses inside view rest

/-- The names that are used in a function. -/
def Function.uses (inside : β) (view : String → β) : Function → List (String × β)
  | ⟨_, _, _, _, params, _, _, items, _⟩ =>
    patternsUses inside (within inside (patternsNames params) view) params ++
      itemsUses inside (within inside (bodyDeclared (items.map Item.statement))
        (within inside (patternsNames params) view)) items

/-- The names that are used in the statements of a body. -/
def itemsUses (inside : β) (view : String → β) : List Item → List (String × β)
  | [] => []
  | ⟨_, _, s⟩ :: rest => s.uses inside view ++ itemsUses inside view rest

/-- The names that are used in a class. Decorators stand outside. -/
def Class.uses (inside : β) (view : String → β) : Class → List (String × β)
  | ⟨decorators, name, heritage, members⟩ =>
    exprsUses inside view decorators ++
      (exprsUses inside (within inside name.toList view) heritage ++
        membersUses inside (within inside name.toList view) members)

/-- The names that are used in a member of a class. -/
def Member.uses (inside : β) (view : String → β) : Member → List (String × β)
  | .method decorators _ _ key f =>
    exprsUses inside view decorators ++ (key.uses inside view ++ f.uses inside view)
  | .field decorators _ _ key value =>
    exprsUses inside view decorators ++ (key.uses inside view ++ exprsUses inside view value)
  | .staticBlock statements =>
    statementsUses inside (within inside (bodyDeclared statements) view) statements

/-- The names that are used in the members of a class. -/
def membersUses (inside : β) (view : String → β) : List Member → List (String × β)
  | [] => []
  | m :: rest => m.uses inside view ++ membersUses inside view rest

/-- The names that are used in a statement. A statement that is part of another one is a block of
its own. A function that is declared in a block is seen in that block only: that a sloppy script
hoists its name as one of `var` to the whole function is left out. -/
def Statement.uses (inside : β) (view : String → β) : Statement → List (String × β)
  | .expression value => value.uses inside view
  | .declare _ declarators => patternsUses inside view declarators
  | .function f => f.uses inside view
  | .classOf c => c.uses inside view
  | .block statements =>
    statementsUses inside (within inside (statements.flatMap blockDeclared) view) statements
  | .ifElse test yes no =>
    test.uses inside view ++ (yes.uses inside (within inside (blockDeclared yes) view) ++
      statementsUses inside (within inside (no.flatMap blockDeclared) view) no)
  | .loop init test update body =>
    statementsUses inside (within inside (init.flatMap blockDeclared) view) init ++
      (exprsUses inside (within inside (init.flatMap blockDeclared) view) test ++
        (exprsUses inside (within inside (init.flatMap blockDeclared) view) update ++
          body.uses inside (within inside (blockDeclared body)
            (within inside (init.flatMap blockDeclared) view))))
  | .forIn kind head object body =>
    patternsUses inside (within inside (blockNames kind head) view) head ++
      (object.uses inside (within inside (blockNames kind head) view) ++
        body.uses inside (within inside (blockDeclared body)
          (within inside (blockNames kind head) view)))
  | .forOf _ kind head items body =>
    patternsUses inside (within inside (blockNames kind head) view) head ++
      (items.uses inside (within inside (blockNames kind head) view) ++
        body.uses inside (within inside (blockDeclared body)
          (within inside (blockNames kind head) view)))
  | .while test body =>
    test.uses inside view ++ body.uses inside (within inside (blockDeclared body) view)
  | .doWhile body test =>
    body.uses inside (within inside (blockDeclared body) view) ++ test.uses inside view
  | .return value => exprsUses inside view value
  | .throw value => value.uses inside view
  | .with object body =>
    object.uses inside view ++ body.uses inside (within inside (blockDeclared body) view)
  | .switch value cases =>
    value.uses inside view ++
      casesUses inside (within inside ((caseStatements cases).flatMap blockDeclared) view) cases
  | .labelled _ body => body.uses inside view
  | .try body param handler finalizer =>
    statementsUses inside (within inside (body.flatMap blockDeclared) view) body ++
      (patternsUses inside (within inside (patternsNames param) view) param ++
        (statementsUses inside (within inside (patternsNames param) view) handler ++
          statementsUses inside view finalizer))
  | .exports declaration names =>
    statementsUses inside view declaration ++ names.map fun id => (id, view id)
  | .directive _ | .empty | .debugger | .continue _ | .break _ | .imports => []

/-- The names that are used in statements. -/
def statementsUses (inside : β) (view : String → β) : List Statement → List (String × β)
  | [] => []
  | s :: rest => s.uses inside view ++ statementsUses inside view rest

/-- The names that are used in a branch of a switch. -/
def Case.uses (inside : β) (view : String → β) : Case → List (String × β)
  | .branch test statements =>
    exprsUses inside view test ++ statementsUses inside view statements

/-- The names that are used in the branches of a switch. -/
def casesUses (inside : β) (view : String → β) : List Case → List (String × β)
  | [] => []
  | c :: rest => c.uses inside view ++ casesUses inside view rest

end

example : (Expr.binary .add (.name "a") (.name "b")).uses true (fun name => name == "b") =
    [("a", false), ("b", true)] := rfl

/-! ## The names that are listed -/

mutual

/-- The names that are used in an expression are those that it refers to. -/
theorem Expr.uses_names (inside : β) (view : String → β) (e : Expr) :
    (e.uses inside view).map Prod.fst = e.tree.references := by
  cases e with
  | name id => rfl
  | template texts values => simp [Expr.uses, Expr.tree, references_templateTree, exprsUses_names]
  | tagged tag texts values => simp [Expr.uses, Expr.tree, tag.uses_names, exprsUses_names]
  | array items comma => simp [Expr.uses, Expr.tree, exprsUses_names]
  | spread items => simp [Expr.uses, Expr.tree, items.uses_names]
  | object properties comma => simp [Expr.uses, Expr.tree, propertiesUses_names]
  | function f => simp [Expr.uses, Expr.tree, f.uses_names]
  | arrow text f => simp [Expr.uses, Expr.tree, f.uses_names]
  | classOf c => simp [Expr.uses, Expr.tree, c.uses_names]
  | paren text inner => simp [Expr.uses, Expr.tree, inner.uses_names]
  | member object property optional => simp [Expr.uses, Expr.tree, object.uses_names]
  | index object key optional => simp [Expr.uses, Expr.tree, object.uses_names, key.uses_names]
  | privateMember object property optional => simp [Expr.uses, Expr.tree, object.uses_names]
  | call callee arguments optional =>
    simp [Expr.uses, Expr.tree, callee.uses_names, exprsUses_names]
  | new callee arguments => simp [Expr.uses, Expr.tree, callee.uses_names, exprsUses_names]
  | chain inner => simp [Expr.uses, Expr.tree, inner.uses_names]
  | importCall arguments => simp [Expr.uses, Expr.tree, exprsUses_names]
  | unary op operand => simp [Expr.uses, Expr.tree, operand.uses_names]
  | update increment before target => simp [Expr.uses, Expr.tree, target.uses_names]
  | binary op left right => simp [Expr.uses, Expr.tree, left.uses_names, right.uses_names]
  | logical op left right => simp [Expr.uses, Expr.tree, left.uses_names, right.uses_names]
  | privateIn property right => simp [Expr.uses, Expr.tree, right.uses_names]
  | assign op target value => simp [Expr.uses, Expr.tree, target.uses_names, value.uses_names]
  | conditional test yes no =>
    simp [Expr.uses, Expr.tree, test.uses_names, yes.uses_names, no.uses_names]
  | sequence items => simp [Expr.uses, Expr.tree, exprsUses_names]
  | await operand => simp [Expr.uses, Expr.tree, operand.uses_names]
  | yield delegate operand => simp [Expr.uses, Expr.tree, exprsUses_names]
  | _ => rfl

theorem exprsUses_names (inside : β) (view : String → β) (items : List Expr) :
    (exprsUses inside view items).map Prod.fst = (exprTrees items).flatMap Tree.references := by
  cases items with
  | nil => rfl
  | cons e rest => simp [exprsUses, exprTrees, e.uses_names, exprsUses_names]

theorem Key.uses_names (inside : β) (view : String → β) (key : Key) :
    (key.uses inside view).map Prod.fst = key.tree.references := by
  cases key with
  | computed value => simp [Key.uses, Key.tree, value.uses_names]
  | _ => rfl

theorem Property.uses_names (inside : β) (view : String → β) (p : Property) :
    (p.uses inside view).map Prod.fst = p.tree.references := by
  cases p with
  | field key value shorthand text =>
    simp [Property.uses, Property.tree, key.uses_names, value.uses_names]
  | method key f text => simp [Property.uses, Property.tree, key.uses_names, f.uses_names]
  | accessor kind key f text => simp [Property.uses, Property.tree, key.uses_names, f.uses_names]
  | spread value => simp [Property.uses, Property.tree, value.uses_names]
  | pending id value => simp [Property.uses, Property.tree, value.uses_names]

theorem propertiesUses_names (inside : β) (view : String → β) (properties : List Property) :
    (propertiesUses inside view properties).map Prod.fst =
      (propertyTrees properties).flatMap Tree.references := by
  cases properties with
  | nil => rfl
  | cons p rest => simp [propertiesUses, propertyTrees, p.uses_names, propertiesUses_names]

theorem Pattern.uses_names (inside : β) (view : String → β) (p : Pattern) :
    (p.uses inside view).map Prod.fst = p.tree.references := by
  cases p with
  | place target => simp [Pattern.uses, Pattern.tree, target.uses_names]
  | array items => simp [Pattern.uses, Pattern.tree, patternsUses_names]
  | object properties => simp [Pattern.uses, Pattern.tree, patternsUses_names]
  | field key value shorthand => simp [Pattern.uses, Pattern.tree, key.uses_names, value.uses_names]
  | withValue pattern value =>
    simp [Pattern.uses, Pattern.tree, pattern.uses_names, value.uses_names]
  | rest pattern => simp [Pattern.uses, Pattern.tree, pattern.uses_names]
  | _ => rfl

theorem patternsUses_names (inside : β) (view : String → β) (patterns : List Pattern) :
    (patternsUses inside view patterns).map Prod.fst =
      (patternTrees patterns).flatMap Tree.references := by
  cases patterns with
  | nil => rfl
  | cons p rest => simp [patternsUses, patternTrees, p.uses_names, patternsUses_names]

theorem Function.uses_names (inside : β) (view : String → β) (f : Function) :
    (f.uses inside view).map Prod.fst = f.tree.references := by
  cases f with
  | mk isAsync isGenerator name head params text gap items tail =>
    simp [Function.uses, Function.tree, references_bindingLeaves, patternsUses_names,
      itemsUses_names]

theorem itemsUses_names (inside : β) (view : String → β) (items : List Item) :
    (itemsUses inside view items).map Prod.fst = (itemTrees items).flatMap Tree.references := by
  cases items with
  | nil => rfl
  | cons item rest =>
    cases item with
    | mk lead text s => simp [itemsUses, itemTrees, s.uses_names, itemsUses_names]

theorem Class.uses_names (inside : β) (view : String → β) (c : Class) :
    (c.uses inside view).map Prod.fst = c.tree.references := by
  cases c with
  | mk decorators name heritage members =>
    simp [Class.uses, Class.tree, references_bindingLeaves, exprsUses_names, membersUses_names]

theorem Member.uses_names (inside : β) (view : String → β) (m : Member) :
    (m.uses inside view).map Prod.fst = m.tree.references := by
  cases m with
  | method decorators accessor isStatic key f =>
    simp [Member.uses, Member.tree, exprsUses_names, key.uses_names, f.uses_names]
  | field decorators isStatic isAccessor key value =>
    simp [Member.uses, Member.tree, exprsUses_names, key.uses_names]
  | staticBlock statements => simp [Member.uses, Member.tree, statementsUses_names]

theorem membersUses_names (inside : β) (view : String → β) (members : List Member) :
    (membersUses inside view members).map Prod.fst =
      (memberTrees members).flatMap Tree.references := by
  cases members with
  | nil => rfl
  | cons m rest => simp [membersUses, memberTrees, m.uses_names, membersUses_names]

theorem Statement.uses_names (inside : β) (view : String → β) (s : Statement) :
    (s.uses inside view).map Prod.fst = s.tree.references := by
  cases s with
  | expression value => simp [Statement.uses, Statement.tree, value.uses_names]
  | declare kind declarators => simp [Statement.uses, Statement.tree, patternsUses_names]
  | function f => simp [Statement.uses, Statement.tree, f.uses_names]
  | classOf c => simp [Statement.uses, Statement.tree, c.uses_names]
  | block statements => simp [Statement.uses, Statement.tree, statementsUses_names]
  | ifElse test yes no =>
    simp [Statement.uses, Statement.tree, test.uses_names, yes.uses_names,
      statementsUses_names]
  | loop init test update body =>
    simp [Statement.uses, Statement.tree, statementsUses_names, exprsUses_names,
      body.uses_names]
  | forIn kind head object body =>
    simp [Statement.uses, Statement.tree, patternsUses_names, object.uses_names,
      body.uses_names]
  | forOf isAwait kind head items body =>
    simp [Statement.uses, Statement.tree, patternsUses_names, items.uses_names,
      body.uses_names]
  | «while» test body => simp [Statement.uses, Statement.tree, test.uses_names, body.uses_names]
  | doWhile body test => simp [Statement.uses, Statement.tree, test.uses_names, body.uses_names]
  | «return» value => simp [Statement.uses, Statement.tree, exprsUses_names]
  | throw value => simp [Statement.uses, Statement.tree, value.uses_names]
  | «with» object body => simp [Statement.uses, Statement.tree, object.uses_names, body.uses_names]
  | switch value cases => simp [Statement.uses, Statement.tree, value.uses_names, casesUses_names]
  | labelled label body => simp [Statement.uses, Statement.tree, body.uses_names]
  | «try» body param handler finalizer =>
    simp [Statement.uses, Statement.tree, statementsUses_names, patternsUses_names]
  | exports declaration names =>
    simp [Statement.uses, Statement.tree, statementsUses_names, references_leaves,
      Function.comp_def]
  | _ => rfl

theorem statementsUses_names (inside : β) (view : String → β) (statements : List Statement) :
    (statementsUses inside view statements).map Prod.fst =
      (statementTrees statements).flatMap Tree.references := by
  cases statements with
  | nil => rfl
  | cons s rest => simp [statementsUses, statementTrees, s.uses_names, statementsUses_names]

theorem Case.uses_names (inside : β) (view : String → β) (c : Case) :
    (c.uses inside view).map Prod.fst = c.tree.references := by
  cases c with
  | branch test statements => simp [Case.uses, Case.tree, exprsUses_names, statementsUses_names]

theorem casesUses_names (inside : β) (view : String → β) (cases : List Case) :
    (casesUses inside view cases).map Prod.fst = (caseTrees cases).flatMap Tree.references := by
  cases cases with
  | nil => rfl
  | cons c rest => simp [casesUses, caseTrees, c.uses_names, casesUses_names]

end

/-! ## Another view -/

theorem within_map (inside : β) (names : List String) (view : String → β)
    (change : String → β → γ) {inside' : γ} (hi : ∀ name, change name inside = inside') :
    (fun name => change name (within inside names view name)) =
      within inside' names fun name => change name (view name) := by
  funext name
  unfold within
  split
  · exact hi name
  · rfl

section Views

variable {inside : β} {inside' : γ} {change : String → β → γ}

mutual

/-- What a name that is used in an expression stands for depends on the view as the name itself
does. -/
theorem Expr.uses_map (hi : ∀ name, change name inside = inside') (view : String → β) (e : Expr) :
    (e.uses inside view).map (fun use => (use.1, change use.1 use.2)) =
      e.uses inside' fun name => change name (view name) := by
  cases e with
  | name id => rfl
  | template texts values => exact exprsUses_map hi view values
  | tagged tag texts values =>
    simp only [Expr.uses, List.map_append, tag.uses_map hi, exprsUses_map hi]
  | array items comma => exact exprsUses_map hi view items
  | spread items => exact items.uses_map hi view
  | object properties comma => exact propertiesUses_map hi view properties
  | function f =>
    simp only [Expr.uses, f.uses_map hi, within_map inside _ _ _ hi]
  | arrow text f => exact f.uses_map hi view
  | classOf c => exact c.uses_map hi view
  | paren text inner => exact inner.uses_map hi view
  | member object property optional => exact object.uses_map hi view
  | index object key optional =>
    simp only [Expr.uses, List.map_append, object.uses_map hi, key.uses_map hi]
  | privateMember object property optional => exact object.uses_map hi view
  | call callee arguments optional =>
    simp only [Expr.uses, List.map_append, callee.uses_map hi, exprsUses_map hi]
  | new callee arguments =>
    simp only [Expr.uses, List.map_append, callee.uses_map hi, exprsUses_map hi]
  | chain inner => exact inner.uses_map hi view
  | importCall arguments => exact exprsUses_map hi view arguments
  | unary op operand => exact operand.uses_map hi view
  | update increment before target => exact target.uses_map hi view
  | binary op left right =>
    simp only [Expr.uses, List.map_append, left.uses_map hi, right.uses_map hi]
  | logical op left right =>
    simp only [Expr.uses, List.map_append, left.uses_map hi, right.uses_map hi]
  | privateIn property right => exact right.uses_map hi view
  | assign op target value =>
    simp only [Expr.uses, List.map_append, target.uses_map hi, value.uses_map hi]
  | conditional test yes no =>
    simp only [Expr.uses, List.map_append, test.uses_map hi, yes.uses_map hi, no.uses_map hi]
  | sequence items => exact exprsUses_map hi view items
  | await operand => exact operand.uses_map hi view
  | yield delegate operand => exact exprsUses_map hi view operand
  | _ => rfl

theorem exprsUses_map (hi : ∀ name, change name inside = inside') (view : String → β)
    (items : List Expr) :
    (exprsUses inside view items).map (fun use => (use.1, change use.1 use.2)) =
      exprsUses inside' (fun name => change name (view name)) items := by
  cases items with
  | nil => rfl
  | cons e rest => simp only [exprsUses, List.map_append, e.uses_map hi, exprsUses_map hi]

theorem Key.uses_map (hi : ∀ name, change name inside = inside') (view : String → β) (key : Key) :
    (key.uses inside view).map (fun use => (use.1, change use.1 use.2)) =
      key.uses inside' fun name => change name (view name) := by
  cases key with
  | computed value => exact value.uses_map hi view
  | _ => rfl

theorem Property.uses_map (hi : ∀ name, change name inside = inside') (view : String → β)
    (p : Property) :
    (p.uses inside view).map (fun use => (use.1, change use.1 use.2)) =
      p.uses inside' fun name => change name (view name) := by
  cases p with
  | field key value shorthand text =>
    simp only [Property.uses, List.map_append, key.uses_map hi, value.uses_map hi]
  | method key f text =>
    simp only [Property.uses, List.map_append, key.uses_map hi, f.uses_map hi]
  | accessor kind key f text =>
    simp only [Property.uses, List.map_append, key.uses_map hi, f.uses_map hi]
  | spread value => exact value.uses_map hi view
  | pending id value => simp only [Property.uses, List.map_cons, value.uses_map hi]

theorem propertiesUses_map (hi : ∀ name, change name inside = inside') (view : String → β)
    (properties : List Property) :
    (propertiesUses inside view properties).map (fun use => (use.1, change use.1 use.2)) =
      propertiesUses inside' (fun name => change name (view name)) properties := by
  cases properties with
  | nil => rfl
  | cons p rest => simp only [propertiesUses, List.map_append, p.uses_map hi, propertiesUses_map hi]

theorem Pattern.uses_map (hi : ∀ name, change name inside = inside') (view : String → β)
    (p : Pattern) :
    (p.uses inside view).map (fun use => (use.1, change use.1 use.2)) =
      p.uses inside' fun name => change name (view name) := by
  cases p with
  | place target => exact target.uses_map hi view
  | array items => exact patternsUses_map hi view items
  | object properties => exact patternsUses_map hi view properties
  | field key value shorthand =>
    simp only [Pattern.uses, List.map_append, key.uses_map hi, value.uses_map hi]
  | withValue pattern value =>
    simp only [Pattern.uses, List.map_append, pattern.uses_map hi, value.uses_map hi]
  | rest pattern => exact pattern.uses_map hi view
  | _ => rfl

theorem patternsUses_map (hi : ∀ name, change name inside = inside') (view : String → β)
    (patterns : List Pattern) :
    (patternsUses inside view patterns).map (fun use => (use.1, change use.1 use.2)) =
      patternsUses inside' (fun name => change name (view name)) patterns := by
  cases patterns with
  | nil => rfl
  | cons p rest => simp only [patternsUses, List.map_append, p.uses_map hi, patternsUses_map hi]

theorem Function.uses_map (hi : ∀ name, change name inside = inside') (view : String → β)
    (f : Function) :
    (f.uses inside view).map (fun use => (use.1, change use.1 use.2)) =
      f.uses inside' fun name => change name (view name) := by
  cases f with
  | mk isAsync isGenerator name head params text gap items tail =>
    simp only [Function.uses, List.map_append, patternsUses_map hi, itemsUses_map hi,
      within_map inside _ _ _ hi]

theorem itemsUses_map (hi : ∀ name, change name inside = inside') (view : String → β)
    (items : List Item) :
    (itemsUses inside view items).map (fun use => (use.1, change use.1 use.2)) =
      itemsUses inside' (fun name => change name (view name)) items := by
  cases items with
  | nil => rfl
  | cons item rest =>
    cases item with
    | mk lead text s => simp only [itemsUses, List.map_append, s.uses_map hi, itemsUses_map hi]

theorem Class.uses_map (hi : ∀ name, change name inside = inside') (view : String → β) (c : Class) :
    (c.uses inside view).map (fun use => (use.1, change use.1 use.2)) =
      c.uses inside' fun name => change name (view name) := by
  cases c with
  | mk decorators name heritage members =>
    simp only [Class.uses, List.map_append, exprsUses_map hi, membersUses_map hi,
      within_map inside _ _ _ hi]

theorem Member.uses_map (hi : ∀ name, change name inside = inside') (view : String → β)
    (m : Member) :
    (m.uses inside view).map (fun use => (use.1, change use.1 use.2)) =
      m.uses inside' fun name => change name (view name) := by
  cases m with
  | method decorators accessor isStatic key f =>
    simp only [Member.uses, List.map_append, exprsUses_map hi, key.uses_map hi, f.uses_map hi]
  | field decorators isStatic isAccessor key value =>
    simp only [Member.uses, List.map_append, exprsUses_map hi, key.uses_map hi]
  | staticBlock statements =>
    simp only [Member.uses, statementsUses_map hi, within_map inside _ _ _ hi]

theorem membersUses_map (hi : ∀ name, change name inside = inside') (view : String → β)
    (members : List Member) :
    (membersUses inside view members).map (fun use => (use.1, change use.1 use.2)) =
      membersUses inside' (fun name => change name (view name)) members := by
  cases members with
  | nil => rfl
  | cons m rest => simp only [membersUses, List.map_append, m.uses_map hi, membersUses_map hi]

theorem Statement.uses_map (hi : ∀ name, change name inside = inside') (view : String → β)
    (s : Statement) :
    (s.uses inside view).map (fun use => (use.1, change use.1 use.2)) =
      s.uses inside' fun name => change name (view name) := by
  cases s with
  | expression value => exact value.uses_map hi view
  | declare kind declarators => exact patternsUses_map hi view declarators
  | function f => exact f.uses_map hi view
  | classOf c => exact c.uses_map hi view
  | block statements =>
    simp only [Statement.uses, statementsUses_map hi, within_map inside _ _ _ hi]
  | ifElse test yes no =>
    simp only [Statement.uses, List.map_append, test.uses_map hi, yes.uses_map hi,
      statementsUses_map hi, within_map inside _ _ _ hi]
  | loop init test update body =>
    simp only [Statement.uses, List.map_append, statementsUses_map hi, exprsUses_map hi,
      body.uses_map hi, within_map inside _ _ _ hi]
  | forIn kind head object body =>
    simp only [Statement.uses, List.map_append, patternsUses_map hi, object.uses_map hi,
      body.uses_map hi, within_map inside _ _ _ hi]
  | forOf isAwait kind head items body =>
    simp only [Statement.uses, List.map_append, patternsUses_map hi, items.uses_map hi,
      body.uses_map hi, within_map inside _ _ _ hi]
  | «while» test body =>
    simp only [Statement.uses, List.map_append, test.uses_map hi, body.uses_map hi,
      within_map inside _ _ _ hi]
  | doWhile body test =>
    simp only [Statement.uses, List.map_append, test.uses_map hi, body.uses_map hi,
      within_map inside _ _ _ hi]
  | «return» value => exact exprsUses_map hi view value
  | throw value => exact value.uses_map hi view
  | «with» object body =>
    simp only [Statement.uses, List.map_append, object.uses_map hi, body.uses_map hi,
      within_map inside _ _ _ hi]
  | switch value cases =>
    simp only [Statement.uses, List.map_append, value.uses_map hi, casesUses_map hi,
      within_map inside _ _ _ hi]
  | labelled label body => exact body.uses_map hi view
  | «try» body param handler finalizer =>
    simp only [Statement.uses, List.map_append, statementsUses_map hi, patternsUses_map hi,
      within_map inside _ _ _ hi]
  | exports declaration names =>
    simp only [Statement.uses, List.map_append, List.map_map, Function.comp_def,
      statementsUses_map hi]
  | _ => rfl

theorem statementsUses_map (hi : ∀ name, change name inside = inside') (view : String → β)
    (statements : List Statement) :
    (statementsUses inside view statements).map (fun use => (use.1, change use.1 use.2)) =
      statementsUses inside' (fun name => change name (view name)) statements := by
  cases statements with
  | nil => rfl
  | cons s rest => simp only [statementsUses, List.map_append, s.uses_map hi, statementsUses_map hi]

theorem Case.uses_map (hi : ∀ name, change name inside = inside') (view : String → β) (c : Case) :
    (c.uses inside view).map (fun use => (use.1, change use.1 use.2)) =
      c.uses inside' fun name => change name (view name) := by
  cases c with
  | branch test statements =>
    simp only [Case.uses, List.map_append, exprsUses_map hi, statementsUses_map hi]

theorem casesUses_map (hi : ∀ name, change name inside = inside') (view : String → β)
    (cases : List Case) :
    (casesUses inside view cases).map (fun use => (use.1, change use.1 use.2)) =
      casesUses inside' (fun name => change name (view name)) cases := by
  cases cases with
  | nil => rfl
  | cons c rest => simp only [casesUses, List.map_append, c.uses_map hi, casesUses_map hi]

end

end Views

end Collector.Script
