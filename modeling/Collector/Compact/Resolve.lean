import Collector.Compact.Node

/-!
# Resolving names

The compact tree of a function. Every declaration of a name becomes a variable with a number of
its own, and a use of the name becomes a use of the variable whose declaration it sees. Along the
way a loop with a condition becomes a counted loop, which means the same.
-/

namespace Collector.Compact

open Script

/-- The variables that are seen, inner ones first. -/
abbrev Scope := List (String × Nat)

/-- A step that may number new variables. It keeps the names that variables were declared by. -/
abbrev Numbering := StateM (Array String)

/-! ## Declared names -/

mutual

/-- The names that a pattern declares. -/
def patternNames : Pattern → List String
  | .bind id => [id]
  | .array items => patternsNames items
  | .object properties => patternsNames properties
  | .field _ value _ => patternNames value
  | .withValue pattern _ => patternNames pattern
  | .rest pattern => patternNames pattern
  | .place _ | .hole => []

/-- The names that patterns declare. -/
def patternsNames : List Pattern → List String
  | [] => []
  | p :: rest => patternNames p ++ patternsNames rest

end

/-- The names that a declaration adds to the function around it. -/
def varNames (kind : Option DeclarationKind) (patterns : List Pattern) : List String :=
  if kind == some .var then patternsNames patterns else []

/-- The names that a declaration adds to the block around it. -/
def blockNames (kind : Option DeclarationKind) (patterns : List Pattern) : List String :=
  match kind with
  | none | some .var => []
  | some _ => patternsNames patterns

mutual

/-- The names that a statement adds to the function around it, wherever it stands. -/
def functionNames : Statement → List String
  | .declare kind declarators => varNames (some kind) declarators
  | .block statements => functionNamesOf statements
  | .ifElse _ yes no => functionNames yes ++ functionNamesOf no
  | .loop init _ _ body => functionNamesOf init ++ functionNames body
  | .forIn kind head _ body => varNames kind head ++ functionNames body
  | .forOf _ kind head _ body => varNames kind head ++ functionNames body
  | .while _ body => functionNames body
  | .doWhile body _ => functionNames body
  | .with _ body => functionNames body
  | .switch _ cases => functionNamesOfCases cases
  | .labelled _ body => functionNames body
  | .try body _ handler finalizer =>
    functionNamesOf body ++ functionNamesOf handler ++ functionNamesOf finalizer
  | .exports declaration _ => functionNamesOf declaration
  | _ => []

/-- The names that statements add to the function around them. -/
def functionNamesOf : List Statement → List String
  | [] => []
  | s :: rest => functionNames s ++ functionNamesOf rest

/-- The names that the branches of a switch add to the function around them. -/
def functionNamesOfCases : List Case → List String
  | [] => []
  | .branch _ statements :: rest => functionNamesOf statements ++ functionNamesOfCases rest

end

/-- The names that a statement adds to the block that it stands in. -/
def scopeNames : Statement → List String
  | .declare kind declarators => blockNames (some kind) declarators
  | .function f => f.name.toList
  | .classOf c => c.name.toList
  | .exports declaration _ => declaration.flatMap fun s => match s with
    | .function f => f.name.toList
    | .classOf c => c.name.toList
    | .declare kind declarators => blockNames (some kind) declarators
    | _ => []
  | _ => []

/-- The statements of the branches of a switch. -/
def caseStatements (cases : List Case) : List Statement :=
  cases.flatMap fun c => match c with
    | .branch _ statements => statements

/-! ## Numbering -/

/-- A new variable for a name. -/
def fresh (name : String) : Numbering Nat := fun names => (names.size, names.push name)

/-- Declares names: each is seen as a new variable. -/
def declareNames (scope : Scope) (names : List String) : Numbering Scope :=
  names.eraseDups.foldlM (fun scope name => do
    let id ← fresh name
    return (name, id) :: scope) scope

/-- A name that is used for its value. -/
def useOf (scope : Scope) (name : String) : Node :=
  match scope.lookup name with
  | some id => .leaf (.read id)
  | none =>
    if name == "undefined" then .undefined
    else if name == "NaN" then .leaf (.number .notANumber)
    else if name == "Infinity" then .leaf (.number (.infinite false))
    else .leaf (.outer name)

/-- A name that is assigned to. -/
def targetOf (scope : Scope) (name : String) : Node :=
  match scope.lookup name with
  | some id => .leaf (.store id)
  | none => .leaf (.outer name)

/-- A name that is declared. -/
def bindingOf (scope : Scope) (name : String) : Node :=
  match scope.lookup name with
  | some id => .leaf (.bind id)
  | none => .leaf (.outer name)

/-- A name that is declared, or nothing. -/
def optionalBinding (scope : Scope) (name : Option String) : Node :=
  match name with
  | some name => bindingOf scope name
  | none => .missing

/-! ## Trees -/

/-- The first of several nodes, or nothing. -/
def orMissing (nodes : List Node) : Node := nodes.head?.getD .missing

/-- The text of a directive without its quotes. -/
def directiveText (quoted : String) : String :=
  String.ofList ((quoted.toList.drop 1).dropLast)

/-- The tree of a function whose body is a value. The value is answered. -/
def answering (tree : Node) : Node :=
  match tree with
  | .node kind [name, params, .node .body [.node .expression [value]]] =>
    .node kind [name, params, .node .body [.answer value]]
  | tree => tree

/-- The head of a loop, given its patterns as declared ones: a declaration, or the only pattern. -/
def headOf (kind : Option DeclarationKind) (declarators : List Node) : Node :=
  match kind, declarators with
  | some kind, _ => .node (.declare kind) declarators
  | none, .node _ [pattern, _] :: _ => pattern
  | none, _ => .missing

mutual

/-- The tree of an expression. -/
def resolve (scope : Scope) : Expr → Numbering Node
  | .name id => pure (useOf scope id)
  | .this => pure (.leaf .this)
  | .super => pure (.leaf .super)
  | .null => pure (.leaf .null)
  | .bool value => pure (.leaf (.bool value))
  | .number value => pure (.leaf (.number value))
  | .bigint digits => pure (.leaf (.bigint digits))
  | .string value => pure (.leaf (.string value))
  | .regex body flags => pure (.leaf (.regex body flags))
  | .template texts values => do return .node (.template texts) (← resolveAll scope values)
  | .tagged tag texts values => do
    let tag ← resolve scope tag
    return .node (.tagged texts) (tag :: (← resolveAll scope values))
  | .array items _ => do return .node .array (← resolveAll scope items)
  | .hole => pure (.leaf .hole)
  | .spread items => do return .node .spread [← resolve scope items]
  | .object properties _ => do return .node .object (← resolveProperties scope properties)
  | .function f => do
    let inner ← declareNames scope f.name.toList
    resolveFunction inner false (optionalBinding inner f.name) f
  | .arrow valueText f => do
    let tree ← resolveFunction scope true .missing f
    return if valueText.isSome then answering tree else tree
  | .classOf c => do
    let inner ← declareNames scope c.name.toList
    resolveClass inner (optionalBinding inner c.name) c
  | .paren _ inner => resolve scope inner
  | .member object property optional => do
    return .node (.member property optional) [← resolve scope object]
  | .index object key optional => do
    return .node (.index optional) [← resolve scope object, ← resolve scope key]
  | .privateMember object property optional => do
    return .node (.privateMember property optional) [← resolve scope object]
  | .call callee arguments optional => do
    let callee ← resolve scope callee
    return .node (.call optional) (callee :: (← resolveAll scope arguments))
  | .new callee arguments => do
    let callee ← resolve scope callee
    return .node .new (callee :: (← resolveAll scope arguments))
  | .chain inner => do return .node .chain [← resolve scope inner]
  | .importCall arguments => do return .node .importCall (← resolveAll scope arguments)
  | .metaProperty object property => pure (.leaf (.metaProperty object property))
  | .unary op operand => do return .node (.unary op) [← resolve scope operand]
  | .update increment before target => do
    return .node (.update increment before) [← resolveTarget scope target]
  | .binary op left right => do
    return .node (.binary op) [← resolve scope left, ← resolve scope right]
  | .logical op left right => do
    return .node (.logical op) [← resolve scope left, ← resolve scope right]
  | .privateIn property right => do return .node (.privateIn property) [← resolve scope right]
  | .assign op target value => do
    return .node (.assign op) [← resolvePattern scope target, ← resolve scope value]
  | .conditional test yes no => do
    return .node .conditional [← resolve scope test, ← resolve scope yes, ← resolve scope no]
  | .sequence items => do return .node .sequence (← resolveAll scope items)
  | .await operand => do return .node .await [← resolve scope operand]
  | .yield delegate operand => do
    return .node (.yield delegate) [orMissing (← resolveAll scope operand)]

/-- The tree of an expression that is assigned to. -/
def resolveTarget (scope : Scope) : Expr → Numbering Node
  | .name id => pure (targetOf scope id)
  | .paren _ inner => resolveTarget scope inner
  | .member object property optional => do
    return .node (.member property optional) [← resolve scope object]
  | .index object key optional => do
    return .node (.index optional) [← resolve scope object, ← resolve scope key]
  | .privateMember object property optional => do
    return .node (.privateMember property optional) [← resolve scope object]
  | _ => pure .missing

/-- The trees of expressions. -/
def resolveAll (scope : Scope) : List Expr → Numbering (List Node)
  | [] => pure []
  | e :: rest => do
    let node ← resolve scope e
    return node :: (← resolveAll scope rest)

/-- The tree of a key. -/
def resolveKey (scope : Scope) : Key → Numbering Node
  | .name id => pure (.leaf (.keyName id))
  | .string value => pure (.leaf (.keyString value))
  | .number value => pure (.leaf (.keyNumber value))
  | .bigint digits => pure (.leaf (.keyBigint digits))
  | .privateName id => pure (.leaf (.keyPrivate id))
  | .computed value => do return .node .computed [← resolve scope value]

/-- The trees of properties. -/
def resolveProperties (scope : Scope) : List Property → Numbering (List Node)
  | [] => pure []
  | .field key value _ _ :: rest => do
    let key ← resolveKey scope key
    let value ← resolve scope value
    return .node .field [key, value] :: (← resolveProperties scope rest)
  | .method key f _ :: rest => do
    let key ← resolveKey scope key
    let f ← resolveFunction scope false .missing f
    return .node (.method false) [key, f] :: (← resolveProperties scope rest)
  | .accessor kind key f _ :: rest => do
    let key ← resolveKey scope key
    let f ← resolveFunction scope false .missing f
    return .node (.accessor kind false) [key, f] :: (← resolveProperties scope rest)
  | .spread value :: rest => do
    let value ← resolve scope value
    return .node .spread [value] :: (← resolveProperties scope rest)
  | .pending _ _ :: rest => resolveProperties scope rest

/-- The tree of a pattern. -/
def resolvePattern (scope : Scope) : Pattern → Numbering Node
  | .bind id => pure (bindingOf scope id)
  | .place target => resolveTarget scope target
  | .array items => do return .node .arrayPattern (← resolvePatterns scope items)
  | .object properties => do return .node .objectPattern (← resolvePatterns scope properties)
  | .field key value _ => do
    return .node .patternField [← resolveKey scope key, ← resolvePattern scope value]
  | .withValue pattern value => do
    return .node .withDefault [← resolvePattern scope pattern, ← resolve scope value]
  | .hole => pure (.leaf .hole)
  | .rest pattern => do return .node .rest [← resolvePattern scope pattern]

/-- The trees of patterns. -/
def resolvePatterns (scope : Scope) : List Pattern → Numbering (List Node)
  | [] => pure []
  | p :: rest => do
    let node ← resolvePattern scope p
    return node :: (← resolvePatterns scope rest)

/-- The tree of a function whose name is resolved already. -/
def resolveFunction (scope : Scope) (isArrow : Bool) (name : Node) : Function → Numbering Node
  | ⟨isAsync, isGenerator, _, _, params, _, _, items, _⟩ => do
    let statements := items.map Item.statement
    let inner ← declareNames scope
      (patternsNames params ++ functionNamesOf statements ++ statements.flatMap scopeNames)
    let params ← resolvePatterns inner params
    let statements ← resolveItems inner items
    return .node (.function ⟨isAsync, isGenerator, isArrow⟩)
      [name, .node .params params, .node .body statements]

/-- The trees of the statements of a body. -/
def resolveItems (scope : Scope) : List Item → Numbering (List Node)
  | [] => pure []
  | ⟨_, _, s⟩ :: rest => do
    let node ← resolveStatement scope s
    return node :: (← resolveItems scope rest)

/-- The tree of a class whose name is resolved already. -/
def resolveClass (scope : Scope) (name : Node) : Script.Class → Numbering Node
  | ⟨_, _, heritage, members⟩ => do
    let heritage ← resolveAll scope heritage
    let members ← resolveMembers scope members
    return .node .classOf (name :: orMissing heritage :: members)

/-- The trees of the members of a class. -/
def resolveMembers (scope : Scope) : List Member → Numbering (List Node)
  | [] => pure []
  | .method _ accessor isStatic key f :: rest => do
    let key ← resolveKey scope key
    let f ← resolveFunction scope false .missing f
    let kind : Kind := match accessor with
      | some accessor => .accessor accessor isStatic
      | none => .method isStatic
    return .node kind [key, f] :: (← resolveMembers scope rest)
  | .field _ isStatic isAccessor key value :: rest => do
    let key ← resolveKey scope key
    let value ← resolveAll scope value
    return .node (.classField isStatic isAccessor) [key, orMissing value] ::
      (← resolveMembers scope rest)
  | .staticBlock statements :: rest => do
    let inner ← declareNames scope (functionNamesOf statements ++ statements.flatMap scopeNames)
    let statements ← resolveStatements inner statements
    return .node .staticBlock statements :: (← resolveMembers scope rest)

/-- The tree of a statement. -/
def resolveStatement (scope : Scope) : Statement → Numbering Node
  | .directive text => pure (.leaf (.directive (directiveText text)))
  | .expression value => do return .node .expression [← resolve scope value]
  | .declare kind declarators => do
    return .node (.declare kind) (← resolveDeclarators scope declarators)
  | .function f => do
    return .node .functionDeclaration
      [← resolveFunction scope false (optionalBinding scope f.name) f]
  | .classOf c => do
    return .node .classDeclaration [← resolveClass scope (optionalBinding scope c.name) c]
  | .block statements => do
    let inner ← declareNames scope (statements.flatMap scopeNames)
    return .node .block (← resolveStatements inner statements)
  | .empty => pure (.leaf .empty)
  | .debugger => pure (.leaf .empty)
  | .ifElse test yes no => do
    let test ← resolve scope test
    let yes ← resolveStatement scope yes
    let no ← resolveStatements scope no
    return .node .branch [test, yes, orMissing no]
  | .loop init test update body => do
    let inner ← declareNames scope (init.flatMap scopeNames)
    let init ← resolveStatements inner init
    let test ← resolveAll inner test
    let update ← resolveAll inner update
    let body ← resolveStatement inner body
    let init := match init with
      | [.node .expression [value]] => value
      | init => orMissing init
    return .node .loop [init, orMissing test, orMissing update, body]
  | .forIn kind head object body => do
    let inner ← declareNames scope (blockNames kind head)
    let object ← resolve scope object
    let head := headOf kind (← resolveDeclarators inner head)
    return .node .forIn [head, object, ← resolveStatement inner body]
  | .forOf isAwait kind head items body => do
    let inner ← declareNames scope (blockNames kind head)
    let items ← resolve scope items
    let head := headOf kind (← resolveDeclarators inner head)
    return .node (.forOf isAwait) [head, items, ← resolveStatement inner body]
  | .while test body => do
    let test ← resolve scope test
    return .node .loop [.missing, test, .missing, ← resolveStatement scope body]
  | .doWhile body test => do
    let body ← resolveStatement scope body
    return .node .doWhile [body, ← resolve scope test]
  | .continue label => pure (.leaf (.continue label))
  | .break label => pure (.leaf (.break label))
  | .return value => do return .node .return [orMissing (← resolveAll scope value)]
  | .throw value => do return .node .throw [← resolve scope value]
  | .with object body => do
    let object ← resolve scope object
    return .node .with [object, ← resolveStatement scope body]
  | .switch value cases => do
    let value ← resolve scope value
    let inner ← declareNames scope ((caseStatements cases).flatMap scopeNames)
    return .node .switch (value :: (← resolveCases inner cases))
  | .labelled label body => do
    return .node (.labelled label) [← resolveStatement scope body]
  | .try body param handler finalizer => do
    let within ← declareNames scope (body.flatMap scopeNames)
    let body ← resolveStatements within body
    let inner ← declareNames scope (patternsNames param)
    let param ← resolvePatterns inner param
    let handler ← resolveStatements inner handler
    let finalizer ← resolveStatements scope finalizer
    return .node .try [.node .block body, orMissing param, orMissing handler, orMissing finalizer]
  | .imports => pure (.leaf .empty)
  | .exports declaration _ => do
    let declaration ← resolveStatements scope declaration
    return declaration.head?.getD (.leaf .empty)

/-- The trees of declared patterns with their values. -/
def resolveDeclarators (scope : Scope) : List Pattern → Numbering (List Node)
  | [] => pure []
  | .withValue pattern value :: rest => do
    let pattern ← resolvePattern scope pattern
    let value ← resolve scope value
    return .node .declarator [pattern, value] :: (← resolveDeclarators scope rest)
  | pattern :: rest => do
    let pattern ← resolvePattern scope pattern
    return .node .declarator [pattern, .missing] :: (← resolveDeclarators scope rest)

/-- The trees of statements. -/
def resolveStatements (scope : Scope) : List Statement → Numbering (List Node)
  | [] => pure []
  | s :: rest => do
    let node ← resolveStatement scope s
    return node :: (← resolveStatements scope rest)

/-- The trees of the branches of a switch. -/
def resolveCases (scope : Scope) : List Case → Numbering (List Node)
  | [] => pure []
  | .branch test statements :: rest => do
    let test ← resolveAll scope test
    let statements ← resolveStatements scope statements
    return .node .case (orMissing test :: statements) :: (← resolveCases scope rest)

end

/-- The compact tree of a function on its own, with the names of its variables. The name of the
function itself is an outer one. -/
def ofFunction (f : Function) : Node × Array String :=
  (resolveFunction [] false (optionalBinding [] f.name) f).run #[]

end Collector.Compact
