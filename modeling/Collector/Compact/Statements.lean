import Collector.Compact.Inline
import Collector.Compact.Unused

/-!
# Statements

Shorter forms of statements and of lists of statements. Expressions that stand one behind another
become one expression, choices between statements become choices between values, and what is
never run is dropped.
-/

namespace Collector.Compact

open Script Node

/-! ## Dropped statements -/

mutual

/-- The variables that a statement declares for the function around it. -/
def hoisted : Node → List Nat
  | .node kind parts =>
    match kind with
    | .function _ | .classOf => []
    | .declare .var => boundIn parts
    | _ => hoistedIn parts

/-- The variables that statements declare for the function around them. -/
def hoistedIn : List Node → List Nat
  | [] => []
  | n :: rest => hoisted n ++ hoistedIn rest

/-- The variables that a declarator declares. -/
def bound : Node → List Nat
  | .node kind parts =>
    match kind with
    | .bind id => [id]
    | .function _ | .classOf => []
    | _ => boundIn parts

/-- The variables that declarators declare. -/
def boundIn : List Node → List Nat
  | [] => []
  | n :: rest => bound n ++ boundIn rest

end

/-- What stays of statements that are never run: the declarations of variables for the function
around them. -/
def remains (dropped : List Node) : List Node :=
  match (hoistedIn dropped).eraseDups with
  | [] => []
  | ids => [.node (.declare .var) (ids.map fun id =>
      .node .declarator [.leaf (.bind id), .missing])]

/-- Whether a statement leaves the statements around it. -/
def isJump (n : Node) : Bool :=
  match n.kind with
  | .return | .throw | .break _ | .continue _ => true
  | _ => false

/-- Whether a statement declares a function. -/
def isFunctionDeclaration (n : Node) : Bool := n.kind == .functionDeclaration

/-- Statements without those that stand behind a jump. Functions are declared all the same. -/
def reachable : List Node → List Node
  | [] => []
  | s :: rest =>
    if isJump s then
      s :: rest.filter isFunctionDeclaration ++
        remains (rest.filter fun s => !isFunctionDeclaration s)
    else s :: reachable rest

/-! ## Blocks -/

/-- Whether a statement declares something for the block that it stands in. -/
def declaresInBlock (n : Node) : Bool :=
  match n.kind with
  | .declare .var => false
  | .declare _ | .functionDeclaration | .classDeclaration => true
  | _ => false

/-- A declaration as one declaration for each declarator that is needed. What stands there for a
variable that nobody uses is only run. -/
def splitDeclaration (uses : Uses) (kind : DeclarationKind) (declarators : List Node) :
    List Node :=
  declarators.map fun declarator =>
    match declarator with
    | .node .declarator [.node (.bind id) bound, value] =>
      if uses.isUnused id then
        if value.isPresent then effectStatement uses value else .leaf .empty
      else .node (.declare kind) [.node .declarator [.node (.bind id) bound, value]]
    | declarator => .node (.declare kind) [declarator]

/-- The statements of a block that declares nothing for itself. -/
def opened (s : Node) : List Node :=
  match s with
  | .node .block statements => if statements.any declaresInBlock then [s] else statements
  | s => [s]

/-- The statements that a statement in a list stands for. Behind a jump the other case needs no
word. -/
def spreadOut (uses : Uses) (s : Node) : List Node :=
  match s with
  | .node (.declare kind) declarators => splitDeclaration uses kind declarators
  | .node .branch [test, yes, no] =>
    if isJump yes && no.isPresent then .node .branch [test, yes, .missing] :: opened no else [s]
  | s => opened s

/-- Statements with blocks opened and without those that do nothing. -/
def flatten (uses : Uses) (statements : List Node) : List Node :=
  (statements.flatMap (spreadOut uses)).filter fun s => s.kind != .empty

/-- A statement without the braces that it does not need. -/
def unwrapped (s : Node) : Node :=
  match s with
  | .node .block [] => .leaf .empty
  | .node .block [only] => if declaresInBlock only then s else only
  | s => s

/-! ## Joining -/

/-- A statement that begins with an expression that stood before it. -/
def beginWith? (first : Node) (s : Node) : Option Node :=
  match s with
  | .node .expression [value] => some (.node .expression [first.andThen value])
  | .node .return [value] =>
    if value.isPresent then some (.node .return [first.andThen value]) else none
  | .node .throw [value] => some (.node .throw [first.andThen value])
  | .node .branch (test :: rest) => some (.node .branch (first.andThen test :: rest))
  | .node .switch (value :: cases) => some (.node .switch (first.andThen value :: cases))
  | .node .loop (init :: rest) =>
    match init.kind with
    | .declare _ => none
    | .missing => some (.node .loop (first :: rest))
    | _ => some (.node .loop (first.andThen init :: rest))
  | .node .forIn [head, object, body] => some (.node .forIn [head, first.andThen object, body])
  | _ => none

/-- A loop that begins with declarators that stood before it. -/
def declareWith? (declarators : List Node) (s : Node) : Option Node :=
  match s with
  | .node .loop (.node .missing _ :: rest) =>
    some (.node .loop (.node (.declare .var) declarators :: rest))
  | .node .loop (.node (.declare .var) others :: rest) =>
    some (.node .loop (.node (.declare .var) (declarators ++ others) :: rest))
  | _ => none

/-- Two statements as one. -/
def joined? (a b : Node) : Option Node :=
  match a, b with
  | .node .expression [first], b => beginWith? first b
  | .node (.declare kind) declarators, .node (.declare kind') others =>
    if kind == kind' then some (.node (.declare kind) (declarators ++ others)) else none
  | .node (.declare .var) declarators, b => declareWith? declarators b
  | _, _ => none

/-- One more statement behind statements of which the last one stands first. -/
def push (uses : Uses) (before : List Node) (s : Node) : List Node :=
  let (before, s) := moveInto uses before s
  match before with
  | last :: rest => ((joined? last s).map (· :: rest)).getD (s :: before)
  | [] => [s]

/-! ## Endings -/

/-- Where a list of statements stands. -/
inductive Place where
  | function
  | loop
  | elsewhere
  deriving DecidableEq

/-- Whether a statement at the end of a list does nothing. -/
def isIdleEnd (place : Place) (s : Node) : Bool :=
  match place, s with
  | .function, .node .return [value] => !value.isPresent
  | .loop, .node (.continue none) _ => true
  | _, _ => false

/-- The value that is answered without one. -/
def orUndefined (n : Node) : Node := if n.isPresent then n else undefined

/-- The last statement with the statements before it that answer or throw as well as it does. The
last statement stands first. -/
def mergeEnds : List Node → List Node
  | .node .return [value] :: .node .branch [test, yes, no] :: rest =>
    match yes, no.isPresent with
    | .node .return [other], false =>
      mergeEnds (answer (conditional test (orUndefined other) (orUndefined value)) :: rest)
    | _, _ => .node .return [value] :: .node .branch [test, yes, no] :: rest
  | .node .throw [value] :: .node .branch [test, yes, no] :: rest =>
    match yes, no.isPresent with
    | .node .throw [other], false =>
      mergeEnds (.node .throw [conditional test other value] :: rest)
    | _, _ => .node .throw [value] :: .node .branch [test, yes, no] :: rest
  | .node .return [value] :: .node .expression [first] :: rest =>
    if value.isPresent then mergeEnds (answer (first.andThen value) :: rest)
    else .node .return [value] :: .node .expression [first] :: rest
  | .node .throw [value] :: .node .expression [first] :: rest =>
    mergeEnds (.node .throw [first.andThen value] :: rest)
  | statements => statements
termination_by statements => statements.length

/-- A list of statements, the last one first, with its end made shorter. -/
def finish (place : Place) (before : List Node) : List Node :=
  match before with
  | last :: rest => (if isIdleEnd place last then rest else mergeEnds before).reverse
  | [] => []

/-! ## Lists -/

/-- Makes a list of statements shorter, given the statements before, the last one first. Instead of
a jump to the end, what is behind it becomes conditional. -/
def joinAll (uses : Uses) (place : Place) (before : List Node) : List Node → List Node
  | [] => finish place before
  | s :: rest =>
    match s with
    | .node .branch [test, yes, no] =>
      if isIdleEnd place yes && !no.isPresent && !rest.any declaresInBlock then
        finish place (push uses before
          (.node .branch [test.not, .node .block (joinAll uses place [] rest), .missing]))
      else joinAll uses place (push uses before s) rest
    | s => joinAll uses place (push uses before s) rest

/-- The shortest form of a list of statements. -/
def foldStatements (uses : Uses) (place : Place) (statements : List Node) : List Node :=
  joinAll uses place [] (reachable (flatten uses statements))

end Collector.Compact
