import Collector.Compact.Fold
import Collector.Compact.Statements

/-!
# Reducing functions

Makes the tree of a function as small as it gets: all nodes are replaced by shorter forms, from the
inside to the outside, again and again until nothing changes.
-/

namespace Collector.Compact

open Script Node

/-! ## Branches -/

/-- A statement without its negation: what it does if the test holds, and otherwise. -/
def affirmative (test yes no : Node) : Node × Node × Node :=
  match test with
  | .node (.unary .not) [test] => (test, no, yes)
  | test => (test, yes, no)

/-- A choice between two statements of which one is known to be run. -/
def decided (uses : Uses) (test kept dropped : Node) : Node :=
  .node .block (effectStatement uses test :: kept :: remains [dropped])

/-- The expression that a statement is, if it is one. -/
def expression? (n : Node) : Option Node :=
  match n with
  | .node .expression [value] => some value
  | _ => none

/-- Nothing in place of a statement that does nothing. -/
def dropEmpty (s : Node) : Node := if s.kind == .empty then .missing else s

/-- A choice between two statements. -/
def foldBranch (uses : Uses) (test yes no : Node) : Node :=
  let test := inTest test
  let yes := unwrapped yes
  let no := dropEmpty (unwrapped no)
  match truth? test with
  | some true => decided uses test yes no
  | some false => decided uses test (if no.isPresent then no else .leaf .empty) yes
  | none =>
    let (inner, whenTrue, whenFalse) := affirmative test yes no
    let op : LogicalOp × LogicalOp := if inner.same test then (.and, .or) else (.or, .and)
    match yes.kind, expression? yes, no.isPresent, expression? no with
    | .empty, _, false, _ => effectStatement uses test
    | .empty, _, true, some value => effectStatement uses (join op.2 inner value)
    | .empty, _, true, none =>
      if inner.same test then .node .branch [negate test, no, .missing]
      else .node .branch [inner, no, .missing]
    | _, some value, false, _ => effectStatement uses (join op.1 inner value)
    | _, some value, true, some other => effectStatement uses (conditional test value other)
    | _, _, true, _ => .node .branch [inner, whenTrue, whenFalse]
    | _, none, false, _ =>
      match yes with
      | .node .branch [also, yes, .node .missing _] =>
        .node .branch [join .and test also, yes, .missing]
      | yes => .node .branch [test, yes, .missing]

/-! ## Loops -/

/-- A statement that is run again and again, without what it does at its end anyway. -/
def foldLoopBody (uses : Uses) (body : Node) : Node :=
  match body with
  | .node .block statements => unwrapped (.node .block (foldStatements uses .loop statements))
  | s => if isIdleEnd .loop s then .leaf .empty else s

/-- Two tests that both have to hold. Without the first one, the second one decides. -/
def bothTests (a b : Node) : Node := if a.isPresent then join .and a b else b

/-- The statements of a body. -/
def statementsOf (body : Node) : List Node :=
  match body with
  | .node .block statements => statements
  | .node .empty _ => []
  | s => [s]

/-- Whether a statement leaves the loop around it. -/
def isBreak (s : Node) : Bool := s.kind == .break none

/-- A loop whose body begins with the test whether it ends. -/
def absorbBreak (init test update body : Node) : Node :=
  let plain : Node := .node .loop [init, test, update, body]
  match statementsOf body with
  | .node .branch [leave, yes, no] :: rest =>
    if rest.any declaresInBlock then plain
    else if isBreak yes then
      let body := unwrapped (.node .block ((if no.isPresent then [no] else []) ++ rest))
      .node .loop [init, bothTests test (negate leave), update, body]
    else if isBreak no then
      .node .loop [init, bothTests test leave, update, unwrapped (.node .block (yes :: rest))]
    else plain
  | _ => plain

/-- A counted loop. One whose test never holds is not run. -/
def foldLoop (uses : Uses) (init test update body : Node) : Node :=
  let init := match init.kind with
    | .declare _ => init
    | _ => effectPart uses init
  let test := inTest test
  let update := effectPart uses update
  let body := foldLoopBody uses body
  match quietTruth? test with
  | some true => absorbBreak init .missing update body
  | some false =>
    match init.kind with
    | .declare _ => .node .block (init :: remains [body])
    | .missing => .node .block (remains [body])
    | _ => .node .block (statement init :: remains [body])
  | none => absorbBreak init test update body

/-! ## Other statements -/

/-- A statement with handlers. Without statements that could fail nothing is handled. -/
def foldTry (uses : Uses) (body param handler finalizer : Node) : Node :=
  let finalizer := match finalizer with
    | .node .block [] => if handler.isPresent then .missing else finalizer
    | finalizer => finalizer
  let param := match param with
    | .node (.bind id) _ => if uses.isUnused id then .missing else param
    | param => param
  match body with
  | .node .block [] =>
    .node .block ((if finalizer.isPresent then [finalizer] else []) ++ remains [handler])
  | body => .node .try [body, param, handler, finalizer]

/-- The shortest form of a statement. -/
def foldStatement (uses : Uses) (n : Node) : Node :=
  match n with
  | .node .body statements => .node .body (foldStatements uses .function statements)
  | .node .block statements => .node .block (foldStatements uses .elsewhere statements)
  | .node .staticBlock statements => .node .staticBlock (foldStatements uses .elsewhere statements)
  | .node .case (test :: statements) =>
    .node .case (test :: foldStatements uses .elsewhere statements)
  | .node .expression [value] => effectStatement uses value
  | .node .branch [test, yes, no] => foldBranch uses test yes no
  | .node .loop [init, test, update, body] => foldLoop uses init test update body
  | .node .forIn [head, object, body] => .node .forIn [head, object, foldLoopBody uses body]
  | .node (.forOf isAwait) [head, items, body] =>
    .node (.forOf isAwait) [head, items, foldLoopBody uses body]
  | .node .doWhile [body, test] => .node .doWhile [foldLoopBody uses body, inTest test]
  | .node .with [object, body] => .node .with [object, unwrapped body]
  | .node (.labelled label) [body] =>
    let body := unwrapped body
    if body.kind == .empty then body else .node (.labelled label) [body]
  | .node .switch [value] => effectStatement uses value
  | .node .return [value] =>
    if value.kind == .undefined then .node .return [.missing] else .node .return [value]
  | .node .try [body, param, handler, finalizer] => foldTry uses body param handler finalizer
  | n => n

/-! ## Declarations -/

/-- A function or class without a name that nobody uses. -/
def dropName (uses : Uses) (n : Node) : Node :=
  match n with
  | .node kind (.node (.bind id) _ :: rest) =>
    if uses.isUnused id then .node kind (.missing :: rest) else n
  | n => n

/-- The shortest form of a declaration, a function or a class. Nothing but its values makes a
declaration a constant one. -/
def foldDeclaration (uses : Uses) (n : Node) : Node :=
  match n with
  | .node (.declare .const) declarators =>
    if (boundIn declarators).all fun id => uses.storeCount id == 0 then
      .node (.declare .letting) declarators
    else n
  | .node (.function _) _ | .node .classOf _ => dropName uses n
  | .node .functionDeclaration [.node _ (.node .missing _ :: _)] => .leaf .empty
  | .node .classDeclaration [.node kind (.node .missing bare :: rest)] =>
    effectStatement uses (.node kind (.node .missing bare :: rest))
  | n => n

/-! ## Reducing -/

/-- A variable that can be replaced by a constant, or a sequence with unused values. -/
def foldUse (uses : Uses) (constants : List (Nat × Node)) (n : Node) : Node :=
  match n with
  | .node (.read id) _ => (constants.lookup id).getD n
  | .node .sequence items => foldSequence uses items
  | n => n

/-- One round over all nodes. -/
def reduceOnce (count : Nat) (n : Node) : Node :=
  let uses := Uses.of count n
  let constants := constantsOf uses n
  n.rewrite fun n => foldDeclaration uses (foldStatement uses (foldExpression (foldUse uses constants n)))

/-- Rounds until nothing changes. -/
def reduceRounds (count : Nat) : Nat → Node → Node
  | 0, n => n
  | rounds + 1, n =>
    let reduced := reduceOnce count n
    if reduced.same n then n else reduceRounds count rounds reduced

/-- The smallest tree of a function with a number of variables. There are as many rounds as there
are nodes, far more than needed. -/
def reduce (count : Nat) (n : Node) : Node := reduceRounds count n.nodes.length n

end Collector.Compact
