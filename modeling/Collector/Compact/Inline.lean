import Collector.Compact.Facts

/-!
# Moving values to their uses

A variable that keeps its first value can be replaced by that value: a short constant wherever the
variable is read, and any value if there is a single use and nothing in between can tell when the
value was found.
-/

namespace Collector.Compact

open Script Node

/-! ## Constants -/

/-- Whether a constant is short enough to stand in several places. -/
def isShortConstant (n : Node) : Bool :=
  match n.kind with
  | .null | .undefined | .bool _ => true
  | .string value => value.utf8ByteSize ≤ 3
  | .number value =>
    match value.safeInt? with
    | some n => -99 ≤ n && n ≤ 999
    | none => false
  | _ => false

/-- The variable that a declarator declares, with its first value if that is a constant. -/
def constantOf? (uses : Uses) (declarator : Node) : Option (Nat × Node) :=
  match declarator with
  | .node .declarator [.node (.bind id) _, value] =>
    let value := if value.isPresent then value else undefined
    if uses.isFixed id && isConstant value && (uses.readCount id == 1 || isShortConstant value) then
      some (id, value)
    else none
  | _ => none

/-- Whether a kind of node has statements as parts. -/
def holdsStatements : Kind → Bool
  | .body | .block | .case | .staticBlock => true
  | _ => false

/-- The variables that can be replaced by constants. They are declared by statements of their own;
those for a whole function may be read before they have their values. -/
def constantsOf (uses : Uses) (n : Node) : List (Nat × Node) :=
  n.nodes.flatMap fun n =>
    if holdsStatements n.kind then
      n.parts.flatMap fun statement =>
        match statement with
        | .node (.declare .letting) declarators => declarators.filterMap (constantOf? uses)
        | _ => []
    else []

/-! ## Single uses -/

/-- A value that looks for the only use of its variable. -/
structure Moving where
  id : Nat
  value : Node
  /-- Whether finding the value does nothing else. -/
  quiet : Bool
  /-- Variables that keep their first values. -/
  fixed : Nat → Bool

/-- What a value meets on its way through an expression. -/
inductive Search where
  /-- The use, which is replaced. -/
  | found (n : Node)
  /-- Nothing that hinders it. -/
  | passed
  /-- Something that the value must not be moved behind. -/
  | blocked

/-- How a value goes on to a part of an expression. -/
inductive Access where
  | enter
  /-- Nothing there hinders it, but it must not be put there. -/
  | skip
  /-- It is not certain that the part is run, or what it does. -/
  | stop

/-- Whether a value, called at once, would become the object of the call. -/
def isMember (n : Node) : Bool :=
  match n.kind with
  | .member _ _ | .index _ | .privateMember _ _ | .chain => true
  | _ => false

/-- Whether something is a plain name that is assigned to. -/
def isPlainTarget (n : Node) : Bool :=
  match n.kind with
  | .store _ | .outer _ => true
  | _ => false

/-- How a value goes on to the part at a place in a node. -/
def access (m : Moving) (kind : Kind) (place : Nat) (part : Node) : Access :=
  let always : Access := .enter
  let ifQuiet : Access := if m.quiet then .enter else .stop
  let callee : Access := if isMember m.value && part.kind == .read m.id then .stop else .enter
  match kind, place with
  | .logical _, 1 => ifQuiet
  | .index true, 1 => ifQuiet
  | .assign op, 0 =>
    if !isPlainTarget part || (op != .set && !m.quiet) then .stop else .skip
  | .call _, 0 | .new, 0 | .tagged _, 0 => callee
  | .call true, _ => ifQuiet
  | .object, _ => if part.kind == .spread then .stop else always
  | .method _, 1 | .accessor _ _, 1 => .skip
  | _, _ => always

/-- Whether a value may enter the parts of a node at all. -/
def isOpen : Kind → Bool
  | .template _ | .tagged _ | .array | .spread | .object | .field | .method _ | .accessor _ _
  | .computed | .member _ _ | .index _ | .privateMember _ _ | .call _ | .new | .chain
  | .importCall | .binary _ | .logical _ | .privateIn _ | .assign _ | .sequence | .await
  | .yield _ => true
  | .unary op => op != .delete
  | _ => false

/-- Whether a node is only the frame of expressions. -/
def isFrame : Kind → Bool
  | .missing | .hole | .keyName _ | .keyString _ | .keyNumber _ | .keyBigint _ | .keyPrivate _
  | .field | .method _ | .accessor _ _ => true
  | _ => false

/-- Whether a value may be moved behind a node that does not hold the use. -/
def afterwards (m : Moving) (n : Node) : Search :=
  if isFrame n.kind || isConstant n || isConstant m.value || (m.quiet && !hasEffects n) then .passed
  else .blocked

/-- Puts a found part back into its node. -/
def Search.around (part : Search) (build : Node → Node) (otherwise : Search) : Search :=
  match part with
  | found n => .found (build n)
  | passed => otherwise
  | blocked => .blocked

/-- A search that goes on behind a part only if the part hinders nothing. -/
def Search.orElse (first : Search) (next : Search) : Search :=
  match first with
  | passed => next
  | result => result

/-- A search in two parts of which one is run. Only a use in neither of them is hindered by what
they do. -/
def Search.either (a b : Search) : Search :=
  match a, b with
  | found n, _ => .found n
  | _, found n => .found n
  | passed, passed => .passed
  | _, _ => .blocked

mutual

/-- Looks for the use of a value in an expression. -/
def search (m : Moving) : Node → Search
  | .node kind parts =>
    let n : Node := .node kind parts
    match kind, parts with
    | .read id, _ =>
      if id == m.id then .found m.value else if m.fixed id then .passed else afterwards m n
    | .conditional, [test, yes, no] =>
      let values : Search := if m.quiet then
          ((search m yes).around (fun yes => .node kind [test, yes, no]) .passed).either
            ((search m no).around (fun no => .node kind [test, yes, no]) .passed)
        else .blocked
      ((search m test).around (fun test => .node kind [test, yes, no]) values).orElse
        (afterwards m n)
    | kind, parts =>
      if isOpen kind then
        (searchParts m kind 0 parts).orElse (afterwards m n)
      else afterwards m n

/-- Looks for the use of a value in the parts of a node from a place on. What is found is the node
with the parts from that place on. -/
def searchParts (m : Moving) (kind : Kind) (place : Nat) : List Node → Search
  | [] => .passed
  | part :: rest =>
    match access m kind place part with
    | .stop => .blocked
    | .skip => (searchParts m kind (place + 1) rest).around (before part) .passed
    | .enter =>
      (search m part).around (fun part => .node kind (part :: rest))
        ((searchParts m kind (place + 1) rest).around (before part) .passed)
where
  /-- A node with one more part in front. -/
  before (part : Node) : Node → Node
    | .node kind parts => .node kind (part :: parts)

end

/-- Looks for the use of a value in what a statement runs first. -/
def searchStatement (m : Moving) : Node → Search
  | .node kind parts =>
    match kind, parts with
    | .expression, first :: rest | .return, first :: rest | .throw, first :: rest
    | .branch, first :: rest | .switch, first :: rest =>
      (search m first).around (fun first => .node kind (first :: rest)) .blocked
    | .declare _, .node .declarator [pattern, value] :: rest =>
      (search m value).around
        (fun value => .node kind (.node .declarator [pattern, value] :: rest)) .blocked
    | .loop, .node (.declare of) (.node .declarator [pattern, value] :: others) :: rest =>
      (search m value).around
        (fun value => .node kind
          (.node (.declare of) (.node .declarator [pattern, value] :: others) :: rest)) .blocked
    | .loop, first :: rest =>
      (search m first).around (fun first => .node kind (first :: rest)) .blocked
    | .forIn, [head, object, body] =>
      (search m object).around (fun object => .node kind [head, object, body]) .blocked
    | .forOf _, [head, items, body] =>
      (search m items).around (fun items => .node kind [head, items, body]) .blocked
    | _, _ => .blocked

/-- The value that the only use of a declared variable may be replaced by. -/
def movingOf? (uses : Uses) (declarator : Node) : Option Moving :=
  match declarator with
  | .node .declarator [.node (.bind id) _, value] =>
    if value.isPresent && uses.isFixed id && uses.readCount id == 1 then
      some ⟨id, value, !hasEffects value, uses.isFixed⟩
    else none
  | _ => none

/-- Moves the values of the last declarators into a statement behind them, as long as that
succeeds. The last declarator stands first. -/
def moveDeclarators (uses : Uses) : List Node → Node → List Node × Node
  | [], s => ([], s)
  | declarator :: rest, s =>
    match (movingOf? uses declarator).map fun m => searchStatement m s with
    | some (.found s) => moveDeclarators uses rest s
    | _ => (declarator :: rest, s)

/-- Moves the values that are declared directly before a statement into it. The last statement
stands first. -/
def moveInto (uses : Uses) : List Node → Node → List Node × Node
  | .node (.declare kind) declarators :: before, s =>
    match moveDeclarators uses declarators.reverse s with
    | ([], s) => moveInto uses before s
    | (left, s) => (.node (.declare kind) left.reverse :: before, s)
  | before, s => (before, s)

end Collector.Compact
