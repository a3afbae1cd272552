import Collector.Compact.Facts

/-!
# Conditions

Negations, tests and choices in their shortest forms.
-/

namespace Collector.Compact

open Script Node

/-! ## Negation -/

/-- The comparison that holds exactly if another one does not. -/
def opposite? : BinaryOp → Option BinaryOp
  | .equal => some .notEqual
  | .notEqual => some .equal
  | .strictEqual => some .strictNotEqual
  | .strictNotEqual => some .strictEqual
  | _ => none

/-- The comparison for equality behind one for inequality. -/
def affirmed? : BinaryOp → Option BinaryOp
  | .notEqual => some .equal
  | .strictNotEqual => some .strictEqual
  | _ => none

mutual

/-- The negation of an expression. -/
def negate : Node → Node
  | .node kind parts =>
    let n : Node := .node kind parts
    match quietTruth? n with
    | some value => bool (!value)
    | none =>
      match kind, parts with
      | .unary .not, [inner] => if valueType inner == some .bool then inner else n.not
      | .binary op, [a, b] =>
        match opposite? op with
        | some op => .node (.binary op) [a, b]
        | none => n.not
      | .sequence, items => .node .sequence (negateLast items)
      | _, _ => n.not

/-- The negation of the last of several expressions. -/
def negateLast : List Node → List Node
  | [] => []
  | [n] => [negate n]
  | n :: rest => n :: negateLast rest

end

/-! ## Tests -/

/-- The test of a choice one of whose values is a known truth value: a logical operator. -/
def choiceAsLogical? (test yes no : Node) : Option Node :=
  match quietTruth? yes, quietTruth? no with
  | some true, _ => some (join .or test no)
  | some false, _ => some (join .and (negate test) no)
  | none, some true => some (join .or (negate test) yes)
  | none, some false => some (join .and test yes)
  | none, none => none

mutual

/-- An expression of which only its truth matters. -/
def inTest : Node → Node
  | .node kind parts =>
    let n : Node := .node kind parts
    match kind, testParts kind parts with
    | .unary .not, [inner] =>
      match inner with
      | .node (.unary .not) [value] => value
      | inner => negate inner
    | .logical .and, [a, b] => if quietTruth? b == some true then a else join .and a b
    | .logical .or, [a, b] => if quietTruth? b == some false then a else join .or a b
    | .conditional, [test, yes, no] =>
      (choiceAsLogical? test yes no).getD (.node .conditional [test, yes, no])
    | .sequence, items => sequenceOf items
    | _, _ => n

/-- The parts of an expression in a test; those of which only the truth matters are changed. -/
def testParts (kind : Kind) : List Node → List Node
  | [] => []
  | [n] =>
    match kind with
    | .unary .not | .logical _ | .conditional | .sequence => [inTest n]
    | _ => [n]
  | n :: rest =>
    let first := match kind with
      | .logical .and | .logical .or | .conditional => inTest n
      | _ => n
    first :: testParts kind rest

end

/-! ## Choices -/

/-- A test taken apart: what is run before it, the test without negations, and whether it was
negated. -/
structure Peeled where
  before : List Node
  test : Node
  negated : Bool

mutual

/-- Takes a test apart. -/
def peel : Node → Peeled
  | .node kind parts =>
    match kind, parts with
    | .unary .not, [inner] =>
      let p := peel inner
      { p with negated := !p.negated }
    | .binary op, [a, b] =>
      match affirmed? op with
      | some op => ⟨[], .node (.binary op) [a, b], true⟩
      | none => ⟨[], .node kind parts, false⟩
    | .sequence, items => peelLast items
    | _, _ => ⟨[], .node kind parts, false⟩

/-- Takes the last of several expressions apart. -/
def peelLast : List Node → Peeled
  | [] => ⟨[], .missing, false⟩
  | [n] => peel n
  | n :: rest =>
    let p := peelLast rest
    { p with before := n :: p.before }

end

/-- Whether an expression is a single name. -/
def isName (n : Node) : Bool :=
  match n.kind with
  | .read _ | .outer _ => true
  | _ => false

/-- A choice between truth values. -/
def truthChoice? (test yes no : Node) : Option Node :=
  match yes.kind, no.kind with
  | .bool true, .bool false => some (if valueType test == some .bool then test else negate test.not)
  | .bool false, .bool true => some (negate test)
  | .bool true, _ => if valueType test == some .bool then some (join .or test no) else none
  | _, .bool false => if valueType test == some .bool then some (join .and test yes) else none
  | _, _ => none

/-- A choice one of whose values is the test. -/
def testChoice? (test yes no : Node) : Option Node :=
  if isName test && test.same yes then some (join .or test no)
  else if isName test && test.same no then some (join .and test yes)
  else
    match test with
    | .node (.binary .equal) [a, .node .null []] =>
      if isName a && !hasEffects a && a.same no then some (join .coalesce a yes) else none
    | _ => none

/-- A choice between choices that share a value. -/
def nestedChoice? (test yes no : Node) : Option Node :=
  match yes, no with
  | .node .conditional [b, c, d], no =>
    if d.same no then some (.node .conditional [join .and test b, c, d]) else none
  | yes, .node .conditional [c, b, d] =>
    if b.same yes then some (.node .conditional [join .or test c, b, d]) else none
  | _, _ => none

/-- A choice whose values end in the same way. -/
def endingChoice? (test yes no : Node) : Option Node :=
  match yes, no with
  | .node .sequence [b, c], no =>
    if c.same no then some ((join .and test b).andThen c) else none
  | yes, .node .sequence [b, c] =>
    if c.same yes then some ((join .or test b).andThen c) else none
  | .node (.logical .or) [b, c], no =>
    if c.same no then some (join .or (join .and test b) c) else none
  | yes, .node (.logical .and) [b, c] =>
    if c.same yes then some (join .and (join .or test b) c) else none
  | _, _ => none

/-- A choice between two assignments to one name, or between two calls of one function. -/
def commonChoice? (test yes no : Node) : Option Node :=
  match yes, no with
  | .node (.assign op) [.node a [], b], .node (.assign op') [.node a' [], c] =>
    if op == op' && op == .set && a == a' then
      some (.node (.assign op) [.node a [], .node .conditional [test, b, c]])
    else none
  | .node (.call false) [f, b], .node (.call false) [g, c] =>
    if f.same g && !hasEffects f && !hasEffects test && b.kind != .spread && c.kind != .spread then
      some (.node (.call false) [f, .node .conditional [test, b, c]])
    else none
  | _, _ => none

/-- A choice with a test that is neither a sequence nor negated. -/
def choose (test yes no : Node) : Node :=
  match truth? test with
  | some value =>
    let chosen := if value then yes else no
    if hasEffects test then test.andThen chosen else chosen
  | none =>
    if yes.same no then (if hasEffects test then test.andThen yes else yes)
    else
      ((truthChoice? test yes no <|> testChoice? test yes no <|> nestedChoice? test yes no <|>
        endingChoice? test yes no <|> commonChoice? test yes no).getD
          (.node .conditional [test, yes, no]))

/-- A choice between two values. -/
def conditional (test yes no : Node) : Node :=
  let p := peel (inTest test)
  let chosen := if p.negated then choose p.test no yes else choose p.test yes no
  sequenceOf (p.before ++ chosen.items)

end Collector.Compact
