import Collector.Compact.Conditions
import Collector.Compact.Quote
import Collector.Number.Short

/-!
# Folding expressions

Shorter forms of single expressions whose parts are as short as they get. Constants are computed,
and forms with a shorter equivalent are replaced.
-/

namespace Collector.Compact

open Script Node

/-! ## Texts -/

/-- The pieces of a text and values between them: a template or a string, or a constant that can
become one. -/
def pieces? (n : Node) : Option (List Quasi × List Node) :=
  match n with
  | .node (.template texts) values => some (texts, values)
  | n => (constantText? n).map fun text => ([⟨some text, templateSpelling text⟩], [])

/-- Two pieces of text as one. -/
def joinQuasi (a b : Quasi) : Quasi :=
  { cooked := a.cooked.bind fun x => b.cooked.map fun y => x ++ y
    raw := a.raw ++ b.raw }

/-- One list of pieces behind another; the pieces between them become one. -/
def joinTexts : List Quasi → List Quasi → List Quasi
  | [], texts => texts
  | [a], b :: rest => joinQuasi a b :: rest
  | [a], [] => [a]
  | a :: rest, texts => a :: joinTexts rest texts

/-- A template, or a string if there are no values in it. -/
def templateOf (texts : List Quasi) (values : List Node) : Node :=
  match texts, values with
  | [⟨some text, _⟩], [] => Node.text text
  | texts, values => .node (.template texts) values

/-- The sum of two texts or constants, at least one of them a text, as one text. -/
def joinedText? (a b : Node) : Option Node :=
  if valueType a == some .string || valueType b == some .string then do
    let (texts, values) ← pieces? a
    let (texts', values') ← pieces? b
    some (templateOf (joinTexts texts texts') (values ++ values'))
  else none

/-- Puts constant values of a template into its text. -/
def fillTemplate : List Quasi → List Node → List Quasi × List Node
  | text :: next :: texts, value :: values =>
    match pieces? value with
    | some ([inner], []) =>
      fillTemplate (joinQuasi (joinQuasi text inner) next :: texts) values
    | _ =>
      let (texts, rest) := fillTemplate (next :: texts) values
      (text :: texts, value :: rest)
  | texts, values => (texts, values)
termination_by texts => texts.length

/-! ## Arithmetic -/

/-- The number of characters of a number. -/
def numberLength (x : Double) : Nat := x.short.length

/-- A result, unless it is longer than what it is computed from. -/
def unlessLonger (x y result : Double) : Option Double :=
  if numberLength result ≤ numberLength x + numberLength y + 1 then some result else none

/-- An operation on the bits of two numbers. -/
def bitsOf? (op : BinaryOp) (x y : Double) : Option Double := do
  let a ← x.toBits32?
  let b ← y.toBits32?
  let wide (n : Int) : BitVec 32 := BitVec.ofInt 32 n
  let shift := (wide b).toNat % 32
  match op with
  | .and => some (.ofInt (wide a &&& wide b).toInt)
  | .or => some (.ofInt (wide a ||| wide b).toInt)
  | .xor => some (.ofInt (wide a ^^^ wide b).toInt)
  | .shiftLeft => some (.ofInt ((wide a) <<< shift).toInt)
  | .shiftRight => some (.ofInt ((wide a).sshiftRight shift).toInt)
  | .shiftRightUnsigned => some (.ofInt ((wide a) >>> shift).toNat)
  | _ => none

/-- The result of an operation on two numbers. -/
def computed? (op : BinaryOp) (x y : Double) : Option Double :=
  match op with
  | .add => x.add? y
  | .subtract => x.subtract? y
  | .multiply => (x.multiply? y).bind (unlessLonger x y)
  | .divide => (x.divide? y).bind (unlessLonger x y)
  | .remainder => (x.remainder? y).bind (unlessLonger x y)
  | .power => (x.power? y).bind (unlessLonger x y)
  | op => bitsOf? op x y

/-- The result of a comparison of two numbers. -/
def comparedNumbers? (op : BinaryOp) (x y : Double) : Option Bool :=
  match op with
  | .less => x.less? y
  | .lessEqual => (y.less? x).map (!·)
  | .greater => y.less? x
  | .greaterEqual => (x.less? y).map (!·)
  | .equal | .strictEqual => some (x.sameValue y)
  | .notEqual | .strictNotEqual => some (!x.sameValue y)
  | _ => none

/-- The result of a comparison of two other constants for equality. -/
def comparedConstants? (op : BinaryOp) (a b : Kind) : Option Bool :=
  let isSame : Option Bool := match a, b with
    | .string x, .string y => some (x == y)
    | .bool x, .bool y => some (x == y)
    | .null, .null => some true
    | .undefined, .undefined => some true
    | _, _ => none
  match op with
  | .equal | .strictEqual => isSame
  | .notEqual | .strictNotEqual => isSame.map (!·)
  | _ => none

/-- The value of an operation on two constants. -/
def constantResult? (op : BinaryOp) (a b : Node) : Option Node :=
  match number? a, number? b with
  | some x, some y =>
    match computed? op x y with
    | some value => some (.leaf (.number value))
    | none => (comparedNumbers? op x y).map bool
  | _, _ => (comparedConstants? op a.kind b.kind).map bool

/-! ## Operators -/

/-- The comparison that holds with exchanged operands. -/
def mirrored? : BinaryOp → Option BinaryOp
  | .less => some .greater
  | .lessEqual => some .greaterEqual
  | .greater => some .less
  | .greaterEqual => some .lessEqual
  | .equal => some .equal
  | .notEqual => some .notEqual
  | .strictEqual => some .strictEqual
  | .strictNotEqual => some .strictNotEqual
  | _ => none

/-- The comparison that may convert its operands. -/
def loose? : BinaryOp → Option BinaryOp
  | .strictEqual => some .equal
  | .strictNotEqual => some .notEqual
  | _ => none

/-- Whether a comparison for equality holds of equal values. -/
def isAffirmative (op : BinaryOp) : Bool := op == .equal || op == .strictEqual

/-- A comparison of the type of a value with the word for no value. -/
def undefinedTest? (op : BinaryOp) (a b : Node) : Option Node :=
  match a, b with
  | .node (.unary .typeOf) [operand], .node (.string "undefined") _ =>
    if (opposite? op).isNone then none
    else
      match operand.kind with
      | .outer _ => some (.node (.binary (if isAffirmative op then .greater else .less)) [a, text "u"])
      | _ =>
        some (.node (.binary (if isAffirmative op then .strictEqual else .strictNotEqual))
          [operand, .undefined])
  | _, _ => none

/-- A sum of texts whose first operand is a sum already: texts next to each other become one. -/
def nestedSum? (a b : Node) : Option Node :=
  match a with
  | .node (.binary .add) [first, second] =>
    if valueType second == some .string then
      (joinedText? second b).map fun joined => .node (.binary .add) [first, joined]
    else none
  | _ => none

/-- An operation between two operands. -/
def foldBinary (op : BinaryOp) (a b : Node) : Node :=
  let plain : Node := .node (.binary op) [a, b]
  let sum? := if op == .add then joinedText? a b <|> nestedSum? a b else none
  match constantResult? op a b <|> sum? <|> undefinedTest? op a b with
  | some n => n
  | none =>
    if isConstant a && !isConstant b then
      match mirrored? op with
      | some op => .node (.binary op) [b, a]
      | none => plain
    else
      match loose? op with
      | some op' =>
        if (valueType a).isSome && valueType a == valueType b && valueType a != some .object then
          .node (.binary op') [a, b]
        else plain
      | none => plain

/-- An operation on one operand. -/
def foldUnary (op : UnaryOp) (a : Node) : Node :=
  let plain : Node := .node (.unary op) [a]
  match op with
  | .not => negate (inTest a)
  | .minus =>
    match number? a with
    | some x => .leaf (.number x.negate)
    | none => plain
  | .plus => if valueType a == some .number && !hasEffects a then a else plain
  | .void => if hasEffects a then plain else .undefined
  | .typeOf =>
    match valueType a, hasEffects a with
    | some .string, false => text "string"
    | some .number, false => text "number"
    | some .bool, false => text "boolean"
    | some .undefined, false => text "undefined"
    | _, _ => plain
  | _ => plain

/-- A logical operation. -/
def foldLogical (op : LogicalOp) (a b : Node) : Node :=
  let decided := match op with
    | .coalesce => (isNothing? a).map (!·)
    | .or => truth? a
    | .and => (truth? a).map (!·)
  match decided with
  | some true => a
  | some false => if hasEffects a then a.andThen b else b
  | none => join op a b

/-- The length of a text in units of sixteen bits. -/
def unitCount (text : String) : Nat :=
  text.toList.foldl (fun count c => count + if c.toNat < 1 <<< 16 then 1 else 2) 0

/-! ## Names of properties -/

/-- Whether a text may stand as a name behind a point. -/
def isPropertyName (text : String) : Bool :=
  match text.toList with
  | [] => false
  | c :: rest => Text.isIdentifierStart c && rest.all Text.isIdentifierPart

/-- The number that a text spells in the shortest way, if it is a place in an array. -/
def placeNumber? (text : String) : Option Double :=
  match text.toNat? with
  | some n => if toString n == text && n < 1 <<< 32 then some (Double.ofNat n) else none
  | none => none

/-- An access to a property by a value. -/
def foldIndex (optional : Bool) (object key : Node) : Node :=
  match string? key with
  | some name =>
    if isPropertyName name then .node (.member name optional) [object]
    else
      match placeNumber? name with
      | some n => .node (.index optional) [object, .leaf (.number n)]
      | none => .node (.index optional) [object, key]
  | none => .node (.index optional) [object, key]

/-- The key of a property. -/
def foldKey (key : Node) : Node :=
  match key with
  | .node (.keyString name) _ =>
    if isPropertyName name then .leaf (.keyName name)
    else
      match placeNumber? name with
      | some n => .leaf (.keyNumber n)
      | none => key
  | _ => key

/-- A property with its key folded. `__proto__` as a plain key has a meaning of its own. -/
def foldField (kind : Kind) (key : Node) (rest : List Node) : Node :=
  match key with
  | .node .computed [.node (.string name) _] =>
    if name == "__proto__" || name == "constructor" || name == "prototype" then
      .node kind (key :: rest)
    else .node kind (foldKey (.leaf (.keyString name)) :: rest)
  | .node .computed [.node (.number value) _] => .node kind (.leaf (.keyNumber value) :: rest)
  | key => .node kind (foldKey key :: rest)

/-! ## Calls and assignments -/

/-- Functions of which a call is the same with and without `new`. -/
def newlessNames : List String :=
  ["Error", "EvalError", "RangeError", "ReferenceError", "SyntaxError", "TypeError", "URIError",
    "AggregateError", "Function"]

/-- A call with `new`. -/
def foldNew (callee : Node) (arguments : List Node) : Node :=
  match callee.kind, arguments with
  | .outer "Object", [] => .node .object []
  | .outer "Array", [] => .node .array []
  | .outer name, arguments =>
    if newlessNames.contains name then .node (.call false) (callee :: arguments)
    else .node .new (callee :: arguments)
  | _, arguments => .node .new (callee :: arguments)

/-- A call. -/
def foldCall (optional : Bool) (callee : Node) (arguments : List Node) : Node :=
  match callee.kind, arguments with
  | .outer "Object", [] => .node .object []
  | .outer "Array", [] => .node .array []
  | .outer "Boolean", [a] => if a.kind == .spread then .node (.call optional) [callee, a] else
      negate (negate (inTest a))
  | _, arguments => .node (.call optional) (callee :: arguments)

/-- Whether an assignment target and an operand are the same name. -/
def isSameName (target value : Node) : Bool :=
  match target.kind, value.kind with
  | .store a, .read b => a == b
  | .outer a, .outer b => a == b
  | _, _ => false

/-- An assignment. An operation on the old value is written with its operator. -/
def foldAssign (target value : Node) : Node :=
  match value with
  | .node (.binary op) [a, b] =>
    if isSameName target a && (mirrored? op).isNone && op != .isIn && op != .instanceOf then
      .node (.assign (.binary op)) [target, b]
    else .node (.assign .set) [target, value]
  | .node (.logical op) [a, b] =>
    if isSameName target a then .node (.assign (.logical op)) [target, b]
    else .node (.assign .set) [target, value]
  | _ => .node (.assign .set) [target, value]

/-! ## All expressions -/

/-- The shortest form of an expression whose parts are folded. -/
def foldExpression (n : Node) : Node :=
  match n with
  | .node (.template texts) values =>
    let (texts, values) := fillTemplate texts values
    templateOf texts values
  | .node (.binary op) [a, b] => foldBinary op a b
  | .node (.unary op) [a] => foldUnary op a
  | .node (.logical op) [a, b] => foldLogical op a b
  | .node .conditional [test, yes, no] => conditional test yes no
  | .node (.index optional) [object, key] => foldIndex optional object key
  | .node (.member "length" false) [.node (.string value) _] =>
    .leaf (.number (Double.ofNat (unitCount value)))
  | .node .field (key :: rest) => foldField .field key rest
  | .node (.method isStatic) (key :: rest) => foldField (.method isStatic) key rest
  | .node (.accessor kind isStatic) (key :: rest) => foldField (.accessor kind isStatic) key rest
  | .node .patternField (key :: rest) => foldField .patternField key rest
  | .node .new (callee :: arguments) => foldNew callee arguments
  | .node (.call optional) (callee :: arguments) => foldCall optional callee arguments
  | .node (.assign .set) [target, value] => foldAssign target value
  | n => n

end Collector.Compact
