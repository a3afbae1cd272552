import Collector.Compact.Names
import Collector.Compact.Quote
import Collector.Number.Short

/-!
# Printing compact trees

The shortest text of a tree. A tree is written as a list of tokens, and blanks stand only between
tokens that would run together.
-/

namespace Collector.Compact

open Script

/-! ## Tokens -/

/-- Whether two tokens would run together. -/
def runTogether (a b : String) : Bool :=
  match a.toList.getLast?, b.toList.head? with
  | some x, some y =>
    (Text.isIdentifierPart x && Text.isIdentifierPart y) || (x == '+' && y == '+') ||
      (x == '-' && y == '-') || (x == '/' && (y == '/' || y == '*'))
  | _, _ => false

/-- Tokens behind another one, with the blanks that they need. -/
def joinTokens : String → List String → List String
  | _, [] => []
  | before, token :: rest =>
    (if runTogether before token then [" ", token] else [token]) ++ joinTokens token rest

/-- The text of tokens. -/
def tokensText (tokens : List String) : String := String.join (joinTokens "" tokens)

/-! ## Contexts -/

/-- What the front of an expression stands at. -/
inductive Lead where
  | none
  /-- The front of a statement, where a brace or a keyword would be read otherwise. -/
  | statement
  /-- The front of the body of an arrow function, where a brace would be read otherwise. -/
  | arrow
  /-- The name of a method, which stands in the place of the keyword of a function. -/
  | method
  deriving DecidableEq

/-- Where an expression stands. -/
structure Context where
  /-- The least level of operators that may stand without parentheses. -/
  level : Nat
  /-- Whether `in` may not stand without parentheses. -/
  noIn : Bool
  lead : Lead

namespace Context

/-- Inside brackets. -/
def plain : Context := ⟨0, false, .none⟩

/-- An item among others. -/
def item : Context := ⟨1, false, .none⟩

/-- The leftmost part of an expression. -/
def first (c : Context) (level : Nat) : Context := { c with level := level }

/-- A part of an expression behind another one. -/
def later (c : Context) (level : Nat) : Context := ⟨level, c.noIn, .none⟩

end Context

/-- A node with its text in every context. -/
structure Part where
  node : Node
  write : Context → List String

/-- A text in parentheses if it does not stand without them. -/
def within (needed : Bool) (c : Context) (write : Context → List String) : List String :=
  if needed then ["("] ++ write Context.plain ++ [")"] else write c

/-- The text of an operator of a level. -/
def atLevel (level : Nat) (c : Context) (write : Context → List String) : List String :=
  within (level < c.level) c write

/-- Texts with commas between them. -/
def commas : List (List String) → List String
  | [] => []
  | [text] => text
  | text :: rest => text ++ [","] ++ commas rest

/-- Items with commas between them. -/
def itemList (parts : List Part) : List String :=
  commas (parts.map fun p => p.write Context.item)

/-! ## Operators -/

/-- The level of operators between two operands. -/
def binaryLevel : BinaryOp → Nat
  | .or => 6
  | .xor => 7
  | .and => 8
  | .equal | .notEqual | .strictEqual | .strictNotEqual => 9
  | .less | .lessEqual | .greater | .greaterEqual | .isIn | .instanceOf => 10
  | .shiftLeft | .shiftRight | .shiftRightUnsigned => 11
  | .add | .subtract => 12
  | .multiply | .divide | .remainder => 13
  | .power => 14

/-- The level of operators before an operand. -/
def unaryLevel : Nat := 15

/-- The level of operators behind an operand. -/
def postfixLevel : Nat := 16

/-- The level of calls and member accesses. -/
def callLevel : Nat := 18

/-- The level above all operators. -/
def atomLevel : Nat := 20

/-- The spelling of an operator between two operands. -/
def binaryToken : BinaryOp → String
  | .equal => "=="
  | .notEqual => "!="
  | .strictEqual => "==="
  | .strictNotEqual => "!=="
  | .less => "<"
  | .lessEqual => "<="
  | .greater => ">"
  | .greaterEqual => ">="
  | .shiftLeft => "<<"
  | .shiftRight => ">>"
  | .shiftRightUnsigned => ">>>"
  | .add => "+"
  | .subtract => "-"
  | .multiply => "*"
  | .divide => "/"
  | .remainder => "%"
  | .power => "**"
  | .or => "|"
  | .xor => "^"
  | .and => "&"
  | .isIn => "in"
  | .instanceOf => "instanceof"

/-- The level of a logical operator. -/
def logicalLevel : LogicalOp → Nat
  | .coalesce => 3
  | .or => 4
  | .and => 5

/-- The spelling of a logical operator. -/
def logicalToken : LogicalOp → String
  | .coalesce => "??"
  | .or => "||"
  | .and => "&&"

/-- The spelling of an assignment. -/
def assignToken : AssignOp → String
  | .set => "="
  | .binary op => binaryToken op ++ "="
  | .logical op => logicalToken op ++ "="

/-- The spelling of an operator before an operand. -/
def unaryToken : UnaryOp → String
  | .plus => "+"
  | .minus => "-"
  | .not => "!"
  | .invert => "~"
  | .typeOf => "typeof"
  | .void => "void"
  | .delete => "delete"

/-- The level of an operand of a logical operator. `??` does not mix with the others. -/
def logicalOperandLevel (op : LogicalOp) (level : Nat) (operand : Node) : Nat :=
  match op, operand.kind with
  | .coalesce, .logical .and => atomLevel
  | .coalesce, .logical .or => atomLevel
  | _, _ => level

/-- The text of an operator between two operands. -/
def binaryText (op : BinaryOp) (left right : Part) (c : Context) : List String :=
  let level := binaryLevel op
  let (leftLevel, rightLevel) := if op == .power then (level + 2, level) else (level, level + 1)
  within (decide (level < c.level) || (op == .isIn && c.noIn)) c fun c =>
    left.write (c.first leftLevel) ++ [binaryToken op] ++ right.write (c.later rightLevel)

/-- The text of a logical operator. -/
def logicalText (op : LogicalOp) (left right : Part) (c : Context) : List String :=
  let level := logicalLevel op
  atLevel level c fun c =>
    left.write (c.first (logicalOperandLevel op level left.node)) ++ [logicalToken op] ++
      right.write (c.later (logicalOperandLevel op (level + 1) right.node))

/-- The text of a number. -/
def numberText (value : Double) (c : Context) : List String :=
  let level := match value with
    | .finite true _ _ => unaryLevel
    | .infinite _ => 13
    | _ => atomLevel
  atLevel level c fun _ => [value.short]

/-! ## Members and calls -/

/-- The text of the object of a member access. A point behind a whole number would be its own. -/
def objectText (object : Part) (c : Context) : List String :=
  match object.node.kind with
  | .chain => within true c object.write
  | .number value =>
    let text := value.short
    if text.toList.all Char.isDigit then [text, "."] else object.write (c.first callLevel)
  | _ => object.write (c.first callLevel)

/-- The text of a callee or of an object before brackets. -/
def calleeText (callee : Part) (c : Context) : List String :=
  match callee.node.kind with
  | .chain => within true c callee.write
  | _ => callee.write (c.first callLevel)

mutual

/-- Whether a call stands on the way from an expression to its leftmost operand. -/
def hasCall : Node → Bool
  | .node kind parts =>
    match kind with
    | .call _ | .importCall => true
    | .member _ _ | .index _ | .privateMember _ _ | .tagged _ | .chain => firstHasCall parts
    | _ => false

/-- The same for the first of several nodes. -/
def firstHasCall : List Node → Bool
  | [] => false
  | n :: _ => hasCall n

end

/-- The text of `new` with a callee. Without arguments the parentheses may be missing. -/
def newText (callee : Part) (arguments : List Part) (c : Context) : List String :=
  let target := within (hasCall callee.node || callee.node.kind == .chain)
    ⟨callLevel, false, .none⟩ callee.write
  let list := if arguments.isEmpty && c.level < postfixLevel then []
    else ["("] ++ itemList arguments ++ [")"]
  ["new"] ++ target ++ list

/-- The text of a template. -/
def templateText (texts : List Quasi) (values : List Part) : String :=
  let spliced := values.map fun v => "$\x7b" ++ tokensText (v.write Context.plain) ++ "\x7d"
  let pieces := texts.zipWith (fun text value => text.raw ++ value) (spliced ++ [""])
  "\x60" ++ String.join pieces ++ "\x60"

/-! ## Objects and patterns -/

/-- The text of the name of a property. -/
def keyText (key : Part) : List String :=
  match key.node.kind with
  | .keyName name => [name]
  | .keyString value => [quoteName value]
  | .keyNumber value => [value.short]
  | .keyBigint digits => [digits ++ "n"]
  | .keyPrivate name => ["#" ++ name]
  | _ => key.write Context.plain

/-- The name that a node is written as, if it is one. -/
def nameOf? (naming : Naming) (n : Node) : Option String :=
  match n.kind with
  | .outer name => some name
  | .read id => some (naming.name id)
  | .store id => some (naming.name id)
  | .bind id => some (naming.name id)
  | _ => none

/-- Whether a property may be written as its value alone: the value is a name, perhaps with a
default, that is written as the key. -/
def isShorthand (naming : Naming) (key value : Node) : Bool :=
  let target := match value with
    | .node .withDefault (pattern :: _) => pattern
    | value => value
  match key.kind with
  | .keyName name => name != "__proto__" && nameOf? naming target == some name
  | _ => false

/-- The text of a property with a value. -/
def fieldText (naming : Naming) (key value : Part) : List String :=
  if isShorthand naming key.node value.node then value.write Context.item
  else keyText key ++ [":"] ++ value.write Context.item

/-- The text of array items; a missing one at the end needs a comma of its own. -/
def arrayText (parts : List Part) : List String :=
  let ending := if parts.getLast?.any fun p => p.node.kind == .hole then [","] else []
  ["["] ++ itemList parts ++ ending ++ ["]"]

/-! ## Functions and classes -/

/-- Whether parameters are a single name. -/
def isSingleName : Node → Bool
  | .node .params [.node (.bind _) []] => true
  | _ => false

/-- The value that a body answers, if it does nothing else. -/
def answered? : Node → Bool
  | .node .body [.node .return [value]] => value.isPresent
  | _ => false

/-- The text of an arrow function. -/
def arrowText (style : Style) (params body : Part) (c : Context) : List String :=
  atLevel 1 c fun c =>
    let list := if isSingleName params.node then params.write Context.plain
      else ["("] ++ params.write Context.plain ++ [")"]
    let rest := if answered? body.node then body.write ⟨1, c.noIn, .arrow⟩
      else body.write Context.plain
    (if style.isAsync then ["async"] else []) ++ list ++ ["=>"] ++ rest

/-- The text of a function. -/
def functionText (style : Style) (name params body : Part) (c : Context) : List String :=
  let rest := ["("] ++ params.write Context.plain ++ [")"] ++ body.write Context.plain
  if style.isArrow then arrowText style params body c
  else if c.lead == .method then rest
  else
    within (c.lead == .statement) c fun _ =>
      (if style.isAsync then ["async"] else []) ++ ["function"] ++
        (if style.isGenerator then ["*"] else []) ++ name.write Context.plain ++ rest

/-- The words before the name of a method. -/
def methodWords (function : Node) : List String :=
  match function.kind with
  | .function style =>
    (if style.isAsync then ["async"] else []) ++ (if style.isGenerator then ["*"] else [])
  | _ => []

/-- The text of a method. -/
def methodText (words : List String) (isStatic : Bool) (key function : Part) :
    List String :=
  (if isStatic then ["static"] else []) ++ words ++ methodWords function.node ++
    keyText key ++ function.write ⟨0, false, .method⟩

/-- The text of a class. -/
def classText (name heritage : Part) (members : List Part) (c : Context) : List String :=
  within (c.lead == .statement) c fun _ =>
    let parent := if heritage.node.isPresent then
        ["extends"] ++ heritage.write ⟨callLevel, false, .none⟩
      else []
    ["class"] ++ name.write Context.plain ++ parent ++ ["\x7b"] ++
      members.flatMap (fun m => m.write Context.plain) ++ ["\x7d"]

/-! ## Statements -/

mutual

/-- Whether a semicolon stands between a statement and the one behind it. -/
def needsSemicolon : Node → Bool
  | .node kind parts =>
    match kind with
    | .expression | .declare _ | .return | .throw | .break _ | .continue _ | .doWhile
    | .directive _ => true
    | .branch | .loop | .forIn | .forOf _ | .with | .labelled _ | .case =>
      lastNeedsSemicolon false parts
    | _ => false

/-- The same for the last of several statements that is there. -/
def lastNeedsSemicolon (before : Bool) : List Node → Bool
  | [] => before
  | .node .missing _ :: rest => lastNeedsSemicolon before rest
  | n :: rest => lastNeedsSemicolon (needsSemicolon n) rest

end

mutual

/-- Whether an `else` behind a statement would belong to an `if` inside it. -/
def takesElse : Node → Bool
  | .node kind parts =>
    match kind with
    | .branch => lastTakesElse true parts
    | .loop | .forIn | .forOf _ | .with | .labelled _ => lastTakesElse false parts
    | _ => false

/-- The same for the last of several parts; nothing in its place leaves an `else` free. -/
def lastTakesElse (free : Bool) : List Node → Bool
  | [] => false
  | [.node .missing _] => free
  | [n] => takesElse n
  | _ :: rest => lastTakesElse free rest

end

/-- Statements one after another. -/
def statementList : List Part → List String
  | [] => []
  | [p] => p.write Context.plain
  | p :: rest =>
    p.write Context.plain ++ (if needsSemicolon p.node then [";"] else []) ++ statementList rest

/-- Statements in braces. -/
def inBraces (parts : List Part) : List String := ["\x7b"] ++ statementList parts ++ ["\x7d"]

/-- The spelling of the kind of a declaration. -/
def declarationWords : DeclarationKind → List String
  | .var => ["var"]
  | .letting => ["let"]
  | .const => ["const"]
  | .using => ["using"]
  | .awaitUsing => ["await", "using"]

/-- The text of a branch. -/
def branchText (test yes no : Part) : List String :=
  let head := ["if", "("] ++ test.write Context.plain ++ [")"]
  if no.node.isPresent then
    let body := if takesElse yes.node then inBraces [yes] else yes.write Context.plain
    let semicolon := if needsSemicolon yes.node && !takesElse yes.node then [";"] else []
    head ++ body ++ semicolon ++ ["else"] ++ no.write Context.plain
  else head ++ yes.write Context.plain

/-- The text of a loop over the parts of something. -/
def forText (words : List String) (word : String) (head object body : Part) (level : Nat) :
    List String :=
  words ++ ["("] ++ head.write ⟨postfixLevel, true, .none⟩ ++ [word] ++
    object.write ⟨level, false, .none⟩ ++ [")"] ++ body.write Context.plain

/-- The text of a jump with a label. -/
def jumpText (word : String) (label : Option String) : List String := [word] ++ label.toList

/-- The text of a try statement. -/
def tryText (block param handler finalizer : Part) : List String :=
  let caught := if handler.node.isPresent then
      ["catch"] ++
        (if param.node.isPresent then ["("] ++ param.write Context.plain ++ [")"] else []) ++
        handler.write Context.plain
    else []
  let finished := if finalizer.node.isPresent then
      ["finally"] ++ finalizer.write Context.plain
    else []
  ["try"] ++ block.write Context.plain ++ caught ++ finished

/-! ## Nodes -/

/-- The text of a constant. -/
def constantText (kind : Kind) (c : Context) : List String :=
  match kind with
  | .this => ["this"]
  | .super => ["super"]
  | .null => ["null"]
  | .undefined => atLevel unaryLevel c fun _ => ["void", "0"]
  | .bool value => atLevel unaryLevel c fun _ => ["!", if value then "0" else "1"]
  | .number value => numberText value c
  | .bigint digits => [digits ++ "n"]
  | .string value => [quoteValue value]
  | .regex body flags => ["/" ++ body ++ "/" ++ flags]
  | .metaProperty object property => [object, ".", property]
  | _ => []

/-- The text of an expression or of a pattern. -/
def expressionText (naming : Naming) (kind : Kind) (parts : List Part) (c : Context) :
    List String :=
  match kind, parts with
  | .outer name, _ => [name]
  | .read id, _ => [naming.name id]
  | .store id, _ => [naming.name id]
  | .bind id, _ => [naming.name id]
  | .template texts, values => [templateText texts values]
  | .tagged texts, tag :: values => calleeText tag c ++ [templateText texts values]
  | .array, items => arrayText items
  | .arrayPattern, items => arrayText items
  | .spread, [items] => ["..."] ++ items.write Context.item
  | .rest, [pattern] => ["..."] ++ pattern.write Context.item
  | .object, properties =>
    within (c.lead == .statement || c.lead == .arrow) c fun _ =>
      ["\x7b"] ++ itemList properties ++ ["\x7d"]
  | .objectPattern, properties => ["\x7b"] ++ itemList properties ++ ["\x7d"]
  | .field, [key, value] => fieldText naming key value
  | .patternField, [key, value] => fieldText naming key value
  | .withDefault, [pattern, value] =>
    pattern.write Context.item ++ ["="] ++ value.write Context.item
  | .method isStatic, [key, function] => methodText [] isStatic key function
  | .accessor kind isStatic, [key, function] =>
    methodText [if kind == .get then "get" else "set"] isStatic key function
  | .computed, [value] => ["["] ++ value.write Context.item ++ ["]"]
  | .member property optional, [object] =>
    objectText object c ++ [if optional then "?." else ".", property]
  | .privateMember property optional, [object] =>
    objectText object c ++ [if optional then "?." else ".", "#" ++ property]
  | .index optional, [object, key] =>
    calleeText object c ++ (if optional then ["?."] else []) ++ ["["] ++
      key.write Context.plain ++ ["]"]
  | .call optional, callee :: arguments =>
    calleeText callee c ++ (if optional then ["?."] else []) ++ ["("] ++ itemList arguments ++
      [")"]
  | .new, callee :: arguments => newText callee arguments c
  | .chain, [inner] => inner.write c
  | .importCall, arguments => ["import", "("] ++ itemList arguments ++ [")"]
  | .unary op, [operand] =>
    atLevel unaryLevel c fun _ => [unaryToken op] ++ operand.write ⟨unaryLevel, false, .none⟩
  | .update increment before, [target] =>
    let token := if increment then "++" else "--"
    if before then
      atLevel unaryLevel c fun _ => [token] ++ target.write ⟨unaryLevel, false, .none⟩
    else
      atLevel postfixLevel c fun c => target.write (c.first postfixLevel) ++ [token]
  | .binary op, [left, right] => binaryText op left right c
  | .logical op, [left, right] => logicalText op left right c
  | .privateIn property, [right] =>
    atLevel 10 c fun c => ["#" ++ property, "in"] ++ right.write (c.later 11)
  | .assign op, [target, value] =>
    let braced := target.node.kind == .objectPattern && (c.lead == .statement || c.lead == .arrow)
    within (decide (1 < c.level) || braced) c fun c =>
      target.write (c.first postfixLevel) ++ [assignToken op] ++ value.write (c.later 1)
  | .conditional, [test, yes, no] =>
    atLevel 2 c fun c =>
      test.write (c.first 3) ++ ["?"] ++ yes.write Context.item ++ [":"] ++ no.write (c.later 1)
  | .sequence, first :: rest =>
    atLevel 0 c fun c =>
      commas (first.write (c.first 1) :: rest.map fun p => p.write (c.later 1))
  | .await, [operand] =>
    atLevel unaryLevel c fun _ => ["await"] ++ operand.write ⟨unaryLevel, false, .none⟩
  | .yield delegate, [operand] =>
    atLevel 1 c fun c =>
      ["yield"] ++ (if delegate then ["*"] else []) ++ operand.write (c.later 1)
  | .function style, [name, params, body] => functionText style name params body c
  | .params, patterns => itemList patterns
  | .classOf, name :: heritage :: members => classText name heritage members c
  | kind, _ => constantText kind c

/-- The text of a statement or of a part of one. -/
def statementText (naming : Naming) (kind : Kind) (parts : List Part) (c : Context) :
    List String :=
  match kind, parts with
  | .directive text, _ => [quoteDirective text]
  | .expression, [value] => value.write ⟨0, false, .statement⟩
  | .body, statements =>
    match c.lead, statements with
    | .arrow, [answer] => answer.write c
    | _, _ => inBraces statements
  | .block, statements => inBraces statements
  | .declare kind, declarators =>
    declarationWords kind ++ commas (declarators.map fun d => d.write ⟨1, c.noIn, .none⟩)
  | .declarator, [pattern, value] =>
    pattern.write Context.item ++
      (if value.node.isPresent then ["="] ++ value.write ⟨1, c.noIn, .none⟩ else [])
  | .functionDeclaration, [function] => function.write Context.plain
  | .classDeclaration, [value] => value.write Context.plain
  | .empty, _ => [";"]
  | .branch, [test, yes, no] => branchText test yes no
  | .loop, [init, test, update, body] =>
    ["for", "("] ++ init.write ⟨0, true, .none⟩ ++ [";"] ++ test.write Context.plain ++ [";"] ++
      update.write Context.plain ++ [")"] ++ body.write Context.plain
  | .forIn, [head, object, body] => forText ["for"] "in" head object body 0
  | .forOf isAwait, [head, items, body] =>
    forText (["for"] ++ if isAwait then ["await"] else []) "of" head items body 1
  | .doWhile, [body, test] =>
    ["do"] ++ body.write Context.plain ++ (if needsSemicolon body.node then [";"] else []) ++
      ["while", "("] ++ test.write Context.plain ++ [")"]
  | .continue label, _ => jumpText "continue" label
  | .break label, _ => jumpText "break" label
  | .return, [value] =>
    if c.lead == .arrow then value.write c else ["return"] ++ value.write Context.plain
  | .throw, [value] => ["throw"] ++ value.write Context.plain
  | .with, [object, body] =>
    ["with", "("] ++ object.write Context.plain ++ [")"] ++ body.write Context.plain
  | .switch, value :: cases =>
    ["switch", "("] ++ value.write Context.plain ++ [")"] ++ inBraces cases
  | .case, test :: statements =>
    (if test.node.isPresent then ["case"] ++ test.write Context.plain else ["default"]) ++
      [":"] ++ statementList statements
  | .labelled label, [body] => [label, ":"] ++ body.write Context.plain
  | .try, [block, param, handler, finalizer] => tryText block param handler finalizer
  | .staticBlock, statements => ["static"] ++ inBraces statements
  | .classField isStatic isAccessor, [key, value] =>
    (if isStatic then ["static"] else []) ++ (if isAccessor then ["accessor"] else []) ++
      keyText key ++
      (if value.node.isPresent then ["="] ++ value.write Context.item else []) ++ [";"]
  | kind, parts => expressionText naming kind parts c

mutual

/-- A node with its text. -/
def Node.part (naming : Naming) : Node → Part
  | .node kind parts =>
    let inner := partsOf naming parts
    ⟨.node kind parts, statementText naming kind inner⟩

/-- Nodes with their texts. -/
def partsOf (naming : Naming) : List Node → List Part
  | [] => []
  | n :: rest => n.part naming :: partsOf naming rest

end

/-- The text of statements without braces around them. -/
def statementsText (naming : Naming) (statements : List Node) : String :=
  tokensText (statementList (partsOf naming statements))

end Collector.Compact
