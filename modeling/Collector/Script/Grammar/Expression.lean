import Collector.Script.Grammar.Class
import Collector.Script.Grammar.Target

/-!
# Expressions

The productions for expressions. Calls and member accesses bind most tightly, then operators
before and behind an operand, then operators between two operands by their levels, then the
conditional, and least of all assignments and arrow functions.
-/

namespace Collector.Script.Grammar

/-! ## Literals -/

/-- A template behind its opening backtick. -/
def template (g : Grammar) (m : Mode) : Parser (List Quasi × List Expr) := do
  let ((first, last), rest) ← Parser.lift (quasi (← Parser.left))
  Parser.jump rest
  if last then return ([first], [])
  else
    Parser.iterate g.fuel (fun (texts, values) => do
      let value ← g.expression m.withIn
      let next ← Parser.peek
      Parser.check (next.is .closeBrace)
      let ((text, last), rest) ← Parser.lift (quasi next.rest)
      Parser.jump rest
      let texts := text :: texts
      let values := value :: values
      if last then return .inr (texts.reverse, values.reverse)
      else return .inl (texts, values)) ([first], [])

/-- A template that stands for a string: its escapes are well formed. -/
def plainTemplate (g : Grammar) (m : Mode) : Parser Expr := do
  Parser.expect .backtick
  let (texts, values) ← g.template m
  Parser.check (texts.all fun text => text.cooked.isSome)
  return .template texts values

/-- A regular expression. Its opening slash was read as an operator. -/
def regexLiteral : Parser Expr := do
  let next ← Parser.peek
  let ((body, flags), rest) ← Parser.lift (regex (next.start.drop 1))
  Parser.jump rest
  return .regex body flags

/-- An item of an array, or an argument. -/
def element (g : Grammar) (m : Mode) : Parser Expr := do
  if ← Parser.accept .ellipsis then
    let items ← g.assignment m.withIn
    return .spread items
  else g.assignment m.withIn

/-- An item of an array, which may be missing. -/
def arrayItem (g : Grammar) (m : Mode) : Parser Expr := do
  if ← Parser.sees .comma then return .hole else g.element m

/-- An array behind its bracket. -/
def array (g : Grammar) (m : Mode) : Parser Expr := do
  let (items, comma) ← g.listUntil .closeBracket (g.arrayItem m)
  return .array items comma

/-- Arguments behind their parenthesis, and whether a comma ends them. -/
def arguments (g : Grammar) (m : Mode) : Parser (List Expr × Bool) :=
  g.listUntil .closeParen (g.element m)

/-- A property behind its name: a method, a value, or the name alone. -/
def propertyRest (g : Grammar) (m : Mode) (start : Lexeme) (mods : Modifiers) (key : Key) :
    Parser Property := do
  Parser.check (match key with
    | .privateName _ => false
    | _ => true)
  if mods.demandMethod || (← Parser.sees .openParen) then
    let f ← g.method mods
    let text ← Parser.textFrom start.start
    return match mods.accessor with
      | some kind => .accessor kind key f text
      | none => .method key f text
  else if ← Parser.accept .colon then
    let from_ := (← Parser.peek).start
    let value ← g.assignment m.withIn
    return .field key value false (← Parser.textFrom from_)
  else
    let id ← Parser.lift (start.identifier? m)
    if ← Parser.accept .assign then
      let value ← g.assignment m.withIn
      return .pending id value
    else return .field (.name id) (.name id) true (slice start.start start.rest)

/-- A property of an object. -/
def property (g : Grammar) (m : Mode) : Parser Property := do
  if ← Parser.accept .ellipsis then
    let value ← g.assignment m.withIn
    return .spread value
  else
    let start ← Parser.peek
    let mods ← modifiers
    let key ← g.key m
    g.propertyRest m start mods key

/-- An object behind its brace. -/
def object (g : Grammar) (m : Mode) : Parser Expr := do
  let (properties, comma) ← g.listUntil .closeBrace (g.property m)
  return .object properties comma

/-! ## Parentheses and arrow functions -/

/-- What stands in parentheses: an expression, or the parameters of an arrow function. -/
inductive Parenthesized where
  | value (e : Expr)
  | parameters (params : List Pattern) (text : String)

/-- Whether an arrow stands here, on the line of the token before it. -/
def seesArrow : Parser Bool := do
  let next ← Parser.peek
  return next.is .arrow && !next.newline

/-- The parameters read so far, if an arrow follows. -/
def asParameters (start : List Char) (params : Option (List Pattern)) : Parser Parenthesized := do
  Parser.check (← seesArrow)
  let params ← Parser.lift params
  return .parameters params (← Parser.textFrom start)

/-- The contents of parentheses that begin at `start`, from their first item on. -/
def parenItems (g : Grammar) (m : Mode) (start inner : List Char) : Parser Parenthesized :=
  Parser.iterate g.fuel (fun items : List Expr => do
    if ← Parser.sees .ellipsis then
      let rest ← g.bindingRest m
      Parser.expect .closeParen
      let params := (parameters? items.reverse false).map fun params => params ++ [rest]
      return .inr (← asParameters start params)
    else if ← Parser.sees .closeParen then
      Parser.advance
      return .inr (← asParameters start (parameters? items.reverse false))
    else
      let item ← g.assignment m.withIn
      let items := item :: items
      if ← Parser.accept .comma then return .inl items
      else
        let text ← Parser.textFrom inner
        Parser.expect .closeParen
        if ← seesArrow then
          return .inr (← asParameters start (parameters? items.reverse false))
        else
          let value := match items with
            | [item] => item
            | _ => .sequence items.reverse
          return .inr (.value (.paren text value))) []

/-- Parentheses. -/
def parenthesized (g : Grammar) (m : Mode) : Parser Parenthesized := do
  let start := (← Parser.peek).start
  Parser.expect .openParen
  let inner := (← Parser.peek).start
  g.parenItems m start inner

/-- Parentheses where no arrow function may stand. -/
def parenExpression (g : Grammar) (m : Mode) : Parser Expr := do
  match ← g.parenthesized m with
  | .value e => return e
  | .parameters _ _ => failure

/-- An arrow function behind its parameters. -/
def arrowRest (g : Grammar) (m : Mode) (isAsync : Bool) (params : List Pattern)
    (paramsText : String) : Parser Expr := do
  Parser.check (← seesArrow)
  Parser.advance
  let make (body : Body) : Function :=
    ⟨isAsync, false, none, "", params, paramsText, "", body.items, body.tail⟩
  if ← Parser.sees .openBrace then
    let body ← g.functionBody (functionMode isAsync false)
    return .arrow none (make body)
  else
    let start := (← Parser.peek).start
    let inner : Mode :=
      { m with isAsync := isAsync, isGenerator := false }
    let value ← g.assignment inner
    let text ← Parser.textFrom start
    return .arrow (some text) (make ⟨[⟨"", text, .expression value⟩], ""⟩)

/-! ## Operands -/

/-- A word as an operand: a constant or a name. -/
def wordOperand (m : Mode) (id : String) (escaped : Bool) : Parser Expr := do
  let constant : Option Expr :=
    if escaped then none
    else if id == "this" then some .this
    else if id == "null" then some .null
    else if id == "true" then some (.bool true)
    else if id == "false" then some (.bool false)
    else none
  match constant with
  | some e =>
    Parser.advance
    return e
  | none =>
    let id ← Parser.identifier m
    return .name id

/-- `super`, which only a member access or a call may follow. -/
def superOperand : Parser Expr := do
  Parser.expectWord "super"
  let next ← Parser.peek
  Parser.check (next.is .dot || next.is .openBracket || next.is .openParen)
  return .super

/-- `import` as an operand. -/
def importOperand (g : Grammar) (m : Mode) : Parser Expr := do
  Parser.expectWord "import"
  if ← Parser.accept .dot then
    let next ← Parser.peek
    match next.token with
    | .word id false =>
      Parser.advance
      if id == "meta" then return .metaProperty "import" id
      else
        Parser.check (id == "source" || id == "defer")
        Parser.expect .openParen
        let (items, _) ← g.arguments m
        return .importCall items
    | _ => failure
  else
    Parser.expect .openParen
    let (items, _) ← g.arguments m
    Parser.check (!items.isEmpty)
    return .importCall items

/-- Whether a lexeme is a word that begins an operand of its own kind. -/
def operandWord? (lexeme : Lexeme) : Option String :=
  match lexeme.token with
  | .word id false => some id
  | _ => none

/-- An operand without operators, calls or member accesses. -/
def primary (g : Grammar) (m : Mode) : Parser Expr := do
  let next ← Parser.peek
  match next.token with
  | .number value =>
    Parser.advance
    return .number value
  | .bigint digits =>
    Parser.advance
    return .bigint digits
  | .string value =>
    Parser.advance
    return .string value
  | .word id escaped =>
    if ← seesFunction then return .function (← g.function m false)
    else if next.isWord "class" then return .classOf (← g.classOf m false)
    else if next.isWord "super" then superOperand
    else if next.isWord "import" then g.importOperand m
    else wordOperand m id escaped
  | .punctuator .openParen => g.parenExpression m
  | .punctuator .openBracket =>
    Parser.advance
    g.array m
  | .punctuator .openBrace =>
    Parser.advance
    g.object m
  | .punctuator .backtick => g.plainTemplate m
  | .punctuator .slash => regexLiteral
  | .punctuator .slashAssign => regexLiteral
  | .punctuator .at => return .classOf (← g.classOf m false)
  | _ => failure

/-! ## Members and calls -/

/-- What is being built: an expression, and whether an optional link stands in its chain. -/
structure Chain where
  value : Expr
  optional : Bool

/-- The expression of a chain. -/
def Chain.finish (c : Chain) : Expr := if c.optional then .chain c.value else c.value

/-- A property behind a point. -/
def memberOf (object : Expr) (optional : Bool) : Parser Expr := do
  let next ← Parser.peek
  match next.token with
  | .word id _ =>
    Parser.advance
    return .member object id optional
  | .privateName id =>
    Parser.advance
    return .privateMember object id optional
  | _ => failure

/-- A property in brackets, behind the opening one. -/
def indexOf (g : Grammar) (m : Mode) (object : Expr) (optional : Bool) : Parser Expr := do
  let key ← g.expression m.withIn
  Parser.expect .closeBracket
  return .index object key optional

/-- A link of a chain behind `?.`. -/
def optionalLink (g : Grammar) (m : Mode) (object : Expr) : Parser Expr := do
  if ← Parser.accept .openParen then
    let (items, _) ← g.arguments m
    return .call object items true
  else if ← Parser.accept .openBracket then g.indexOf m object true
  else memberOf object true

/-- The next link of a chain, if there is one. -/
def link? (g : Grammar) (m : Mode) (calls : Bool) (c : Chain) : Parser (Option Chain) := do
  let next ← Parser.peek
  match next.punctuator? with
  | some .dot =>
    Parser.advance
    return some { c with value := ← memberOf c.value false }
  | some .openBracket =>
    Parser.advance
    return some { c with value := ← g.indexOf m c.value false }
  | some .backtick =>
    Parser.check (!c.optional)
    Parser.advance
    let (texts, values) ← g.template m
    return some { c with value := .tagged c.value texts values }
  | some .openParen =>
    if calls then
      Parser.advance
      let (items, _) ← g.arguments m
      return some { c with value := .call c.value items false }
    else return none
  | some .questionDot =>
    if calls then
      Parser.advance
      return some ⟨← g.optionalLink m c.value, true⟩
    else return none
  | _ => return none

/-- An operand with the member accesses and calls behind it. -/
def links (g : Grammar) (m : Mode) (calls : Bool) (operand : Expr) : Parser Expr :=
  Parser.iterate g.fuel (fun c : Chain => do
    match ← g.link? m calls c with
    | some c => return .inl c
    | none => return .inr c.finish) ⟨operand, false⟩

/-- What stands behind `new`. -/
def newRest (g : Grammar) (m : Mode) : Parser Expr := do
  if ← Parser.accept .dot then
    Parser.expectWord "target"
    return .metaProperty "new" "target"
  else
    let callee ← g.callee m
    Parser.check (!(← Parser.sees .questionDot))
    if ← Parser.accept .openParen then
      let (items, _) ← g.arguments m
      return .new callee items
    else return .new callee []

/-- An operand before member accesses and calls. -/
def start (g : Grammar) (m : Mode) : Parser Expr := do
  if ← Parser.acceptWord "new" then g.newRest m else g.primary m

/-- The callee of `new`: an operand with member accesses, but without calls. -/
def newCallee (g : Grammar) (m : Mode) : Parser Expr := do
  Parser.check (!(← Parser.seesWord "import"))
  let operand ← g.start m
  g.links m false operand

/-- An operand with member accesses and calls. -/
def leftHandSide (g : Grammar) (m : Mode) : Parser Expr := do
  let operand ← g.start m
  g.links m true operand

/-! ## Operators -/

/-- The operator before an operand that a lexeme is. -/
def unaryOp? (lexeme : Lexeme) : Option UnaryOp :=
  match lexeme.token with
  | .punctuator .plus => some .plus
  | .punctuator .minus => some .minus
  | .punctuator .bang => some .not
  | .punctuator .tilde => some .invert
  | .word "typeof" false => some .typeOf
  | .word "void" false => some .void
  | .word "delete" false => some .delete
  | _ => none

/-- Whether a lexeme adds one or takes one off. -/
def updateOp? (lexeme : Lexeme) : Option Bool :=
  match lexeme.token with
  | .punctuator .increment => some true
  | .punctuator .decrement => some false
  | _ => none

/-- The operators behind an operand. -/
def postfixed (g : Grammar) (m : Mode) (operand : Expr) : Parser Expr := do
  let operand ← g.links m true operand
  let next ← Parser.peek
  match updateOp? next with
  | some increment =>
    if next.newline then return operand
    else
      Parser.check operand.isPlace
      Parser.advance
      return .update increment false operand
  | none => return operand

/-- An operand with the operators before and behind it. -/
def unaryExpression (g : Grammar) (m : Mode) : Parser Expr := do
  let next ← Parser.peek
  match unaryOp? next, updateOp? next with
  | some op, _ =>
    Parser.advance
    return .unary op (← g.unary m)
  | none, some increment =>
    Parser.advance
    let target ← g.unary m
    Parser.check target.isPlace
    return .update increment true target
  | none, none =>
    if m.isAsync && next.isWord "await" then
      Parser.advance
      return .await (← g.unary m)
    else
      let operand ← g.start m
      g.postfixed m operand

/-- An operator between two operands. -/
inductive Infix where
  | binary (op : BinaryOp)
  | logical (op : LogicalOp)

/-- The operator that a lexeme is, with its level. -/
def infix? (m : Mode) (lexeme : Lexeme) : Option (Infix × Nat) :=
  match lexeme.token with
  | .punctuator p =>
    match p with
    | .coalesce => some (.logical .coalesce, 1)
    | .orOr => some (.logical .or, 2)
    | .andAnd => some (.logical .and, 3)
    | .bar => some (.binary .or, 4)
    | .caret => some (.binary .xor, 5)
    | .ampersand => some (.binary .and, 6)
    | .equal => some (.binary .equal, 7)
    | .notEqual => some (.binary .notEqual, 7)
    | .strictEqual => some (.binary .strictEqual, 7)
    | .strictNotEqual => some (.binary .strictNotEqual, 7)
    | .less => some (.binary .less, 8)
    | .lessEqual => some (.binary .lessEqual, 8)
    | .greater => some (.binary .greater, 8)
    | .greaterEqual => some (.binary .greaterEqual, 8)
    | .shiftLeft => some (.binary .shiftLeft, 9)
    | .shiftRight => some (.binary .shiftRight, 9)
    | .shiftRightUnsigned => some (.binary .shiftRightUnsigned, 9)
    | .plus => some (.binary .add, 10)
    | .minus => some (.binary .subtract, 10)
    | .star => some (.binary .multiply, 11)
    | .slash => some (.binary .divide, 11)
    | .percent => some (.binary .remainder, 11)
    | .power => some (.binary .power, 12)
    | _ => none
  | .word "in" false => if m.isIn then some (.binary .isIn, 8) else none
  | .word "instanceof" false => some (.binary .instanceOf, 8)
  | _ => none

/-- The level of comparisons, where `#name in object` stands. -/
def comparisonLevel : Nat := 8

/-- Whether an expression may be the left operand of a power without parentheses. -/
def mayBePowered : Expr → Bool
  | .unary _ _ | .await _ => false
  | _ => true

/-- Whether an expression is a logical one with a given kind of operator, without parentheses. -/
def isLogical (coalesce : Bool) : Expr → Bool
  | .logical op _ _ => (op == .coalesce) == coalesce
  | _ => false

/-- Joins two operands. `??` does not mix with `||` and `&&`. -/
def Infix.join : Infix → Expr → Expr → Option Expr
  | .logical op, left, right =>
    let other := op != .coalesce
    if isLogical other left || isLogical other right then none
    else some (.logical op left right)
  | .binary .power, left, right =>
    if mayBePowered left then some (.binary .power left right) else none
  | .binary op, left, right => some (.binary op left right)

/-- The level that the right operand of an operator binds above: powers group to the right, all
others to the left. -/
def rightLevel (level : Nat) : Nat := if level == 12 then 11 else level

/-- Operators above a level and their right operands, behind the left one. -/
def operators (g : Grammar) (m : Mode) (level : Nat) (left : Expr) : Parser Expr :=
  Parser.iterate g.fuel (fun left : Expr => do
    match infix? m (← Parser.peek) with
    | some (op, opLevel) =>
      if level < opLevel then
        Parser.advance
        let right ← g.operand m (rightLevel opLevel)
        let joined ← Parser.lift (op.join left right)
        return .inl joined
      else return .inr left
    | none => return .inr left) left

/-- An operand with the operators above a level. -/
def operandAbove (g : Grammar) (m : Mode) (level : Nat) : Parser Expr := do
  let next ← Parser.peek
  match next.token with
  | .privateName id =>
    Parser.check (level < comparisonLevel && m.isIn)
    Parser.advance
    Parser.expectWord "in"
    let right ← g.operand m comparisonLevel
    g.operators m level (.privateIn id right)
  | _ =>
    let left ← g.unaryExpression m
    g.operators m level left

/-! ## Assignments -/

/-- The assignment that a lexeme is. -/
def assignOp? (lexeme : Lexeme) : Option AssignOp :=
  match lexeme.punctuator? with
  | some .assign => some .set
  | some .plusAssign => some (.binary .add)
  | some .minusAssign => some (.binary .subtract)
  | some .starAssign => some (.binary .multiply)
  | some .slashAssign => some (.binary .divide)
  | some .percentAssign => some (.binary .remainder)
  | some .powerAssign => some (.binary .power)
  | some .shiftLeftAssign => some (.binary .shiftLeft)
  | some .shiftRightAssign => some (.binary .shiftRight)
  | some .shiftRightUnsignedAssign => some (.binary .shiftRightUnsigned)
  | some .ampersandAssign => some (.binary .and)
  | some .barAssign => some (.binary .or)
  | some .caretAssign => some (.binary .xor)
  | some .andAndAssign => some (.logical .and)
  | some .orOrAssign => some (.logical .or)
  | some .coalesceAssign => some (.logical .coalesce)
  | _ => none

/-- The conditional behind its test, or the test alone. -/
def conditionalRest (g : Grammar) (m : Mode) (test : Expr) : Parser Expr := do
  if ← Parser.accept .question then
    let yes ← g.assignment m.withIn
    Parser.expect .colon
    let no ← g.assignment m
    return .conditional test yes no
  else return test

/-- The assignment or the conditional behind its first part. -/
def assignmentRest (g : Grammar) (m : Mode) (left : Expr) : Parser Expr := do
  match assignOp? (← Parser.peek) with
  | some op =>
    let target ← Parser.lift <| match op with
      | .set => left.target?.filter fun p => match p with
        | .withValue _ _ => false
        | _ => true
      | _ => if left.isPlace then some (.place left) else none
    Parser.advance
    let value ← g.assignment m
    return .assign op target value
  | none => g.conditionalRest m left

/-- An expression without commas whose first operand is known. -/
def assignmentFrom (g : Grammar) (m : Mode) (operand : Expr) : Parser Expr := do
  let first ← g.postfixed m operand
  let left ← g.operators m 0 first
  g.assignmentRest m left

/-- `yield` with its operand, which a line end or a closing token makes missing. -/
def yieldRest (g : Grammar) (m : Mode) : Parser Expr := do
  Parser.expectWord "yield"
  let next ← Parser.peek
  if next.newline then return .yield false []
  else
    let delegate ← Parser.accept .star
    let next ← Parser.peek
    let ends := next.token == .finish || next.isWord "in" ||
      match next.punctuator? with
      | some .semicolon | some .closeBrace | some .closeParen | some .closeBracket
      | some .colon | some .comma => true
      | _ => false
    if ends && !delegate then return .yield false []
    else return .yield delegate [← g.assignment m]

/-- `async` before a parenthesis: a call, or the parameters of an arrow function. -/
def asyncParen (g : Grammar) (m : Mode) : Parser Expr := do
  Parser.expectWord "async"
  let start := (← Parser.peek).start
  Parser.expect .openParen
  let (items, comma) ← g.arguments m
  if ← seesArrow then
    let params ← Parser.lift (parameters? items comma)
    g.arrowRest m true params (← Parser.textFrom start)
  else g.assignmentFrom m (.call (.name "async") items false)

/-- An arrow function with a single name before its arrow. -/
def singleArrow (g : Grammar) (m : Mode) (isAsync : Bool) : Parser Expr := do
  let start := (← Parser.peek).start
  let id ← Parser.identifier { m with isAsync := m.isAsync || isAsync }
  g.arrowRest m isAsync [.bind id] (← Parser.textFrom start)

/-- What an expression without commas begins with. -/
inductive Opening where
  | arrow
  | asyncArrow
  | asyncParen
  | yields
  | paren
  | other

/-- Looks at the next tokens for what begins here. -/
def opening (m : Mode) : Parser Opening := do
  let next ← Parser.peek
  let second ← Parser.peekSecond
  match next.token with
  | .punctuator .openParen => return .paren
  | .word id escaped =>
    if second.is .arrow && !second.newline && m.allows id then return .arrow
    else if m.isGenerator && id == "yield" && !escaped then return .yields
    else if id == "async" && !escaped && !second.newline then
      if second.is .openParen then return .asyncParen
      else match second.token with
        | .word word _ =>
          let third := lex .inside second.rest
          if !reservedWords.contains word && third.is .arrow && !third.newline then
            return .asyncArrow
          else return .other
        | _ => return .other
    else return .other
  | _ => return .other

/-- An expression without commas. -/
def assignmentExpression (g : Grammar) (m : Mode) : Parser Expr := do
  match ← opening m with
  | .arrow => g.singleArrow m false
  | .asyncArrow =>
    Parser.expectWord "async"
    g.singleArrow m true
  | .asyncParen => g.asyncParen m
  | .yields => g.yieldRest m
  | .paren =>
    match ← g.parenthesized m with
    | .parameters params text => g.arrowRest m false params text
    | .value e => g.assignmentFrom m e
  | .other =>
    let left ← g.operandAbove m 0
    g.assignmentRest m left

end Collector.Script.Grammar
