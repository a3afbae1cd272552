import Collector.Proofs.Script.Bounded

/-!
# Levels and fuel enough for a text

A recursive call of a production is made behind a token, or at most one call away from there. So the
grammars of all levels read a text of fewer than `n` characters in the same way above level `2 * n`
and fuel `n`: `alike_grammar`. The levels and the fuel of `grammarFor` are enough, so that what
any grammar reads at the front of a text, this one reads: `grammarFor_body`, `grammarFor_expression`.
-/

namespace Collector.Script

variable {α : Type} {n : Nat}

/-- The productions that two grammars hold are alike where fewer than `n` characters are left, and
their fuel is enough for the production that calls them. -/
structure Grammar.Alike (n : Nat) (g g' : Grammar) : Prop where
  fuel : n < g.fuel
  fuel' : n < g'.fuel
  assignment (m) : Parser.Alike n taking (g.assignment m) (g'.assignment m)
  operand (m level) : Parser.Alike n taking (g.operand m level) (g'.operand m level)
  unary (m) : Parser.Alike n taking (g.unary m) (g'.unary m)
  leftHand (m) : Parser.Alike n taking (g.leftHand m) (g'.leftHand m)
  callee (m) : Parser.Alike n taking (g.callee m) (g'.callee m)
  binding (m) : Parser.Alike n taking (g.binding m) (g'.binding m)
  statement (m inList) : Parser.Alike n taking (g.statement m inList) (g'.statement m inList)

namespace Grammar.Alike

open Parser.Alike (advance expect expectWord)

variable {g g' : Grammar} (h : Grammar.Alike n g g') (m : Mode)

include h

/-! ## Lists, names of properties and patterns -/

theorem commaList (first : Expr) :
    Parser.Alike n freely (g.commaList m first) (g'.commaList m first) :=
  .iterate (fun _ => .accept ((h.assignment m).bind fun _ => .pure _) (.result _)) h.fuel.le
    h.fuel'.le _

theorem expression : Parser.Alike n taking (g.expression m) (g'.expression m) :=
  (h.assignment m).lead fun first => h.commaList m first

theorem listUntil (stop : Punctuator) {item item' : Parser α}
    (hi : Parser.Alike n freely item item') :
    Parser.Alike n freely (g.listUntil stop item) (g'.listUntil stop item') := by
  refine .iterate (fun _ => .accept (.pure _) ?_) h.fuel.le h.fuel'.le _
  refine hi.bind fun _ => .accept (.pure _) ?_
  exact expect.bind fun _ => .result _

theorem key : Parser.Alike n taking (g.key m) (g'.key m) := by
  refine .peek fun l => ?_
  have take (k : Key) : Parser.Alike n taking (Parser.advance >>= fun _ => pure k)
      (Parser.advance >>= fun _ => pure k) := advance.lead fun _ => .pure k
  cases l.token with
  | word id escaped => exact take _
  | string value => exact take _
  | number value => exact take _
  | bigint digits => exact take _
  | privateName id => exact take _
  | finish => exact .failure
  | invalid => exact .failure
  | punctuator p =>
    cases p with
    | openBracket =>
      exact advance.lead fun _ => (h.assignment m.withIn).bind fun _ => expect.bind fun _ => .pure _
    | _ => exact .failure

theorem withDefault (pattern : Pattern) :
    Parser.Alike n freely (g.withDefault m pattern) (g'.withDefault m pattern) :=
  .accept ((h.assignment m.withIn).bind fun _ => .pure _) (.pure _)

theorem bindingItem : Parser.Alike n taking (g.bindingItem m) (g'.bindingItem m) :=
  (h.binding m).lead fun pattern => h.withDefault m pattern

theorem bindingRest : Parser.Alike n taking (g.bindingRest m) (g'.bindingRest m) :=
  expect.lead fun _ => (h.binding m).bind fun _ => .pure _

/-- The rest of a list, which has to stand before its closing bracket. -/
theorem bindingRest_before (p : Punctuator) : Parser.Alike n freely
    (g.bindingRest m >>= fun pattern => Parser.sees p >>= fun closes =>
      Parser.check closes >>= fun _ => pure pattern)
    (g'.bindingRest m >>= fun pattern => Parser.sees p >>= fun closes =>
      Parser.check closes >>= fun _ => pure pattern) :=
  (h.bindingRest m).bind fun pattern => .sees fun _ => .check (.pure pattern)

theorem arrayBinding : Parser.Alike n freely (g.arrayBinding m) (g'.arrayBinding m) :=
  .sees fun _ => .ite (.pure _) <| .sees fun _ =>
    .ite (h.bindingRest_before m .closeBracket) (h.bindingItem m).freely

theorem objectBinding : Parser.Alike n freely (g.objectBinding m) (g'.objectBinding m) := by
  refine .accept ?_ ?_
  · exact (Parser.Alike.identifier m).bind fun id => .sees fun _ => .check (.pure _)
  · refine .peek fun next => (h.key m).bind fun key => .accept ?_ ?_
    · exact (h.bindingItem m).bind fun _ => .pure _
    · exact .lift fun id => (h.withDefault m (.bind id)).bind fun _ => .pure _

theorem bindingTarget : Parser.Alike (n + 1) taking (g.bindingTarget m) (g'.bindingTarget m) := by
  refine .first ?_ (.first ?_ ?_)
  · exact (h.listUntil .closeBracket (h.arrayBinding m)).bind fun _ => .pure _
  · exact (h.listUntil .closeBrace (h.objectBinding m)).bind fun _ => .pure _
  · exact (Parser.Alike.identifier m).lead fun id => .pure _

/-! ## Bodies and functions -/

theorem parameter : Parser.Alike n freely (g.parameter m) (g'.parameter m) :=
  .sees fun _ => .ite (h.bindingRest_before m .closeParen) (h.bindingItem m).freely

theorem parameters : Parser.Alike n taking (g.parameters m) (g'.parameters m) :=
  .peek fun l => expect.lead fun _ => (h.listUntil .closeParen (h.parameter m)).bind fun _ =>
    (Parser.Alike.textFrom l.start).bind fun _ => .pure _

theorem item (prologue : Bool) :
    Parser.Alike n taking (g.item m prologue) (g'.item m prologue) := by
  refine .left fun before => .peek fun next => (h.statement m true).lead fun s => ?_
  refine (Parser.Alike.textFrom next.start).bind fun text => ?_
  dsimp only
  split
  · exact .pure _
  · exact .pure _

theorem body : Parser.Alike n freely (g.body m) (g'.body m) := by
  refine .iterate (fun state => .peek fun next => .ite ?_ ?_) h.fuel.le h.fuel'.le _
  · exact .left fun _ => .result _
  · exact ((h.item m state.2).lead fun x => .pure _).of_taking

theorem functionBody : Parser.Alike n taking (g.functionBody m) (g'.functionBody m) :=
  expect.lead fun _ => (h.body m).bind fun _ => expect.bind fun _ => .pure _

omit m in
theorem functionRest (isAsync isGenerator : Bool) (name : Option String) (start : List Char) :
    Parser.Alike n taking (g.functionRest isAsync isGenerator name start)
      (g'.functionRest isAsync isGenerator name start) :=
  .peek fun _ => (h.parameters _).lead fun _ => .left fun _ => .peek fun _ =>
    (h.functionBody _).bind fun _ => .pure _

omit m in
theorem method (mods : Modifiers) : Parser.Alike n taking (g.method mods) (g'.method mods) :=
  .peek fun l => (h.functionRest mods.isAsync mods.isGenerator none l.start).lead fun f =>
    .check (.pure f)

theorem functionBehind (isDeclaration : Bool) (start : List Char) (isAsync : Bool) :
    Parser.Alike (n + 1) taking (g.functionBehind m isDeclaration start isAsync)
      (g'.functionBehind m isDeclaration start isAsync) := by
  refine expectWord.behind fun _ => ?_
  have rest (isGenerator : Bool) (name : Option String) :=
    (h.functionRest isAsync isGenerator name start).freely
  have named (isGenerator : Bool) := ((Parser.Alike.identifier
    (if isDeclaration then m else functionMode isAsync isGenerator)).map some).bind
      (rest isGenerator)
  refine .accept (.sees fun _ => .ite ?_ (named true)) (.sees fun _ => .ite ?_ (named false))
  · exact rest true none
  · exact rest false none

theorem function (isDeclaration : Bool) :
    Parser.Alike (n + 1) taking (g.function m isDeclaration) (g'.function m isDeclaration) :=
  .peek fun l => .firstWord (h.functionBehind m isDeclaration l.start true).mono.freely
    (h.functionBehind m isDeclaration l.start false)

/-! ## Classes -/

theorem decorators : Parser.Alike (n + 1) freely (g.decorators m) (g'.decorators m) :=
  .iterate (fun _ => .first ((h.leftHand m).bind fun _ => .pure _) (.result _)) h.fuel h.fuel' _

theorem braces : Parser.Alike (n + 1) taking (g.braces m) (g'.braces m) :=
  expect.behind fun _ => .iterate (fun _ => .accept (.pure _)
    ((h.statement m true).lead fun _ => .pure _).of_taking) h.fuel.le h.fuel'.le _

omit m in
theorem fieldRest : Parser.Alike n freely g.fieldRest g'.fieldRest :=
  have ends (value : List Expr) :
      Parser.Alike n freely (Parser.endStatement >>= fun _ => pure value)
        (Parser.endStatement >>= fun _ => pure value) :=
    (Parser.Alike.of_follows .endStatement).bind fun _ => .pure value
  .accept (((h.assignment fieldMode).map _).bind ends) (ends [])

theorem memberRest (decorators : List Expr) (isStatic : Bool) :
    Parser.Alike n taking (g.memberRest m decorators isStatic)
      (g'.memberRest m decorators isStatic) := by
  refine (Parser.Alike.of_looks (.acceptModifier "accessor")).bind fun _ => .ite ?_ ?_
  · refine .peek fun _ => .check ((h.key m).lead fun key => ?_)
    exact h.fieldRest.bind fun _ => .pure _
  · refine (Parser.Alike.of_looks .modifiers).bind fun mods => .peek fun _ => ?_
    refine (h.key m).lead fun key => .sees fun _ => .ite (.check ?_) (.check ?_)
    · exact (h.method mods).bind fun _ => .pure _
    · exact h.fieldRest.bind fun _ => .pure _

theorem member : Parser.Alike n taking (g.member m) (g'.member m) := by
  refine (h.decorators m).mono.bind fun decorators => .peek fun next => .peekSecond fun second => ?_
  refine .ite ?_ (.ite ?_ (h.memberRest m decorators false))
  · exact advance.lead fun _ => (h.braces blockMode).mono.bind fun _ => .pure _
  · exact advance.lead fun _ => (h.memberRest m decorators true).freely

theorem members : Parser.Alike n taking (g.members m) (g'.members m) := by
  refine expect.lead fun _ => .iterate (fun items => .accept (.pure _) ?_) h.fuel.le h.fuel'.le _
  exact .accept (.pure _) ((h.member m).lead fun _ => .pure _).of_taking

theorem classRest (decorators : List Expr) (name : Option String) :
    Parser.Alike n freely (g.classRest m decorators name) (g'.classRest m decorators name) := by
  have rest (heritage : List Expr) : Parser.Alike n freely
      (g.members m >>= fun members => pure (Class.mk decorators name heritage members))
      (g'.members m >>= fun members => pure ⟨decorators, name, heritage, members⟩) :=
    (h.members m).bind fun _ => .pure _
  exact .acceptWord (((h.leftHand m).map List.singleton).bind rest) (rest [])

theorem classOf (named : Bool) :
    Parser.Alike (n + 1) taking (g.classOf m named) (g'.classOf m named) := by
  refine (h.decorators m).bind fun decorators => expectWord.behind fun _ => ?_
  refine .peek fun l => .ite (.check ?_) ?_
  · exact h.classRest m decorators none
  · exact ((Parser.Alike.identifier m).map some).bind (h.classRest m decorators)

/-! ## Literals -/

theorem templateRest (first : Quasi × Bool) :
    Parser.Alike n freely (g.templateRest m first) (g'.templateRest m first) := by
  refine .ite (.pure _) (.iterate (fun state => Parser.Alike.of_taking ?_) h.fuel.le h.fuel'.le _)
  refine (h.expression m.withIn).lead fun value => ?_
  refine (Parser.Alike.of_opens (.piece rfl)).bind fun piece => ?_
  exact .ite (.pure _) (.pure _)

theorem template : Parser.Alike n freely (g.template m) (g'.template m) := by
  intro c hc
  have run (g : Grammar) : g.template m c = (Parser.lift (quasi c.left) >>= fun r =>
    Parser.jump r.2 >>= fun _ => g.templateRest m r.1) c := by
    unfold Grammar.template Grammar.templateRest Grammar.piece
    simp only [bind_assoc, pure_bind]
    rw [Parser.left_bind]
  rw [run g, run g']
  cases hq : quasi c.left with
  | none => exact ⟨rfl, fun _ _ h => nomatch h⟩
  | some r =>
    have hle : r.2.length ≤ c.left.length := (quasi_scans.suffix hq).length_le
    obtain ⟨heq, hrest⟩ := h.templateRest m r.1 (.front .inside r.2) (Nat.lt_of_le_of_lt hle hc)
    exact ⟨heq, fun a c' ha => ⟨Nat.le_trans (hrest a c' ha).1 hle, False.elim⟩⟩

theorem plainTemplate :
    Parser.Alike (n + 1) taking (g.plainTemplate m) (g'.plainTemplate m) :=
  expect.behind fun _ => (h.template m).bind fun _ => .check (.pure _)

omit h m in
theorem regexLiteral : Parser.Alike n taking Grammar.regexLiteral Grammar.regexLiteral := by
  refine fun c _ => ⟨rfl, fun e c' he => ?_⟩
  obtain ⟨body, flags, rest, hr, -, rfl⟩ := Grammar.regexLiteral_eq_some.mp he
  have hlt : rest.length < c.left.length := by
    have hrest := (regex_scans.suffix hr).length_le
    have hstart := c.start_le_left
    cases hs : c.next.start with
    | nil =>
      rw [hs] at hr
      cases hr
    | cons d tail =>
      rw [hs] at hrest hstart
      exact Nat.lt_of_le_of_lt hrest hstart
  exact ⟨Nat.le_of_lt hlt, fun _ => hlt⟩

theorem element : Parser.Alike n taking (g.element m) (g'.element m) :=
  .accept ((h.assignment m.withIn).bind fun _ => .pure _) (h.assignment m.withIn)

theorem arrayItem : Parser.Alike n freely (g.arrayItem m) (g'.arrayItem m) :=
  .sees fun _ => .ite (.pure _) (h.element m).freely

theorem array : Parser.Alike n freely (g.array m) (g'.array m) :=
  (h.listUntil .closeBracket (h.arrayItem m)).bind fun _ => .pure _

theorem arguments : Parser.Alike n freely (g.arguments m) (g'.arguments m) :=
  h.listUntil .closeParen (h.element m).freely

theorem propertyRest (start : Lexeme) (mods : Modifiers) (key : Key) :
    Parser.Alike n freely (g.propertyRest m start mods key)
      (g'.propertyRest m start mods key) := by
  refine .check (.sees fun _ => .ite ?_ (.accept ?_ (.lift fun id => .accept ?_ (.pure _))))
  · exact (h.method mods).bind fun f =>
      (Parser.Alike.textFrom start.start).bind fun _ => .pure _
  · exact .peek fun l => (h.assignment m.withIn).bind fun _ =>
      (Parser.Alike.textFrom l.start).bind fun _ => .pure _
  · exact (h.assignment m.withIn).bind fun _ => .pure _

theorem property : Parser.Alike n freely (g.property m) (g'.property m) := by
  refine .accept ((h.assignment m.withIn).bind fun _ => .pure _) (.peek fun start => ?_)
  exact (Parser.Alike.of_looks .modifiers).bind fun mods => (h.key m).bind fun key =>
    h.propertyRest m start mods key

theorem object : Parser.Alike n freely (g.object m) (g'.object m) :=
  (h.listUntil .closeBrace (h.property m)).bind fun _ => .pure _

/-! ## Parentheses and arrow functions -/

omit h m in
theorem seesArrow {β : Type} {need : β → Prop} {k k' : Bool → Parser β}
    (hk : ∀ b, Parser.Alike n need (k b) (k' b)) :
    Parser.Alike n need (Grammar.seesArrow >>= k) (Grammar.seesArrow >>= k') :=
  .look (fun _ => rfl) hk

omit h m in
theorem asParameters (start : List Char) (params : Option (List Pattern)) :
    Parser.Alike n freely (Grammar.asParameters start params)
      (Grammar.asParameters start params) :=
  seesArrow fun _ => .check <| .lift fun _ =>
    (Parser.Alike.textFrom start).bind fun _ => .pure _

theorem parenItems (start inner : List Char) :
    Parser.Alike n freely (g.parenItems m start inner) (g'.parenItems m start inner) := by
  refine .iterate (fun items => .sees fun _ => .ite ?_ (.sees fun _ => .ite ?_ ?_))
    h.fuel.le h.fuel'.le _
  · exact (h.bindingRest m).bind fun _ => expect.bind fun _ =>
      (asParameters start _).bind fun _ => .result _
  · exact advance.bind fun _ => (asParameters start _).bind fun _ => .result _
  · refine Parser.Alike.of_taking ((h.assignment m.withIn).lead fun item => ?_)
    refine .accept (.pure _) ((Parser.Alike.textFrom inner).bind fun text => ?_)
    refine expect.bind fun _ => seesArrow fun _ => .ite ?_ (.pure _)
    exact (asParameters start _).bind fun _ => .pure _

theorem parenthesized :
    Parser.Alike (n + 1) taking (g.parenthesized m) (g'.parenthesized m) :=
  .peek fun l => expect.behind fun _ => .peek fun inner => h.parenItems m l.start inner.start

theorem parenExpression :
    Parser.Alike (n + 1) taking (g.parenExpression m) (g'.parenExpression m) := by
  refine (h.parenthesized m).lead fun r => ?_
  cases r with
  | value e => exact .pure e
  | parameters params text => exact .failure

theorem arrowRest (isAsync : Bool) (params : List Pattern) (text : String) :
    Parser.Alike n taking (g.arrowRest m isAsync params text)
      (g'.arrowRest m isAsync params text) := by
  refine seesArrow fun _ => .check (advance.lead fun _ => .sees fun _ => .ite ?_ ?_)
  · exact (h.functionBody _).bind fun _ => .pure _
  · exact .peek fun l => (h.assignment _).bind fun _ =>
      (Parser.Alike.textFrom l.start).bind fun _ => .pure _

/-! ## Operands -/

omit h in
theorem wordOperand (id : String) (escaped : Bool) :
    Parser.Alike n taking (Grammar.wordOperand m id escaped)
      (Grammar.wordOperand m id escaped) :=
  .of_opens (Agrees.wordOperand m false id escaped)

omit h m in
theorem superOperand : Parser.Alike n taking Grammar.superOperand Grammar.superOperand :=
  expectWord.lead fun _ => .peek fun _ => .check (.pure _)

theorem importOperand :
    Parser.Alike (n + 1) taking (g.importOperand m) (g'.importOperand m) := by
  have args : Parser.Alike n freely _ _ := h.arguments m
  refine expectWord.behind fun _ => .accept (.peek fun l => ?_) ?_
  · cases l.token with
    | word id escaped =>
      cases escaped with
      | true => exact .failure
      | false =>
        refine advance.bind fun _ => .ite (.pure _) (.check ?_)
        exact expect.bind fun _ => args.bind fun _ => .pure _
    | _ => exact .failure
  · exact expect.bind fun _ => args.bind fun _ => .check (.pure _)

theorem primary : Parser.Alike (n + 1) taking (g.primary m) (g'.primary m) := by
  refine .peek fun l => ?_
  have take (e : Expr) : Parser.Alike (n + 1) taking (Parser.advance >>= fun _ => pure e)
      (Parser.advance >>= fun _ => pure e) := advance.lead fun _ => .pure e
  have ofClass : Parser.Alike (n + 1) taking (Expr.classOf <$> g.classOf m false)
      (Expr.classOf <$> g'.classOf m false) := (h.classOf m false).map_taking Expr.classOf
  cases l.token with
  | number value => exact take _
  | bigint digits => exact take _
  | string value => exact take _
  | word id escaped =>
    refine .look seesFunction_eq fun _ => .ite ?_ (.ite ?_ (.ite ?_ (.ite ?_ ?_)))
    · exact (h.function m false).map_taking Expr.function
    · exact ofClass
    · exact superOperand
    · exact h.importOperand m
    · exact wordOperand m id escaped
  | privateName id => exact .failure
  | finish => exact .failure
  | invalid => exact .failure
  | punctuator p =>
    cases p with
    | openParen => exact h.parenExpression m
    | openBracket => exact advance.behind fun _ => h.array m
    | openBrace => exact advance.behind fun _ => h.object m
    | backtick => exact h.plainTemplate m
    | slash => exact regexLiteral
    | slashAssign => exact regexLiteral
    | «at» => exact ofClass
    | _ => exact .failure

/-! ## Members and calls -/

omit h m in
theorem memberOf (object : Expr) (optional : Bool) :
    Parser.Alike n taking (Grammar.memberOf object optional) (Grammar.memberOf object optional) :=
  .of_opens (Agrees.memberOf object optional)

theorem indexOf (object : Expr) (optional : Bool) :
    Parser.Alike n taking (g.indexOf m object optional) (g'.indexOf m object optional) :=
  (h.expression m.withIn).lead fun _ => expect.bind fun _ => .pure _

theorem optionalLink (object : Expr) :
    Parser.Alike n taking (g.optionalLink m object) (g'.optionalLink m object) := by
  refine .accept ?_ (.accept (h.indexOf m object true).freely (memberOf object true))
  exact (h.arguments m).bind fun _ => .pure _

/-- A link is behind a token; where there is none, nothing is taken. -/
theorem link? (calls : Bool) (chain : Chain) :
    Parser.Alike n (fun o => o.isSome = true) (g.link? m calls chain) (g'.link? m calls chain) := by
  have none : Parser.Alike n (fun o : Option Chain => o.isSome = true) (pure none) (pure none) :=
    .of_not (by simp)
  refine .peek fun l => ?_
  cases l.punctuator? with
  | none => exact none
  | some p =>
    cases p with
    | dot =>
      refine Parser.Alike.of_taking (advance.lead fun _ => ?_)
      exact (memberOf chain.value false).bind fun _ => .pure _
    | openBracket =>
      refine Parser.Alike.of_taking (advance.lead fun _ => ?_)
      exact (h.indexOf m chain.value false).bind fun _ => .pure _
    | backtick =>
      refine .check (Parser.Alike.of_taking (advance.lead fun _ => ?_))
      exact (h.template m).bind fun _ => .pure _
    | openParen =>
      refine .ite (Parser.Alike.of_taking (advance.lead fun _ => ?_)) none
      exact (h.arguments m).bind fun _ => .pure _
    | questionDot =>
      refine .ite (Parser.Alike.of_taking (advance.lead fun _ => ?_)) none
      exact (h.optionalLink m chain.value).bind fun _ => .pure _
    | _ => exact none

theorem links (calls : Bool) (operand : Expr) :
    Parser.Alike n freely (g.links m calls operand) (g'.links m calls operand) := by
  refine .iterate (fun chain => (h.link? m calls chain).bind_unless fun next => ?_) h.fuel.le
    h.fuel'.le _
  cases next with
  | some chain => exact .of_not (by simp)
  | none => exact .of_not (by simp)

theorem newRest : Parser.Alike n taking (g.newRest m) (g'.newRest m) := by
  refine .accept (expectWord.bind fun _ => .pure _) ((h.callee m).lead fun callee => ?_)
  refine .sees fun _ => .check (.accept ?_ (.pure _))
  exact (h.arguments m).bind fun _ => .pure _

theorem start : Parser.Alike (n + 1) taking (g.start m) (g'.start m) :=
  .firstWord (h.newRest m).freely (h.primary m)

theorem newCallee : Parser.Alike (n + 1) taking (g.newCallee m) (g'.newCallee m) :=
  .seesWord fun _ => .check ((h.start m).behind fun operand => h.links m false operand)

theorem leftHandSide : Parser.Alike (n + 1) taking (g.leftHandSide m) (g'.leftHandSide m) :=
  (h.start m).behind fun operand => h.links m true operand

/-! ## Operators -/

theorem postfixed (operand : Expr) :
    Parser.Alike n freely (g.postfixed m operand) (g'.postfixed m operand) := by
  refine (h.links m true operand).bind fun e => .peek fun l => ?_
  cases updateOp? l with
  | none => exact .pure _
  | some increment => exact .ite (.pure _) (.check (advance.bind fun _ => .pure _))

theorem unaryExpression :
    Parser.Alike (n + 1) taking (g.unaryExpression m) (g'.unaryExpression m) := by
  refine .peek fun l => ?_
  cases unaryOp? l with
  | some op => exact advance.behind fun _ => (h.unary m).map _
  | none =>
    cases updateOp? l with
    | some increment =>
      exact advance.behind fun _ => (h.unary m).bind fun _ => .check (.pure _)
    | none =>
      refine .ite (advance.behind fun _ => (h.unary m).map _) ?_
      exact (h.start m).behind fun operand => h.postfixed m operand

theorem operators (level : Nat) (left : Expr) :
    Parser.Alike n freely (g.operators m level left) (g'.operators m level left) := by
  refine .iterate (fun left => .peek fun l => ?_) h.fuel.le h.fuel'.le _
  cases infix? m l with
  | none => exact .result _
  | some found =>
    refine .ite (Parser.Alike.of_taking (advance.lead fun _ => ?_)) (.result _)
    exact (h.operand m _).bind fun _ => .lift fun _ => .pure _

theorem operandAbove (level : Nat) :
    Parser.Alike (n + 1) taking (g.operandAbove m level) (g'.operandAbove m level) := by
  refine .peek fun l => ?_
  have other : Parser.Alike (n + 1) taking _ _ :=
    (h.unaryExpression m).behind fun left => h.operators m level left
  cases l.token with
  | privateName id =>
    refine .check (advance.behind fun _ => expectWord.bind fun _ => ?_)
    exact (h.operand m comparisonLevel).bind fun right => h.operators m level _
  | _ => exact other

/-! ## Assignments -/

theorem conditionalRest (test : Expr) :
    Parser.Alike n freely (g.conditionalRest m test) (g'.conditionalRest m test) :=
  .accept ((h.assignment m.withIn).bind fun _ => expect.bind fun _ =>
    (h.assignment m).bind fun _ => .pure _) (.pure _)

theorem assignmentRest (left : Expr) :
    Parser.Alike n freely (g.assignmentRest m left) (g'.assignmentRest m left) := by
  refine .peek fun l => ?_
  cases assignOp? l with
  | some op =>
    exact .lift fun _ => advance.bind fun _ => (h.assignment m).bind fun _ => .pure _
  | none => exact h.conditionalRest m left

theorem assignmentFrom (operand : Expr) :
    Parser.Alike n freely (g.assignmentFrom m operand) (g'.assignmentFrom m operand) :=
  (h.postfixed m operand).bind fun first => (h.operators m 0 first).bind fun left =>
    h.assignmentRest m left

theorem yieldRest : Parser.Alike (n + 1) taking (g.yieldRest m) (g'.yieldRest m) := by
  have operand (delegate : Bool) :=
    (h.assignment m).bind fun e => Parser.Alike.pure (n := n) (Expr.yield delegate [e])
  refine expectWord.behind fun _ => .peek fun _ => .ite (.pure _) (.accept ?_ ?_)
  · exact .peek fun _ => .ite (.pure _) (operand true)
  · exact .peek fun _ => .ite (.pure _) (operand false)

theorem asyncParen : Parser.Alike (n + 1) taking (g.asyncParen m) (g'.asyncParen m) := by
  refine expectWord.behind fun _ => .peek fun l => expect.bind fun _ => ?_
  refine (h.arguments m).bind fun r => seesArrow fun _ => .ite (.lift fun params => ?_) ?_
  · exact (Parser.Alike.textFrom l.start).bind fun text => (h.arrowRest m true params text).freely
  · exact h.assignmentFrom m _

theorem singleArrow (isAsync : Bool) :
    Parser.Alike (n + 1) taking (g.singleArrow m isAsync) (g'.singleArrow m isAsync) :=
  .peek fun l => (Parser.Alike.identifier _).behind fun _ =>
    (Parser.Alike.textFrom l.start).bind fun text => (h.arrowRest m isAsync _ text).freely

theorem assignmentExpression :
    Parser.Alike (n + 1) taking (g.assignmentExpression m) (g'.assignmentExpression m) := by
  refine .look (opening_eq m) fun opening => ?_
  cases opening with
  | arrow => exact h.singleArrow m false
  | asyncArrow => exact expectWord.behind fun _ => (h.singleArrow m true).mono.freely
  | asyncParen => exact h.asyncParen m
  | yields => exact h.yieldRest m
  | paren =>
    refine (h.parenthesized m).behind fun r => ?_
    cases r with
    | parameters params text => exact (h.arrowRest m false params text).freely
    | value e => exact h.assignmentFrom m e
  | other => exact (h.operandAbove m 0).behind fun left => h.assignmentRest m left

/-! ## Parts of statements -/

theorem declarator (kind : DeclarationKind) :
    Parser.Alike n taking (g.declarator m kind) (g'.declarator m kind) :=
  (h.binding m).lead fun _ => .check <| .accept ((h.assignment m).bind fun _ => .pure _) (.pure _)

theorem declarators (kind : DeclarationKind) :
    Parser.Alike n freely (g.declarators m kind) (g'.declarators m kind) := by
  refine .iterate (fun _ => Parser.Alike.of_taking ?_) h.fuel.le h.fuel'.le _
  exact (h.declarator m kind).lead fun _ => .accept (.pure _) (.pure _)

omit h m in
theorem endStatement : Parser.Alike n freely Parser.endStatement Parser.endStatement :=
  .of_follows .endStatement

theorem declaration (kind : DeclarationKind) :
    Parser.Alike n freely (g.declaration m kind) (g'.declaration m kind) :=
  (h.declarators m kind).bind fun _ => .check <| endStatement.bind fun _ => .pure _

omit h m in
theorem declarationWords (kind : DeclarationKind) :
    Parser.Alike n taking (Grammar.declarationWords kind) (Grammar.declarationWords kind) :=
  .of_leads (declarationWords_leads kind)

theorem condition : Parser.Alike n taking (g.condition m) (g'.condition m) :=
  expect.lead fun _ => (h.expression m.withIn).bind fun _ => expect.bind fun _ => .pure _

theorem single : Parser.Alike n taking (g.single m) (g'.single m) := h.statement m false

theorem functionStatement (inList : Bool) :
    Parser.Alike (n + 1) taking (g.functionStatement m inList) (g'.functionStatement m inList) :=
  (h.function m true).lead fun _ => .check <| .check <| .pure _

theorem classStatement (inList : Bool) :
    Parser.Alike (n + 1) taking (g.classStatement m inList) (g'.classStatement m inList) :=
  (h.classOf m true).lead fun _ => .check <| .pure _

theorem ifStatement : Parser.Alike (n + 1) taking (g.ifStatement m) (g'.ifStatement m) := by
  refine expectWord.behind fun _ => (h.condition m).bind fun _ => (h.single m).bind fun _ => ?_
  exact .acceptWord (((h.single m).map List.singleton).bind fun _ => .pure _) (.pure _)

/-! ## Loops -/

theorem whileStatement : Parser.Alike (n + 1) taking (g.whileStatement m) (g'.whileStatement m) :=
  expectWord.behind fun _ => (h.condition m).bind fun _ => (h.single m).bind fun _ => .pure _

theorem doStatement : Parser.Alike (n + 1) taking (g.doStatement m) (g'.doStatement m) :=
  expectWord.behind fun _ => (h.single m).bind fun _ => expectWord.bind fun _ =>
    (h.condition m).bind fun _ => .accept (.pure _) (.pure _)

theorem optionalExpression (stop : Punctuator) :
    Parser.Alike n freely (g.optionalExpression m stop) (g'.optionalExpression m stop) :=
  .accept (.pure _) <| (h.expression m.withIn).bind fun _ => expect.bind fun _ => .pure _

theorem loopRest (init : List Statement) :
    Parser.Alike n freely (g.loopRest m init) (g'.loopRest m init) :=
  expect.bind fun _ => (h.optionalExpression m .semicolon).bind fun _ =>
    (h.optionalExpression m .closeParen).bind fun _ => (h.single m).bind fun _ => .pure _

theorem forInRest (kind : Option DeclarationKind) (head : List Pattern) :
    Parser.Alike n freely (g.forInRest m kind head) (g'.forInRest m kind head) :=
  (h.expression m.withIn).bind fun _ => expect.bind fun _ => (h.single m).bind fun _ => .pure _

theorem forOfRest (isAwait : Bool) (kind : Option DeclarationKind) (head : List Pattern) :
    Parser.Alike n freely (g.forOfRest m isAwait kind head) (g'.forOfRest m isAwait kind head) :=
  (h.assignment m.withIn).bind fun _ => expect.bind fun _ => (h.single m).bind fun _ => .pure _

theorem forDeclared (isAwait : Bool) (kind : DeclarationKind) :
    Parser.Alike n freely (g.forDeclared m isAwait kind) (g'.forDeclared m isAwait kind) := by
  refine (declarationWords kind).bind fun _ => (h.declarators m.withoutIn kind).bind fun head => ?_
  refine .acceptWord (.check (h.forInRest m _ _)) (.acceptWord (h.forOfRest m _ _ _) ?_)
  exact .check (h.loopRest m _)

theorem forExpression (isAwait : Bool) :
    Parser.Alike n freely (g.forExpression m isAwait) (g'.forExpression m isAwait) := by
  refine .peek fun _ => .peekSecond fun _ => (h.expression m.withoutIn).bind fun head => ?_
  refine .acceptWord (.check (.lift fun _ => h.forInRest m _ _)) (.acceptWord ?_ ?_)
  · exact .check (.lift fun _ => h.forOfRest m _ _ _)
  · exact .check (h.loopRest m _)

theorem forStatement : Parser.Alike (n + 1) taking (g.forStatement m) (g'.forStatement m) := by
  refine expectWord.behind fun _ => .acceptWord ?_ ?_
  all_goals
    refine .check <| expect.bind fun _ => .sees fun _ => .ite (.check (h.loopRest m [])) ?_
    refine .look headKind?_eq fun kind => ?_
    cases kind with
    | some kind => exact h.forDeclared m _ kind
    | none => exact h.forExpression m _

/-! ## Jumps and statements with blocks -/

omit h in
theorem jumpLabel : Parser.Alike n freely (Grammar.jumpLabel m) (Grammar.jumpLabel m) := by
  refine .look (fun _ => rfl) fun _ => .ite (endStatement.bind fun _ => .pure _) ?_
  exact ((Parser.Alike.identifier m).map some).bind fun _ => endStatement.bind fun _ => .pure _

theorem returnStatement :
    Parser.Alike (n + 1) taking (g.returnStatement m) (g'.returnStatement m) := by
  refine expectWord.behind fun _ => .check (.look (fun _ => rfl) fun _ => .ite ?_ ?_)
  · exact endStatement.bind fun _ => .pure _
  · exact ((h.expression m.withIn).map _).bind fun _ => endStatement.bind fun _ => .pure _

theorem throwStatement : Parser.Alike (n + 1) taking (g.throwStatement m) (g'.throwStatement m) :=
  expectWord.behind fun _ => .peek fun _ => .check <| (h.expression m.withIn).bind fun _ =>
    endStatement.bind fun _ => .pure _

theorem caseTest : Parser.Alike n taking (g.caseTest m) (g'.caseTest m) := by
  refine .acceptWord (expect.bind fun _ => .pure _) (expectWord.lead fun _ => ?_)
  exact (h.expression m.withIn).bind fun _ => expect.bind fun _ => .pure _

theorem branch : Parser.Alike n taking (g.branch m) (g'.branch m) := by
  refine (h.caseTest m).lead fun test => .iterate (fun statements => .peek fun l => ?_) h.fuel.le
    h.fuel'.le _
  exact .ite (.result _) ((h.statement m true).lead fun _ => .pure _).of_taking

theorem switchStatement :
    Parser.Alike (n + 1) taking (g.switchStatement m) (g'.switchStatement m) := by
  refine expectWord.behind fun _ => (h.condition m).bind fun _ => expect.bind fun _ => ?_
  exact .iterate (fun _ => .accept (.pure _) ((h.branch m).lead fun _ => .pure _).of_taking)
    h.fuel.le h.fuel'.le _

theorem handlerParameter :
    Parser.Alike n freely (g.handlerParameter m) (g'.handlerParameter m) :=
  .accept ((h.binding m).bind fun _ => expect.bind fun _ => .pure _) (.pure _)

theorem tryRest (body : List Statement) (handled : Bool) (param : List Pattern)
    (handler : List Statement) :
    Parser.Alike n freely (g.tryRest m body handled param handler)
      (g'.tryRest m body handled param handler) := by
  refine .acceptWord ?_ ?_
  · exact ((h.braces m).mono.map _).bind fun _ => .check (.pure _)
  · exact (Parser.Alike.pure []).bind fun _ => .check (.pure _)

theorem tryStatement : Parser.Alike (n + 1) taking (g.tryStatement m) (g'.tryStatement m) := by
  refine expectWord.behind fun _ => (h.braces m).mono.bind fun body => .acceptWord ?_ ?_
  · refine (h.handlerParameter m).bind fun param => ?_
    exact ((h.braces m).mono.map _).bind fun handler => h.tryRest m body true param handler
  · exact h.tryRest m body false [] []

theorem withStatement : Parser.Alike (n + 1) taking (g.withStatement m) (g'.withStatement m) :=
  expectWord.behind fun _ => (h.condition m).bind fun _ => (h.single m).bind fun _ => .pure _

/-! ## Imports and exports -/

omit h m in
theorem outerName : Parser.Alike n taking Grammar.outerName Grammar.outerName :=
  .of_opens Agrees.outerName

omit m in
theorem source : Parser.Alike n taking g.source g'.source := by
  refine .peek fun l => ?_
  cases l.token with
  | string value =>
    refine advance.lead fun _ => .peek fun _ => .ite (advance.bind fun _ => ?_) endStatement
    have entry : Parser.Alike n freely importAttribute importAttribute :=
      (Parser.Alike.of_opens Agrees.importAttribute).freely
    exact expect.bind fun _ => (h.listUntil .closeBrace entry).bind fun _ => endStatement
  | _ => exact .failure

omit m in
theorem fromSource : Parser.Alike n taking g.fromSource g'.fromSource :=
  expectWord.lead fun _ => h.source.freely

omit h in
theorem importItem : Parser.Alike n freely (Grammar.importItem m) (Grammar.importItem m) :=
  .peek fun _ => outerName.bind fun _ => .acceptWord
    ((Parser.Alike.identifier m).bind fun _ => .pure _) (.of_follows .check)

theorem importGroup : Parser.Alike n taking (g.importGroup m) (g'.importGroup m) := by
  refine .accept (expectWord.bind fun _ => (Parser.Alike.identifier m).bind fun _ => .pure _) ?_
  exact expect.lead fun _ => (h.listUntil .closeBrace (importItem m)).bind fun _ => .pure _

theorem importNames : Parser.Alike n taking (g.importNames m) (g'.importNames m) := by
  refine .sees fun _ => .sees fun _ => .ite (h.importGroup m) ?_
  exact (Parser.Alike.identifier m).lead fun _ => .accept (h.importGroup m).freely (.pure _)

theorem importRest : Parser.Alike n freely (g.importRest m) (g'.importRest m) := by
  rw [importRest_eq, importRest_eq]
  refine .peek fun l => ?_
  have phase : Parser.Alike n freely Grammar.importPhase Grammar.importPhase := by
    intro c hc
    have ite : Parser.Alike n freely (if phaseAt c.next c.second then Parser.advance else pure ())
      (if phaseAt c.next c.second then Parser.advance else pure ()) :=
        .ite advance.freely (.pure ())
    rw [importPhase_eq]
    exact ite c hc
  have names : Parser.Alike n freely _ _ := phase.bind fun _ => (h.importNames m).bind fun _ =>
    h.fromSource.bind fun _ => .pure Statement.imports
  cases l.token with
  | string value => exact h.source.bind fun _ => .pure _
  | _ => exact names

omit h m in
theorem exportItem : Parser.Alike n taking Grammar.exportItem Grammar.exportItem :=
  .of_opens Agrees.exportItem

theorem exportDefault : Parser.Alike n taking (g.exportDefault m) (g'.exportDefault m) := by
  refine .peek fun _ => .look seesFunction_eq fun _ => .ite ?_ (.ite ?_ ?_)
  · exact (h.function m true).mono.map_taking Statement.function
  · exact (h.classOf m false).mono.map_taking Statement.classOf
  · exact (h.assignment m.withIn).lead fun _ => endStatement.bind fun _ => .pure _

theorem exportStatement :
    Parser.Alike (n + 1) taking (g.exportStatement m) (g'.exportStatement m) := by
  have source : Parser.Alike n freely _ _ :=
    h.fromSource.bind fun _ => .pure (Statement.exports [] [])
  refine expectWord.behind fun _ => .acceptWord ?_ (.accept ?_ (.accept ?_ ?_))
  · exact (h.exportDefault m).bind fun s => .pure _
  · exact .acceptWord (outerName.bind fun _ => source) source
  · refine (h.listUntil .closeBrace exportItem.freely).bind fun r => .seesWord fun _ => ?_
    exact .ite source (endStatement.bind fun _ => .pure _)
  · exact (h.statement m true).bind fun _ => .check (.pure _)

/-! ## Statements

A statement that is an expression begins with a recursive call. -/

section Statements

variable (ha : ∀ m, Parser.Alike (n + 1) taking (g.assignment m) (g'.assignment m)) (inList : Bool)

include ha

theorem expressionStatement :
    Parser.Alike (n + 1) taking (g.expressionStatement m) (g'.expressionStatement m) := by
  have expression : Parser.Alike (n + 1) taking _ _ :=
    (ha m.withIn).behind fun first => h.commaList m.withIn first
  refine expression.behind fun e => ?_
  cases e with
  | name id =>
    exact .accept ((h.single m).bind fun _ => .pure _) (endStatement.bind fun _ => .pure _)
  | _ => exact endStatement.bind fun _ => .pure _

theorem letStatement :
    Parser.Alike (n + 1) taking (g.letStatement m inList) (g'.letStatement m inList) := by
  refine .peekSecond fun _ => .ite (h.expressionStatement m ha) (advance.behind fun _ => ?_)
  exact .ite (endStatement.bind fun _ => .pure _) (.check (h.declaration m .letting))

theorem importStatement :
    Parser.Alike (n + 1) taking (g.importStatement m) (g'.importStatement m) :=
  .peekSecond fun _ => .ite (h.expressionStatement m ha) <|
    expectWord.behind fun _ => h.importRest m

theorem wordStatement (word : String) : Parser.Alike (n + 1) taking
    (g.wordStatement m inList word) (g'.wordStatement m inList word) := by
  unfold Grammar.wordStatement
  split
  · exact h.ifStatement m
  · exact h.doStatement m
  · exact h.whileStatement m
  · exact h.forStatement m
  · exact advance.lead fun _ => (jumpLabel m).bind fun _ => .pure _
  · exact advance.lead fun _ => (jumpLabel m).bind fun _ => .pure _
  · exact h.withStatement m
  · exact h.switchStatement m
  · exact h.throwStatement m
  · exact h.tryStatement m
  · exact advance.lead fun _ => endStatement.bind fun _ => .pure _
  · exact h.classStatement m inList
  · exact h.exportStatement m
  · exact h.importStatement m ha
  · exact h.returnStatement m
  · exact h.letStatement m ha inList
  · exact advance.behind fun _ => h.declaration m .var
  · exact .check (advance.behind fun _ => h.declaration m .const)
  · refine .look seesFunction_eq fun _ => .ite (h.functionStatement m inList) ?_
    refine .look (usingKind?_eq .statement) fun kind => ?_
    cases kind with
    | none => exact h.expressionStatement m ha
    | some kind => exact .check ((declarationWords kind).behind fun _ => h.declaration m kind)

theorem anyStatement :
    Parser.Alike (n + 1) taking (g.anyStatement m inList) (g'.anyStatement m inList) := by
  refine .peek fun l => ?_
  have expression := h.expressionStatement m ha
  cases l.token with
  | word word escaped =>
    cases escaped with
    | false => exact h.wordStatement m ha inList word
    | true => exact expression
  | punctuator p =>
    cases p with
    | openBrace => exact (h.braces m).map_taking Statement.block
    | semicolon => exact advance.lead fun _ => .pure _
    | «at» => exact h.classStatement m inList
    | _ => exact expression
  | _ => exact expression

end Statements

end Grammar.Alike

/-! ## All levels -/

section Levels

open Grammar

variable {fuel fuel' level level' : Nat}

/-- Two levels are enough for one character more: one for the expressions, and one for a statement
that begins with one. -/
theorem alike_grammar (hf : n < fuel) (hf' : n < fuel') (hl : 2 * n < level)
    (hl' : 2 * n < level') : Grammar.Alike n (grammar fuel level) (grammar fuel' level') := by
  induction n generalizing level level' with
  | zero =>
    obtain ⟨level, rfl⟩ := Nat.exists_eq_add_of_lt hl
    obtain ⟨level', rfl⟩ := Nat.exists_eq_add_of_lt hl'
    exact
      { fuel := by simpa [grammar] using hf
        fuel' := by simpa [grammar] using hf'
        assignment := fun _ => .zero
        operand := fun _ _ => .zero
        unary := fun _ => .zero
        leftHand := fun _ => .zero
        callee := fun _ => .zero
        binding := fun _ => .zero
        statement := fun _ _ => .zero }
  | succ n ih =>
    obtain ⟨level, rfl⟩ := Nat.exists_eq_add_of_le' (show 2 ≤ level by omega)
    obtain ⟨level', rfl⟩ := Nat.exists_eq_add_of_le' (show 2 ≤ level' by omega)
    have below : Grammar.Alike n (grammar fuel level) (grammar fuel' level') :=
      ih (Nat.lt_of_succ_lt hf) (Nat.lt_of_succ_lt hf') (by omega) (by omega)
    have h : Grammar.Alike n (grammar fuel (level + 1)) (grammar fuel' (level' + 1)) :=
      ih (Nat.lt_of_succ_lt hf) (Nat.lt_of_succ_lt hf') (by omega) (by omega)
    exact
      { fuel := hf
        fuel' := hf'
        assignment := h.assignmentExpression
        operand := h.operandAbove
        unary := h.unaryExpression
        leftHand := h.leftHandSide
        callee := h.newCallee
        binding := h.bindingTarget
        statement := fun m inList => h.anyStatement m below.assignmentExpression inList }

/-- The grammar of a text, and a large one. -/
theorem eventually_alike (text : List Char) :
    ∀ᶠ g in large, Grammar.Alike (text.length + 1) g (grammarFor text) := by
  refine eventually_large.mpr ⟨text.length + 2, 2 * text.length + 4, fun fuel level hf hl => ?_⟩
  exact alike_grammar (by omega) (by omega) (by omega) (by omega)

variable {text : List Char} {origin : Origin} {m : Mode} {c : Cursor}

/-- What large grammars read as the body that a text begins with, the grammar of the text does. -/
theorem grammarFor_body {body : Body}
    (h : ∀ᶠ g in large, g.body m (.front origin text) = some (body, c)) :
    (grammarFor text).body m (.front origin text) = some (body, c) := by
  obtain ⟨g, hg, hbody⟩ := ((eventually_alike text).and h).exists
  rw [← hbody]
  exact ((hg.body m).eq_of_lt (Nat.lt_succ_self _)).symm

/-- What large grammars read as the expression that a text begins with, the grammar of the text
does. -/
theorem grammarFor_expression {e : Expr}
    (h : ∀ᶠ g in large, g.expression m (.front origin text) = some (e, c)) :
    (grammarFor text).expression m (.front origin text) = some (e, c) := by
  obtain ⟨g, hg, hexpression⟩ := ((eventually_alike text).and h).exists
  rw [← hexpression]
  exact ((hg.expression m).eq_of_lt (Nat.lt_succ_self _)).symm

end Levels

end Collector.Script
