import Collector.Proofs.Script.Expressions

/-!
# Expressions that no operator makes

Names, arrays, objects, functions and parentheses are read as operands, and an assignment is read
as one with its target and its value. No operator, link or call answers one of them. So where an
expression is one, its operand is the whole of it: nothing is taken behind it.

`Parser.Answers` tells what the answers of a parser have in common.
-/

namespace Collector.Script

variable {α β : Type}

/-! ## Answers -/

/-- Whatever a parser answers has a property. -/
def Parser.Answers (P : α → Prop) (p : Parser α) : Prop := ∀ c a c', p c = some (a, c') → P a

namespace Parser.Answers

variable {P : α → Prop} {Q : β → Prop} {p q : Parser α}

theorem pure {a : α} (h : P a) : Answers P (pure a : Parser α) := by
  intro c b c' hb
  obtain ⟨rfl, -⟩ := Parser.pure_eq_some.mp hb
  exact h

theorem failure : Answers P (failure : Parser α) := by
  intro c a c' h
  cases h

theorem bind {p : Parser β} {k : β → Parser α} (hp : Answers Q p)
    (hk : ∀ b, Q b → Answers P (k b)) : Answers P (p >>= k) := by
  intro c a c' h
  obtain ⟨b, c₁, hb, hr⟩ := Parser.bind_eq_some.mp h
  exact hk b (hp c b c₁ hb) c₁ a c' hr

theorem trivial : Answers (fun _ : α => True) p := fun _ _ _ _ => True.intro

/-- A parser answers what the one that is run last answers. -/
theorem last {p : Parser β} {k : β → Parser α} (hk : ∀ b, Answers P (k b)) : Answers P (p >>= k) :=
  trivial.bind fun b _ => hk b

theorem ite {condition : Prop} [Decidable condition] (hp : Answers P p) (hq : Answers P q) :
    Answers P (if condition then p else q) := by
  split
  · exact hp
  · exact hq

theorem lift {o : Option α} (h : ∀ a, o = some a → P a) : Answers P (Parser.lift o) := by
  intro c a c' ha
  exact h a (Parser.lift_eq_some.mp ha).1

/-- The states of a repetition share a property, and so do its answers. -/
theorem iterate {σ : Type} {I : σ → Prop} {n : Nat} {step : σ → Parser (σ ⊕ α)}
    (h : ∀ s, I s → Answers (Sum.elim I P) (step s)) {s : σ} (hs : I s) :
    Answers P (Parser.iterate n step s) := by
  induction n generalizing s with
  | zero => exact failure
  | succ n ih =>
    rw [Parser.iterate_succ]
    refine (h s hs).bind fun r hr => ?_
    cases r with
    | inl next => exact ih hr
    | inr a => exact .pure hr

/-- A parser that looks at the next token and then answers where it is, or moves on. -/
theorem peek_cases {k : Lexeme → Parser α} {stay : α} {c c' : Cursor} {a : α}
    (h : ∀ l, k l = Pure.pure stay ∨ Answers P (k l)) (ha : (Parser.peek >>= k) c = some (a, c')) :
    (a = stay ∧ c' = c) ∨ P a := by
  rw [Parser.peek_bind] at ha
  rcases h c.next with hstay | hk
  · rw [hstay] at ha
    obtain ⟨rfl, rfl⟩ := Parser.pure_eq_some.mp ha
    exact .inl ⟨rfl, rfl⟩
  · exact .inr (hk c a c' ha)

end Parser.Answers

/-! ## Whole expressions -/

/-- Whether an expression is one that no operator, link or call makes. -/
def Expr.isWhole : Expr → Bool
  | .name _ | .array _ _ | .object _ _ | .function _ | .arrow _ _ | .paren _ _ | .spread _
  | .hole | .assign _ _ _ => true
  | _ => false

/-- Whether a pattern is one with a default. -/
def Pattern.isDefaulted : Pattern → Bool
  | .withValue _ _ => true
  | _ => false

namespace Grammar

open Collector.Script.Parser

variable {g : Grammar} {m : Mode} {c c' : Cursor} {e : Expr}

/-- A parser that answers no whole expression. -/
abbrev Builds (p : Parser Expr) : Prop := Answers (fun e => e.isWhole = false) p

theorem Builds.not_whole {p : Parser Expr} (h : Builds p) (hp : p c = some (e, c'))
    (he : e.isWhole = true) : False := by
  exact Bool.false_ne_true ((h c e c' hp).symm.trans he)

/-! ## Links -/

theorem builds_memberOf (object : Expr) (optional : Bool) : Builds (memberOf object optional) := by
  refine .last fun next => ?_
  split
  · exact .last fun _ => .pure rfl
  · exact .last fun _ => .pure rfl
  · exact .failure

theorem builds_indexOf (object : Expr) (optional : Bool) :
    Builds (g.indexOf m object optional) :=
  .last fun _ => .last fun _ => .pure rfl

theorem builds_optionalLink (object : Expr) : Builds (g.optionalLink m object) :=
  .last fun _ => .ite (.last fun _ => .pure rfl)
    (.last fun _ => .ite (builds_indexOf object true) (builds_memberOf object true))

/-- A link makes an expression that is not whole. -/
theorem answers_link? (calls : Bool) (chain : Chain) :
    Answers (fun next => ∀ chain', next = some chain' → chain'.value.isWhole = false)
      (g.link? m calls chain) := by
  have built {value : Expr} {optional : Bool} (h : value.isWhole = false) :
      Answers (fun next => ∀ chain', next = some chain' → chain'.value.isWhole = false)
        (pure (some ⟨value, optional⟩) : Parser (Option Chain)) := by
    refine .pure fun chain' hc => ?_
    obtain rfl := Option.some.inj hc
    exact h
  refine .last fun next => ?_
  split
  · exact .last fun _ => (builds_memberOf _ _).bind fun _ h => built h
  · exact .last fun _ => (builds_indexOf _ _).bind fun _ h => built h
  · exact .last fun _ => .last fun _ => .last fun _ => built rfl
  · exact .ite (.last fun _ => .last fun _ => built rfl) (.pure nofun)
  · exact .ite (.last fun _ => (builds_optionalLink _).bind fun _ h => built h) (.pure nofun)
  · exact .pure nofun

theorem Chain.finish_isWhole {chain : Chain} (h : chain.value.isWhole = false) :
    chain.finish.isWhole = false := by
  unfold Chain.finish
  split
  · rfl
  · exact h

/-- Behind an operand that is the whole expression no link is taken. -/
theorem links_whole {calls : Bool} {operand : Expr}
    (h : g.links m calls operand c = some (e, c')) (he : e.isWhole = true) :
    e = operand ∧ c' = c := by
  unfold links at h
  generalize g.fuel = n at h
  cases n with
  | zero => cases h
  | succ n =>
    rw [Parser.iterate_succ] at h
    obtain ⟨r, c₁, hstep, hr⟩ := Parser.bind_eq_some.mp h
    obtain ⟨next, c₂, hl, hstep⟩ := Parser.bind_eq_some.mp hstep
    cases next with
    | none =>
      obtain ⟨rfl, rfl⟩ := Parser.pure_eq_some.mp hstep
      obtain ⟨rfl, rfl⟩ := Parser.pure_eq_some.mp hr
      exact ⟨rfl, (link?_none hl).1⟩
    | some chain =>
      obtain ⟨rfl, rfl⟩ := Parser.pure_eq_some.mp hstep
      refine (Builds.not_whole ?_ hr he).elim
      refine .iterate (I := fun chain => chain.value.isWhole = false) (fun chain hc => ?_)
        (answers_link? calls _ _ _ _ hl _ rfl)
      refine (answers_link? calls chain).bind fun next hnext => ?_
      cases next with
      | none => exact .pure (Chain.finish_isWhole hc)
      | some chain' => exact .pure (hnext chain' rfl)

/-! ## Operators -/

theorem Infix.join_isWhole {op : Infix} {left right joined : Expr}
    (h : op.join left right = some joined) : joined.isWhole = false := by
  unfold Infix.join at h
  split at h
  · dsimp only at h
    split at h
    · cases h
    · obtain rfl := Option.some.inj h
      rfl
  · split at h
    · obtain rfl := Option.some.inj h
      rfl
    · cases h
  · obtain rfl := Option.some.inj h
    rfl

/-- One round of reading operators. -/
def operatorStep (g : Grammar) (m : Mode) (level : Nat) (left : Expr) : Parser (Expr ⊕ Expr) := do
  match infix? m (← Parser.peek) with
  | some (op, opLevel) =>
    if level < opLevel then
      Parser.advance
      let right ← g.operand m (rightLevel opLevel)
      let joined ← Parser.lift (op.join left right)
      return .inl joined
    else return .inr left
  | none => return .inr left

theorem operators_eq (g : Grammar) (m : Mode) (level : Nat) (left : Expr) :
    g.operators m level left = Parser.iterate g.fuel (g.operatorStep m level) left := rfl

theorem operatorStep_cases {level : Nat} {left : Expr} {r : Expr ⊕ Expr}
    (h : g.operatorStep m level left c = some (r, c')) :
    (r = .inr left ∧ c' = c) ∨ ∃ joined, r = .inl joined ∧ joined.isWhole = false := by
  refine Answers.peek_cases (P := fun r => ∃ joined, r = .inl joined ∧ joined.isWhole = false)
    (fun next => ?_) h
  split
  · split
    · refine .inr (.last fun _ => .last fun right => ?_)
      exact (Answers.lift fun _ h => h).bind fun joined hj =>
        .pure ⟨joined, rfl, Infix.join_isWhole hj⟩
    · exact .inl rfl
  · exact .inl rfl

/-- Operators answer their left operand, or something that is not whole. -/
theorem operators_whole {level : Nat} {left : Expr}
    (h : g.operators m level left c = some (e, c')) (he : e.isWhole = true) :
    e = left ∧ c' = c := by
  rw [operators_eq] at h
  generalize g.fuel = n at h
  induction n generalizing left c with
  | zero => cases h
  | succ n ih =>
    rw [Parser.iterate_succ] at h
    obtain ⟨r, c₁, hstep, hr⟩ := Parser.bind_eq_some.mp h
    rcases operatorStep_cases hstep with ⟨rfl, rfl⟩ | ⟨joined, rfl, hj⟩
    · obtain ⟨rfl, rfl⟩ := Parser.pure_eq_some.mp hr
      exact ⟨rfl, rfl⟩
    · obtain ⟨rfl, -⟩ := ih hr
      exact (Bool.false_ne_true (hj.symm.trans he)).elim

/-- Operators behind an operand answer it, or something that is not whole. -/
theorem postfixed_whole {operand : Expr} (h : g.postfixed m operand c = some (e, c'))
    (he : e.isWhole = true) : e = operand ∧ c' = c := by
  obtain ⟨linked, c₁, hl, h⟩ := Parser.bind_eq_some.mp h
  have hcases : (e = linked ∧ c' = c₁) ∨ e.isWhole = false :=
    Answers.peek_cases (P := fun e => e.isWhole = false) (fun next => ?_) h
  · rcases hcases with ⟨rfl, rfl⟩ | hbuilt
    · exact links_whole hl he
    · exact (Bool.false_ne_true (hbuilt.symm.trans he)).elim
  · split
    · split
      · exact .inl rfl
      · exact .inr (.last fun _ => .last fun _ => .pure rfl)
    · exact .inl rfl

theorem builds_newRest : Builds (g.newRest m) := by
  refine .last fun dot => .ite (.last fun _ => .pure rfl) (.last fun callee => .last fun _ => ?_)
  exact .last fun _ => .last fun paren => .ite (.last fun _ => .pure rfl) (.pure rfl)

theorem start_whole (h : g.start m c = some (e, c')) (he : e.isWhole = true) :
    g.primary m c = some (e, c') := by
  unfold start at h
  by_cases hn : c.next.token = .word "new" false
  · rw [(Parser.acceptWord_accepts "new").bind_true hn] at h
    exact (Builds.not_whole builds_newRest h he).elim
  · rwa [(Parser.acceptWord_accepts "new").bind_false hn] at h

theorem unaryExpression_whole (h : g.unaryExpression m c = some (e, c')) (he : e.isWhole = true) :
    g.primary m c = some (e, c') := by
  unfold unaryExpression at h
  rw [Parser.peek_bind] at h
  cases hu : unaryOp? c.next with
  | some op =>
    rw [hu] at h
    exact (Builds.not_whole (.last fun _ => .last fun _ => .pure rfl) h he).elim
  | none =>
    cases hi : updateOp? c.next with
    | some increment =>
      rw [hu, hi] at h
      exact (Builds.not_whole (.last fun _ => .last fun _ => .last fun _ => .pure rfl) h he).elim
    | none =>
      rw [hu, hi] at h
      by_cases ha : (m.isAsync && c.next.isWord "await") = true
      · rw [if_pos ha] at h
        exact (Builds.not_whole (.last fun _ => .last fun _ => .pure rfl) h he).elim
      · rw [if_neg ha] at h
        obtain ⟨operand, c₁, hs, h⟩ := Parser.bind_eq_some.mp h
        obtain ⟨rfl, rfl⟩ := postfixed_whole h he
        exact start_whole hs he

theorem operandAbove_whole {level : Nat} (h : g.operandAbove m level c = some (e, c'))
    (he : e.isWhole = true) : g.primary m c = some (e, c') := by
  unfold operandAbove at h
  rw [Parser.peek_bind] at h
  have behind (h : (g.unaryExpression m >>= g.operators m level) c = some (e, c')) :
      g.primary m c = some (e, c') := by
    obtain ⟨left, c₁, hu, h⟩ := Parser.bind_eq_some.mp h
    obtain ⟨rfl, rfl⟩ := operators_whole h he
    exact unaryExpression_whole hu he
  cases ht : c.next.token with
  | privateName id =>
    rw [ht] at h
    simp only [Parser.bind_eq_some] at h
    obtain ⟨-, c₁, -, -, c₂, -, -, c₃, -, right, c₄, -, h⟩ := h
    obtain ⟨rfl, -⟩ := operators_whole h he
    cases he
  | _ =>
    rw [ht] at h
    exact behind h

/-! ## Assignments -/

theorem assignmentRest_cases {left : Expr} (h : g.assignmentRest m left c = some (e, c')) :
    (∃ target value, assignOp? c.next = some .set ∧ left.target? = some target ∧
        target.isDefaulted = false ∧
        g.assignment m (.front .inside c.next.rest) = some (value, c') ∧
        e = .assign .set target value) ∨
      (∃ op target value, op ≠ .set ∧ e = .assign op target value) ∨
      (∃ test yes no, e = .conditional test yes no) ∨
      (e = left ∧ c' = c ∧ assignOp? c.next = none) := by
  unfold assignmentRest at h
  rw [Parser.peek_bind] at h
  cases ho : assignOp? c.next with
  | some op =>
    rw [ho] at h
    simp only [Parser.bind_eq_some, Parser.lift_eq_some, Parser.advance_eq_some,
      Parser.pure_eq_some] at h
    obtain ⟨target, c₁, ⟨ht, rfl⟩, -, c₂, ⟨-, rfl⟩, value, c₃, hv, rfl, rfl⟩ := h
    cases op with
    | set =>
      obtain ⟨ht, hf⟩ := Option.filter_eq_some_iff.mp ht
      refine .inl ⟨target, value, rfl, ht, ?_, hv, rfl⟩
      cases target <;> first | rfl | cases hf
    | binary op => exact .inr (.inl ⟨.binary op, target, value, nofun, rfl⟩)
    | logical op => exact .inr (.inl ⟨.logical op, target, value, nofun, rfl⟩)
  | none =>
    rw [ho] at h
    change g.conditionalRest m left c = _ at h
    unfold conditionalRest at h
    by_cases hq : c.next.token = .punctuator .question
    · rw [(Parser.accept_accepts .question).bind_true hq] at h
      simp only [if_pos, Parser.bind_eq_some, Parser.pure_eq_some] at h
      obtain ⟨yes, c₁, -, -, c₂, -, no, c₃, -, rfl, -⟩ := h
      exact .inr (.inr (.inl ⟨left, yes, no, rfl⟩))
    · rw [(Parser.accept_accepts .question).bind_false hq] at h
      obtain ⟨rfl, rfl⟩ := Parser.pure_eq_some.mp h
      exact .inr (.inr (.inr ⟨rfl, rfl, rfl⟩))

/-! ## Operands -/

theorem builds_importOperand : Builds (g.importOperand m) := by
  refine .last fun _ => .last fun dot => .ite (.last fun next => ?_) ?_
  · split
    · refine .last fun _ => .ite (.pure rfl) (.last fun _ => .last fun _ => .last fun items => ?_)
      exact .pure rfl
    · exact .failure
  · exact .last fun _ => .last fun items => .last fun _ => .pure rfl

theorem builds_superOperand : Builds superOperand :=
  .last fun _ => .last fun _ => .last fun _ => .pure rfl

theorem builds_regexLiteral : Builds regexLiteral :=
  .last fun _ => .last fun _ => .last fun _ => .pure rfl

theorem builds_plainTemplate : Builds (g.plainTemplate m) :=
  .last fun _ => .last fun _ => .last fun _ => .pure rfl

theorem builds_classOf (isDeclaration : Bool) :
    Builds (Expr.classOf <$> g.classOf m isDeclaration) := by
  rw [Parser.map_eq_bind]
  exact .last fun _ => .pure rfl

theorem answers_parenItems (start inner : List Char) :
    Answers (fun r => ∀ e, r = .value e → ∃ text inner, e = .paren text inner)
      (g.parenItems m start inner) := by
  have parameters (params : Option (List Pattern)) :
      Answers (fun r => ∀ e, r = .value e → ∃ text inner, e = .paren text inner)
        (asParameters start params) :=
    .last fun _ => .last fun _ => .last fun params => .last fun text => .pure nofun
  refine .iterate (I := fun _ => True) (fun items _ => ?_) True.intro
  refine .last fun ellipsis => .ite (.last fun _ => .last fun _ => ?_) ?_
  · exact (parameters _).bind fun r hr => .pure hr
  · refine .last fun close => .ite (.last fun _ => ?_) ?_
    · exact (parameters _).bind fun r hr => .pure hr
    · refine .last fun item => .last fun comma => .ite (.pure True.intro) ?_
      refine .last fun text => .last fun _ => .last fun arrow => .ite ?_ (.pure ?_)
      · exact (parameters _).bind fun r hr => .pure hr
      · intro e he
        cases he
        exact ⟨_, _, rfl⟩

theorem parenthesized_value (h : g.parenthesized m c = some (.value e, c')) :
    ∃ text inner, e = .paren text inner := by
  have answers : Answers (fun r => ∀ e, r = .value e → ∃ text inner, e = .paren text inner)
      (g.parenthesized m) :=
    .last fun _ => .last fun _ => .last fun _ => answers_parenItems _ _
  exact answers _ _ _ h e rfl

theorem wordOperand_whole {id : String} {escaped : Bool}
    (h : wordOperand m id escaped c = some (e, c')) (he : e.isWhole = true) :
    ∃ id, e = .name id ∧ Parser.identifier m c = some (id, c') := by
  have constant {value : Expr} (hv : value.isWhole = false)
      (h : (Parser.advance >>= fun _ => pure value : Parser Expr) c = some (e, c')) :
      ∃ id, e = .name id ∧ Parser.identifier m c = some (id, c') :=
    (Builds.not_whole (.last fun _ => .pure hv) h he).elim
  have name (h : (Parser.identifier m >>= fun id => pure (.name id) : Parser Expr) c =
      some (e, c')) : ∃ id, e = .name id ∧ Parser.identifier m c = some (id, c') := by
    obtain ⟨id, c₁, hi, h⟩ := Parser.bind_eq_some.mp h
    obtain ⟨rfl, rfl⟩ := Parser.pure_eq_some.mp h
    exact ⟨id, rfl, hi⟩
  unfold wordOperand at h
  cases escaped with
  | true => exact name h
  | false =>
    simp only [Bool.false_eq_true, if_false] at h
    by_cases hthis : (id == "this") = true
    · rw [if_pos hthis] at h
      exact constant rfl h
    rw [if_neg hthis] at h
    by_cases hnull : (id == "null") = true
    · rw [if_pos hnull] at h
      exact constant rfl h
    rw [if_neg hnull] at h
    by_cases htrue : (id == "true") = true
    · rw [if_pos htrue] at h
      exact constant rfl h
    rw [if_neg htrue] at h
    by_cases hfalse : (id == "false") = true
    · rw [if_pos hfalse] at h
      exact constant rfl h
    rw [if_neg hfalse] at h
    exact name h

/-- The production for an operand that begins with a word. -/
def wordPrimary (g : Grammar) (m : Mode) (next : Lexeme) (id : String) (escaped : Bool) :
    Parser Expr := do
  if ← seesFunction then return .function (← g.function m false)
  else if next.isWord "class" then return .classOf (← g.classOf m false)
  else if next.isWord "super" then superOperand
  else if next.isWord "import" then g.importOperand m
  else wordOperand m id escaped

theorem wordPrimary_whole {next : Lexeme} {id : String} {escaped : Bool}
    (h : g.wordPrimary m next id escaped c = some (e, c')) (he : e.isWhole = true) :
    (∃ id, e = .name id ∧ Parser.identifier m c = some (id, c')) ∨
      ∃ f, e = .function f ∧ g.function m false c = some (f, c') := by
  unfold wordPrimary at h
  rw [Parser.bind_of_eq_some (seesFunction_eq c)] at h
  split at h
  · obtain ⟨f, hf, rfl⟩ := Parser.map_eq_some.mp h
    exact .inr ⟨f, rfl, hf⟩
  · split at h
    · exact (Builds.not_whole (builds_classOf false) h he).elim
    · split at h
      · exact (Builds.not_whole builds_superOperand h he).elim
      · split at h
        · exact (Builds.not_whole builds_importOperand h he).elim
        · exact .inl (wordOperand_whole h he)

/-- What an operand is that is whole. -/
theorem primary_whole (h : g.primary m c = some (e, c')) (he : e.isWhole = true) :
    (∃ id, e = .name id ∧ Parser.identifier m c = some (id, c')) ∨
      (∃ items comma, e = .array items comma ∧ c.next.token = .punctuator .openBracket ∧
        g.listUntil .closeBracket (g.arrayItem m) (.front .inside c.next.rest) =
          some ((items, comma), c')) ∨
      (∃ properties comma, e = .object properties comma ∧
        c.next.token = .punctuator .openBrace ∧
        g.listUntil .closeBrace (g.property m) (.front .inside c.next.rest) =
          some ((properties, comma), c')) ∨
      (∃ f, e = .function f ∧ g.function m false c = some (f, c')) ∨
      (∃ text inner, e = .paren text inner ∧ g.parenthesized m c = some (.value e, c')) := by
  unfold primary at h
  rw [Parser.peek_bind] at h
  cases ht : c.next.token with
  | finish => rw [ht] at h; cases h
  | invalid => rw [ht] at h; cases h
  | privateName id => rw [ht] at h; cases h
  | number value => rw [ht] at h; exact (Builds.not_whole (.last fun _ => .pure rfl) h he).elim
  | bigint digits => rw [ht] at h; exact (Builds.not_whole (.last fun _ => .pure rfl) h he).elim
  | string value => rw [ht] at h; exact (Builds.not_whole (.last fun _ => .pure rfl) h he).elim
  | word id escaped =>
    rw [ht] at h
    rcases wordPrimary_whole h he with hname | hfunction
    · exact .inl hname
    · exact .inr (.inr (.inr (.inl hfunction)))
  | punctuator p =>
    rw [ht] at h
    cases p with
    | openParen =>
      obtain ⟨r, c₁, hr, h⟩ := Parser.bind_eq_some.mp h
      cases r with
      | parameters params text => cases h
      | value inner =>
        obtain ⟨rfl, rfl⟩ := Parser.pure_eq_some.mp h
        obtain ⟨text, inner, rfl⟩ := parenthesized_value hr
        exact .inr (.inr (.inr (.inr ⟨text, inner, rfl, hr⟩)))
    | openBracket =>
      simp only [array, Parser.bind_eq_some, Parser.advance_eq_some, Parser.pure_eq_some] at h
      obtain ⟨-, c₁, ⟨-, rfl⟩, ⟨items, comma⟩, c₂, hl, rfl, rfl⟩ := h
      exact .inr (.inl ⟨items, comma, rfl, rfl, hl⟩)
    | openBrace =>
      simp only [object, Parser.bind_eq_some, Parser.advance_eq_some, Parser.pure_eq_some] at h
      obtain ⟨-, c₁, ⟨-, rfl⟩, ⟨properties, comma⟩, c₂, hl, rfl, rfl⟩ := h
      exact .inr (.inr (.inl ⟨properties, comma, rfl, rfl, hl⟩))
    | backtick => exact (Builds.not_whole builds_plainTemplate h he).elim
    | slash => exact (Builds.not_whole builds_regexLiteral h he).elim
    | slashAssign => exact (Builds.not_whole builds_regexLiteral h he).elim
    | «at» => exact (Builds.not_whole (builds_classOf false) h he).elim
    | _ => cases h

/-! ## Expressions without commas -/

theorem answers_arrowRest (isAsync : Bool) (params : List Pattern) (text : String) :
    Answers (fun e => ∃ value f, e = .arrow value f ∧ f.isAsync = isAsync)
      (g.arrowRest m isAsync params text) := by
  refine .last fun _ => .last fun _ => .last fun _ => .last fun brace => .ite ?_ ?_
  · exact .last fun body => .pure ⟨_, _, rfl, rfl⟩
  · exact .last fun _ => .last fun value => .last fun text => .pure ⟨_, _, rfl, rfl⟩

theorem builds_yieldRest : Builds (g.yieldRest m) := by
  refine .last fun _ => .last fun next => .ite (.pure rfl) (.last fun _ => .last fun next => ?_)
  exact .ite (.pure rfl) (.last fun _ => .pure rfl)

/-- An assignment with `=`, read behind its left side. -/
def Assigns (g : Grammar) (m : Mode) (left : Expr) (c c' : Cursor) (e : Expr) : Prop :=
  ∃ target value, left.target? = some target ∧ target.isDefaulted = false ∧
    assignOp? c.next = some .set ∧
    g.assignment m (.front .inside c.next.rest) = some (value, c') ∧ e = .assign .set target value

/-- What an expression without commas is that is whole. -/
inductive Whole (g : Grammar) (m : Mode) (c : Cursor) (e : Expr) (c' : Cursor) : Prop
  /-- An operand alone. -/
  | operand (h : g.primary m c = some (e, c')) (hn : assignOp? c'.next = none)
  /-- Parentheses alone. -/
  | parens (h : g.parenthesized m c = some (.value e, c'))
  | single (h : g.singleArrow m false c = some (e, c'))
  | arrow (params : List Pattern) (text : String) (c₁ : Cursor)
    (hp : g.parenthesized m c = some (.parameters params text, c₁))
    (h : g.arrowRest m false params text c₁ = some (e, c'))
  /-- An async arrow function: behind its keyword stand parentheses or a name. -/
  | asyncArrow (value : Option String) (f : Function) (h : e = .arrow value f)
    (hf : f.isAsync = true) (hw : c.next.token = .word "async" false)
    (hs : g.asyncParen m c = some (e, c') ∨ ∃ id escaped, c.second.token = .word id escaped)
  /-- An assignment with `=` to what an operand stands for. -/
  | assign (left : Expr) (c₁ : Cursor) (hl : g.primary m c = some (left, c₁))
    (h : Assigns g m left c₁ c' e)
  /-- An assignment to a place that is no single name, or one that uses the old value. -/
  | store (op : AssignOp) (target : Pattern) (value : Expr) (h : e = .assign op target value)
    (hn : op = .set → target.binding? = none)

/-- An async arrow function without parentheses has a name behind its keyword. -/
theorem openingAt_asyncArrow {next second : Lexeme} (h : openingAt m next second = .asyncArrow) :
    ∃ id escaped, second.token = .word id escaped := by
  have hnames : namesArrow second = true := by
    cases ht : next.token with
    | word id escaped =>
      rw [openingAt_word ht] at h
      generalize (second.is .arrow && !second.newline && m.allows id) = arrow at h
      generalize (m.isGenerator && id == "yield" && !escaped) = yields at h
      generalize (id == "async" && !escaped && !second.newline) = async at h
      generalize second.is .openParen = paren at h
      revert h
      cases arrow <;> cases yields <;> cases async <;> cases paren <;> cases namesArrow second <;>
        simp [wordOpening]
    | punctuator p =>
      rw [openingAt, ht] at h
      cases p <;> cases h
    | _ =>
      rw [openingAt, ht] at h
      cases h
  unfold namesArrow at hnames
  split at hnames
  next id escaped hword => exact ⟨id, escaped, hword⟩
  · cases hnames

/-- What stands for a pattern is an array, an object, an assignment or a place. -/
theorem target?_cases {target : Pattern} (h : e.target? = some target) :
    (∃ items comma patterns, e = .array items comma ∧ targetItems? comma items = some patterns ∧
        target = .array patterns) ∨
      (∃ properties comma patterns, e = .object properties comma ∧
        targetFields? comma properties = some patterns ∧ target = .object patterns) ∨
      (∃ pattern value, e = .assign .set pattern value ∧ target = .withValue pattern value) ∨
      target = .place e := by
  unfold Expr.target? at h
  split at h
  · obtain ⟨patterns, hp, rfl⟩ := Option.map_eq_some_iff.mp h
    exact .inl ⟨_, _, patterns, rfl, hp, rfl⟩
  · obtain ⟨patterns, hp, rfl⟩ := Option.map_eq_some_iff.mp h
    exact .inr (.inl ⟨_, _, patterns, rfl, hp, rfl⟩)
  · obtain rfl := Option.some.inj h
    exact .inr (.inr (.inl ⟨_, _, rfl, rfl⟩))
  · split at h
    · exact .inr (.inr (.inr (Option.some.inj h).symm))
    · cases h

/-- No new name stands in the place of what is neither whole nor a single name. -/
theorem binding?_place (h : ∀ id, e ≠ .name id) : (Pattern.place e).binding? = none := by
  cases e with
  | name id => exact (h id rfl).elim
  | _ => rfl

theorem binding?_of_not_whole {target : Pattern} (ht : e.target? = some target)
    (he : e.isWhole = false) : target.binding? = none := by
  rcases target?_cases ht with ⟨_, _, _, rfl, -⟩ | ⟨_, _, _, rfl, -⟩ | ⟨_, _, rfl, -⟩ | rfl
  · cases he
  · cases he
  · cases he
  · refine binding?_place fun id hid => ?_
    rw [hid] at he
    cases he

theorem binding?_of_paren {text : String} {inner : Expr} {target : Pattern}
    (ht : (Expr.paren text inner).target? = some target) : target.binding? = none := by
  rcases target?_cases ht with ⟨_, _, _, h, -⟩ | ⟨_, _, _, h, -⟩ | ⟨_, _, h, -⟩ | rfl
  · cases h
  · cases h
  · cases h
  · rfl

/-- An assignment or a conditional behind its first part. -/
theorem assignmentRest_whole {left : Expr} (h : g.assignmentRest m left c = some (e, c'))
    (he : e.isWhole = true) :
    Assigns g m left c c' e ∨
      (∃ op target value, op ≠ .set ∧ e = .assign op target value) ∨
      (e = left ∧ c' = c ∧ assignOp? c.next = none) := by
  rcases assignmentRest_cases h with ⟨target, value, ho, ht, hd, hv, rfl⟩ | hstore |
    ⟨_, _, _, rfl⟩ | hsame
  · exact .inl ⟨target, value, ht, hd, ho, hv, rfl⟩
  · exact .inr (.inl hstore)
  · cases he
  · exact .inr (.inr hsame)

/-- The operand of an assignment that is not read as a pattern. -/
theorem Whole.of_store {left : Expr} {c₁ : Cursor} (h : Assigns g m left c₁ c' e)
    (hl : ∀ target, left.target? = some target → target.binding? = none) : Whole g m c e c' := by
  obtain ⟨target, value, ht, -, -, -, rfl⟩ := h
  exact .store _ target value rfl fun _ => hl target ht

theorem assignmentFrom_whole {operand : Expr} (h : g.assignmentFrom m operand c = some (e, c'))
    (he : e.isWhole = true)
    (ho : ∀ target, operand.target? = some target → target.binding? = none) :
    Whole g m c₀ e c' ∨ (e = operand ∧ c' = c) := by
  obtain ⟨first, c₁, hf, h⟩ := Parser.bind_eq_some.mp h
  obtain ⟨left, c₂, hl, h⟩ := Parser.bind_eq_some.mp h
  have whole (hw : left.isWhole = true) : left = operand ∧ c₂ = c := by
    obtain ⟨rfl, rfl⟩ := operators_whole hl hw
    exact postfixed_whole hf hw
  rcases assignmentRest_whole h he with hassign | ⟨op, target, value, hop, rfl⟩ | ⟨rfl, rfl, -⟩
  · refine .inl (.of_store hassign fun target ht => ?_)
    cases hw : left.isWhole with
    | false => exact binding?_of_not_whole ht hw
    | true =>
      obtain ⟨rfl, -⟩ := whole hw
      exact ho target ht
  · exact .inl (.store op target value rfl fun hset => (hop hset).elim)
  · exact .inr (whole he)

theorem assignmentExpression_whole (h : g.assignmentExpression m c = some (e, c'))
    (he : e.isWhole = true) : Whole g m c e c' := by
  replace h : g.assignmentBehind m (openingAt m c.next c.second) c = some (e, c') :=
    (Parser.bind_of_eq_some (opening_eq m c)).symm.trans h
  cases ho : openingAt m c.next c.second with
  | arrow =>
    rw [ho] at h
    exact .single h
  | asyncArrow =>
    rw [ho] at h
    have answers : Answers (fun e => ∃ value f, e = .arrow value f ∧ f.isAsync = true)
        (g.assignmentBehind m .asyncArrow) :=
      .last fun _ => .last fun _ => .last fun _ => .last fun _ => answers_arrowRest true _ _
    obtain ⟨value, f, rfl, hf⟩ := answers _ _ _ h
    obtain ⟨_, _, hword, -⟩ := Parser.bind_eq_some.mp h
    exact .asyncArrow value f rfl hf (Parser.expectWord_eq_some.mp hword).1
      (.inr (openingAt_asyncArrow ho))
  | asyncParen =>
    rw [ho] at h
    have hparen : g.asyncParen m c = some (e, c') := h
    obtain ⟨_, c₁, hword, h⟩ := Parser.bind_eq_some.mp h
    obtain ⟨next, c₂, -, h⟩ := Parser.bind_eq_some.mp h
    obtain ⟨_, c₃, -, h⟩ := Parser.bind_eq_some.mp h
    obtain ⟨⟨items, comma⟩, c₄, -, h⟩ := Parser.bind_eq_some.mp h
    obtain ⟨arrow, c₅, -, h⟩ := Parser.bind_eq_some.mp h
    cases arrow with
    | true =>
      obtain ⟨params, c₆, -, h⟩ := Parser.bind_eq_some.mp h
      obtain ⟨text, c₇, -, h⟩ := Parser.bind_eq_some.mp h
      obtain ⟨value, f, rfl, hf⟩ := answers_arrowRest true _ _ _ _ _ h
      exact .asyncArrow value f rfl hf (Parser.expectWord_eq_some.mp hword).1 (.inl hparen)
    | false =>
      -- A call stands for no pattern of new names.
      rcases assignmentFrom_whole h he fun _ ht => binding?_of_not_whole ht rfl with hw | ⟨rfl, -⟩
      · exact hw
      · cases he
  | yields =>
    rw [ho] at h
    exact (Builds.not_whole builds_yieldRest h he).elim
  | paren =>
    rw [ho] at h
    obtain ⟨r, c₁, hr, h⟩ := Parser.bind_eq_some.mp h
    cases r with
    | parameters params text => exact .arrow params text c₁ hr h
    | value operand =>
      obtain ⟨text, inner, rfl⟩ := parenthesized_value hr
      rcases assignmentFrom_whole h he fun _ => binding?_of_paren with hw | ⟨rfl, rfl⟩
      · exact hw
      · exact .parens hr
  | other =>
    rw [ho] at h
    obtain ⟨left, c₁, hl, h⟩ := Parser.bind_eq_some.mp h
    rcases assignmentRest_whole h he with hassign | ⟨op, target, value, hop, rfl⟩ | ⟨rfl, rfl, hn⟩
    · cases hw : left.isWhole with
      | false => exact .of_store hassign fun target ht => binding?_of_not_whole ht hw
      | true => exact .assign left c₁ (operandAbove_whole hl hw) hassign
    · exact .store op target value rfl fun hset => (hop hset).elim
    · exact .operand (operandAbove_whole hl he) hn

end Grammar

end Collector.Script
