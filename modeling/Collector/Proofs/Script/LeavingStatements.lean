import Collector.Proofs.Script.LeavingExpressions

/-!
# Statements leave their marks

In a grammar whose productions leave the marks of what they answer, so do the productions for
statements. Every level of the grammar is made from the one below, so all levels leave their marks:
`grammar_faithful`. The marks of a script stand in its text, one behind another:
`parseScript?_traces`.
-/

namespace Collector.Script

open Collector.Script.Parser

namespace Grammar

theorem skips_usingKind? (place : DeclarationPlace) : Skips (usingKind? place) :=
  .of_stay fun c _ _ h => by
    rw [usingKind?_eq] at h
    cases h
    rfl

theorem skips_headKind? : Skips headKind? :=
  .of_stay fun c _ _ h => by
    rw [headKind?_eq] at h
    cases h
    rfl

theorem skips_declarationWords (kind : DeclarationKind) : Skips (declarationWords kind) := by
  unfold declarationWords
  split
  · exact skips_advance.bind fun _ => skips_advance
  · exact skips_advance

theorem skips_seesEnd : Skips seesEnd := skips_peek.bind fun _ => .pure _

theorem skips_jumpLabel (m : Mode) : Skips (jumpLabel m) := by
  refine skips_seesEnd.bind fun _ => .ite ?_ ?_
  · exact (Skips.pure none).bind fun _ => skips_endStatement.bind fun _ => .pure _
  · exact ((skips_identifier m).map some).bind fun _ => skips_endStatement.bind fun _ => .pure _

/-! ## Imports and exports of names -/

theorem skips_outerName : Skips outerName := by
  refine skips_peek.bind fun next => ?_
  split
  · exact skips_advance.bind fun _ => .pure _
  · exact skips_advance.bind fun _ => .pure _
  · exact .failure

theorem skips_listUntil {α : Type} {g : Grammar} {stop : Punctuator} {item : Parser α}
    (h : Skips item) : Skips (g.listUntil stop item) := by
  have leaves : Leaves item fun _ => [] := fun pre => (h pre).mono fun _ => (List.append_nil _).symm
  exact fun pre => (leaves_listUntil leaves pre).mono fun found => by simp

theorem skips_importAttribute : Skips importAttribute := by
  refine skips_outerName.bind fun _ => (skips_expect _).bind fun _ => skips_peek.bind fun next => ?_
  split
  · exact skips_advance
  · exact .failure

theorem skips_sourceRest (g : Grammar) (attributes : Bool) : Skips (g.sourceRest attributes) := by
  refine .ite ?_ skips_endStatement
  refine skips_advance.bind fun _ => (skips_expect _).bind fun _ => ?_
  exact (skips_listUntil skips_importAttribute).bind fun _ => skips_endStatement

theorem skips_source (g : Grammar) : Skips g.source := by
  have rest : Skips (peek >>= fun next =>
      g.sourceRest (next.isWord "with" || (next.isWord "assert" && !next.newline))) :=
    skips_peek.bind fun _ => skips_sourceRest g _
  refine skips_peek.bind fun next => ?_
  dsimp only
  split
  · exact skips_advance.bind fun _ => rest
  · exact .failure

theorem skips_fromSource (g : Grammar) : Skips g.fromSource :=
  (skips_expectWord _).bind fun _ => skips_source g

theorem skips_importItem (m : Mode) : Skips (importItem m) := by
  refine skips_peek.bind fun _ => skips_outerName.bind fun _ => ?_
  refine (skips_acceptWord _).bind fun _ => ?_
  exact .ite ((skips_identifier m).bind fun _ => .pure _) (skips_check _)

theorem skips_importGroup (g : Grammar) (m : Mode) : Skips (g.importGroup m) := by
  refine (skips_accept _).bind fun _ => .ite ?_ ?_
  · exact (skips_expectWord _).bind fun _ => (skips_identifier m).bind fun _ => .pure _
  · refine (skips_expect _).bind fun _ => ?_
    exact (skips_listUntil (skips_importItem m)).bind fun _ => .pure _

theorem skips_importPhase : Skips importPhase := by
  refine skips_peek.bind fun _ => skips_peekSecond.bind fun _ => ?_
  exact .ite skips_advance (.ite skips_advance (.pure _))

theorem leaves_importRest (g : Grammar) (m : Mode) : Leaves (g.importRest m) Statement.words := by
  intro pre
  have imports : Adds pre (Pure.pure Statement.imports) fun s => pre ++ s.words := .pure (by simp)
  have rest : Adds pre (g.fromSource >>= fun _ => Pure.pure Statement.imports)
      fun s => pre ++ s.words := (skips_fromSource g).andThen fun _ => imports
  have group : Adds pre (g.importGroup m >>= fun _ => g.fromSource >>= fun _ =>
      Pure.pure Statement.imports) fun s => pre ++ s.words :=
    (skips_importGroup g m).andThen fun _ => rest
  refine skips_peek.andThen fun next => ?_
  dsimp only
  split
  · exact (skips_source g).andThen fun _ => imports
  · refine skips_importPhase.andThen fun _ => (skips_sees _).andThen fun _ => ?_
    refine (skips_sees _).andThen fun _ => .ite group ?_
    exact (skips_identifier m).andThen fun _ => (skips_accept _).andThen fun _ => .ite group rest

theorem skips_exportItem : Skips exportItem := by
  refine skips_outerName.bind fun _ => (skips_acceptWord _).bind fun _ => ?_
  exact .ite (skips_outerName.bind fun _ => .pure _) (.pure _)

namespace Faithful

variable {g : Grammar} (h : g.Faithful) (m : Mode)

include h

/-! ## Declarations -/

theorem declarator (kind : DeclarationKind) : Leaves (g.declarator m kind) Pattern.words := by
  refine fun pre => (h.binding m pre).bind fun pattern => (skips_check _).andThen fun _ => ?_
  refine (skips_accept _).andThen fun _ => .ite ?_ (.pure rfl)
  exact (h.assignment m _).bind fun value => .pure (by simp)

theorem declarators (kind : DeclarationKind) :
    Leaves (g.declarators m kind) fun patterns => patterns.flatMap Pattern.words := by
  intro pre
  refine .iterate (I := fun items => pre ++ items.reverse.flatMap Pattern.words) (by simp)
    fun items => (h.declarator m kind _).bind fun pattern => (skips_accept _).andThen fun _ => ?_
  exact .ite (.pure (by simp)) (.pure (by simp))

theorem declaration (kind : DeclarationKind) :
    Leaves (g.declaration m kind) Statement.words := by
  refine fun pre => (h.declarators m kind pre).bind fun patterns => ?_
  refine (skips_check _).andThen fun _ => ?_
  exact skips_endStatement.andThen fun _ => .pure (by simp)

/-! ## Parts of statements -/

theorem condition : Leaves (g.condition m) Expr.words := fun pre =>
  (skips_expect _).andThen fun _ => (h.expression m.withIn pre).bind fun _ =>
    (skips_expect _).andThen fun _ => .pure rfl

theorem single : Leaves (g.single m) Statement.words := h.statement m false

theorem expressionStatement : Leaves (g.expressionStatement m) Statement.words := by
  refine fun pre => (h.expression m.withIn pre).bind fun e => ?_
  have plain : Adds (pre ++ e.words) (endStatement >>= fun _ => Pure.pure (Statement.expression e))
      fun s => pre ++ s.words := skips_endStatement.andThen fun _ => .pure (by simp)
  split
  · refine (skips_accept _).andThen fun _ => .ite ?_ plain
    exact (h.single m _).bind fun body => .pure (by simp)
  · exact plain

/-- `let` is a name where no declaration follows. -/
theorem letStatement {inList : Bool} {pre : List Mark} {c c' d : Cursor} {s : Statement}
    (hc : c.SeesName "let") (hd : Traces pre d c) (hs : g.letStatement m inList c = some (s, c')) :
    Traces (pre ++ s.words) d c' := by
  unfold Grammar.letStatement at hs
  rw [bind_of_eq_some (peekSecond_eq c)] at hs
  split at hs
  · exact h.expressionStatement m pre _ _ _ _ hd hs
  · obtain ⟨_, c₁, ha, hrest⟩ := bind_eq_some.mp hs
    obtain ⟨hreal, rfl⟩ := advance_eq_some.mp ha
    split at hrest
    · have named : Adds (pre ++ [.word "let"])
          (endStatement >>= fun _ => Pure.pure (Statement.expression (.name "let")))
          fun s => pre ++ s.words := skips_endStatement.andThen fun _ => .pure (by simp)
      exact named _ _ _ _ (hd.snoc (.word hc)) hrest
    · have declares : Adds pre (check inList >>= fun _ => g.declaration m .letting)
          fun s => pre ++ s.words := (skips_check _).andThen fun _ => h.declaration m .letting pre
      exact declares _ _ _ _ (hd.behind hreal) hrest

theorem functionStatement (inList : Bool) :
    Leaves (g.functionStatement m inList) Statement.words := fun pre =>
  (h.function m true pre).bind fun _ => (skips_check _).andThen fun _ =>
    (skips_check _).andThen fun _ => .pure (by simp)

theorem classStatement (inList : Bool) : Leaves (g.classStatement m inList) Statement.words :=
  fun pre => (h.classOf m true pre).bind fun _ => (skips_check _).andThen fun _ => .pure (by simp)

theorem ifStatement : Leaves (g.ifStatement m) Statement.words := by
  refine fun pre => (skips_expectWord _).andThen fun _ => (h.condition m pre).bind fun test => ?_
  refine (h.single m _).bind fun yes => ?_
  have finish (no : List Statement) :
      Adds (pre ++ test.words ++ yes.words ++ no.flatMap Statement.words)
        (Pure.pure (Statement.ifElse test yes no)) fun s => pre ++ s.words := .pure (by simp)
  refine (skips_acceptWord _).andThen fun _ => .ite ?_ ?_
  · exact ((h.single m).singleton _).bind finish
  · exact (Adds.pure (by simp)).bind finish

/-! ## Loops -/

theorem whileStatement : Leaves (g.whileStatement m) Statement.words := fun pre =>
  (skips_expectWord _).andThen fun _ => (h.condition m pre).bind fun test =>
    (h.single m _).bind fun body => .pure (by simp)

theorem doStatement : Leaves (g.doStatement m) Statement.words := fun pre =>
  (skips_expectWord _).andThen fun _ => (h.single m pre).bind fun body =>
    (skips_expectWord _).andThen fun _ => (h.condition m _).bind fun test =>
      (skips_accept _).andThen fun _ => .pure (by simp)

theorem optionalExpression (stop : Punctuator) :
    Leaves (g.optionalExpression m stop) fun values => values.flatMap Expr.words := by
  refine fun pre => (skips_accept _).andThen fun _ => .ite (.pure (by simp)) ?_
  exact (h.expression m.withIn pre).bind fun e => (skips_expect _).andThen fun _ => .pure (by simp)

theorem loopRest (init : List Statement) (pre : List Mark) :
    Adds (pre ++ init.flatMap Statement.words) (g.loopRest m init) fun s => pre ++ s.words :=
  (skips_expect _).andThen fun _ => (h.optionalExpression m _ _).bind fun test =>
    (h.optionalExpression m _ _).bind fun update => (h.single m _).bind fun body =>
      .pure (by simp)

theorem forInRest (kind : Option DeclarationKind) (head : List Pattern) (pre : List Mark) :
    Adds (pre ++ head.flatMap Pattern.words) (g.forInRest m kind head) fun s => pre ++ s.words :=
  (h.expression m.withIn _).bind fun object => (skips_expect _).andThen fun _ =>
    (h.single m _).bind fun body => .pure (by simp)

theorem forOfRest (isAwait : Bool) (kind : Option DeclarationKind) (head : List Pattern)
    (pre : List Mark) : Adds (pre ++ head.flatMap Pattern.words) (g.forOfRest m isAwait kind head)
      fun s => pre ++ s.words :=
  (h.assignment m.withIn _).bind fun items => (skips_expect _).andThen fun _ =>
    (h.single m _).bind fun body => .pure (by simp)

theorem forPatterns (isAwait : Bool) (kind : DeclarationKind) (patterns : List Pattern)
    (pre : List Mark) :
    Adds (pre ++ patterns.flatMap Pattern.words) (g.forPatterns m isAwait kind patterns)
      fun s => pre ++ s.words := by
  refine (skips_acceptWord _).andThen fun _ => .ite ?_ ?_
  · exact (skips_check _).andThen fun _ => h.forInRest m _ patterns pre
  · refine (skips_acceptWord _).andThen fun _ => .ite (h.forOfRest m _ _ patterns pre) ?_
    refine (skips_check _).andThen fun _ => ?_
    simpa using h.loopRest m [.declare kind patterns] pre

theorem forDeclared (isAwait : Bool) (kind : DeclarationKind) :
    Leaves (g.forDeclared m isAwait kind) Statement.words := fun pre =>
  (skips_declarationWords kind).andThen fun _ => (h.declarators _ kind pre).bind fun patterns =>
    h.forPatterns m isAwait kind patterns pre

theorem forHead (isAwait asyncOf : Bool) (head : Expr) (pre : List Mark) :
    Adds (pre ++ head.words) (g.forHead m isAwait asyncOf head) fun s => pre ++ s.words := by
  have target {k : Pattern → Parser Statement}
      (hk : ∀ target, Adds (pre ++ [target].flatMap Pattern.words) (k target)
        fun s => pre ++ s.words) :
      Adds (pre ++ head.words) (lift head.target? >>= k) fun s => pre ++ s.words :=
    .lift fun target ht => by simpa [head.words_target? ht] using hk target
  refine (skips_acceptWord _).andThen fun _ => .ite ?_ ?_
  · exact (skips_check _).andThen fun _ => target fun _ => h.forInRest m _ _ pre
  · refine (skips_acceptWord _).andThen fun _ => .ite ?_ ?_
    · exact (skips_check _).andThen fun _ => target fun _ => h.forOfRest m _ _ _ pre
    · refine (skips_check _).andThen fun _ => ?_
      simpa using h.loopRest m [.expression head] pre

theorem forExpression (isAwait : Bool) :
    Leaves (g.forExpression m isAwait) Statement.words := fun pre =>
  skips_peek.andThen fun _ => skips_peekSecond.andThen fun _ =>
    (h.expression m.withoutIn pre).bind fun head => h.forHead m isAwait _ head pre

theorem forStatement : Leaves (g.forStatement m) Statement.words := by
  refine fun pre => (skips_expectWord _).andThen fun _ => (skips_acceptWord _).andThen fun _ => ?_
  refine (skips_check _).andThen fun _ => (skips_expect _).andThen fun _ => ?_
  refine (skips_sees _).andThen fun _ => .ite ?_ ?_
  · refine (skips_check _).andThen fun _ => ?_
    simpa using h.loopRest m [] pre
  · refine skips_headKind?.andThen fun kind => ?_
    cases kind with
    | some kind => exact h.forDeclared m _ kind pre
    | none => exact h.forExpression m _ pre

/-! ## Jumps and blocks -/

theorem returnStatement : Leaves (g.returnStatement m) Statement.words := by
  intro pre
  have finish (value : List Expr) : Adds (pre ++ value.flatMap Expr.words)
      (endStatement >>= fun _ => Pure.pure (Statement.return value)) fun s => pre ++ s.words :=
    skips_endStatement.andThen fun _ => .pure (by simp)
  refine (skips_expectWord _).andThen fun _ => (skips_check _).andThen fun _ => ?_
  refine skips_seesEnd.andThen fun _ => .ite ?_ ?_
  · exact (Adds.pure (by simp)).bind finish
  · exact ((h.expression m.withIn).singleton pre).bind finish

theorem throwStatement : Leaves (g.throwStatement m) Statement.words := fun pre =>
  (skips_expectWord _).andThen fun _ => skips_peek.andThen fun _ => (skips_check _).andThen fun _ =>
    (h.expression m.withIn pre).bind fun value => skips_endStatement.andThen fun _ =>
      .pure (by simp)

theorem caseTest : Leaves (g.caseTest m) fun test => test.flatMap Expr.words := by
  refine fun pre => (skips_acceptWord _).andThen fun _ => .ite ?_ ?_
  · exact (skips_expect _).andThen fun _ => .pure (by simp)
  · refine (skips_expectWord _).andThen fun _ => (h.expression m.withIn pre).bind fun test => ?_
    exact (skips_expect _).andThen fun _ => .pure (by simp)

theorem branch : Leaves (g.branch m) Case.words := by
  refine fun pre => (h.caseTest m pre).bind fun test => ?_
  refine .iterate (I := fun items => pre ++ test.flatMap Expr.words ++
    items.reverse.flatMap Statement.words) (by simp) fun items => skips_peek.andThen fun _ => ?_
  refine .ite (.pure (by simp)) ((h.statement m true _).bind fun s => .pure (by simp))

theorem switchStatement : Leaves (g.switchStatement m) Statement.words := by
  refine fun pre => (skips_expectWord _).andThen fun _ => (h.condition m pre).bind fun value => ?_
  refine (skips_expect _).andThen fun _ => ?_
  refine .iterate (I := fun cases => pre ++ value.words ++ cases.reverse.flatMap Case.words)
    (by simp) fun cases => (skips_accept _).andThen fun _ => .ite (.pure (by simp)) ?_
  exact (h.branch m _).bind fun c => .pure (by simp)

theorem handlerParameter :
    Leaves (g.handlerParameter m) fun param => param.flatMap Pattern.words := by
  refine fun pre => (skips_accept _).andThen fun _ => .ite ?_ (.pure (by simp))
  exact (h.binding m pre).bind fun pattern => (skips_expect _).andThen fun _ => .pure (by simp)

theorem withStatement : Leaves (g.withStatement m) Statement.words := fun pre =>
  (skips_expectWord _).andThen fun _ => (h.condition m pre).bind fun object =>
    (h.single m _).bind fun body => .pure (by simp)

theorem block : Leaves ((fun s => [Statement.block s]) <$> g.braces m)
    fun statements => statements.flatMap Statement.words :=
  (h.braces m).map fun statements => by simp

theorem tryRest (body : List Statement) (handled : Bool) (param : List Pattern)
    (handler : List Statement) (pre : List Mark) :
    Adds (pre ++ body.flatMap Statement.words ++ param.flatMap Pattern.words ++
        handler.flatMap Statement.words)
      (g.tryRest m body handled param handler) fun s => pre ++ s.words := by
  have finish (finished : Bool) (finalizer : List Statement) :
      Adds (pre ++ body.flatMap Statement.words ++ param.flatMap Pattern.words ++
          handler.flatMap Statement.words ++ finalizer.flatMap Statement.words)
        (check (handled || finished) >>= fun _ =>
          Pure.pure (Statement.try body param handler finalizer)) fun s => pre ++ s.words :=
    (skips_check _).andThen fun _ => .pure (by simp)
  refine (skips_acceptWord _).andThen fun finished => .ite ?_ ?_
  · exact (h.block m _).bind (finish finished)
  · exact (Adds.pure (by simp)).bind (finish finished)

theorem tryStatement : Leaves (g.tryStatement m) Statement.words := by
  refine fun pre => (skips_expectWord _).andThen fun _ => (h.braces m pre).bind fun body => ?_
  refine (skips_acceptWord _).andThen fun handled => ?_
  cases handled with
  | true =>
    refine (h.handlerParameter m _).bind fun param => (h.block m _).bind fun handler => ?_
    exact h.tryRest m body true param handler pre
  | false =>
    have rest := h.tryRest m body false [] [] pre
    rw [List.flatMap_nil, List.flatMap_nil, List.append_nil, List.append_nil] at rest
    exact rest

/-! ## Exports and words -/

theorem exportDefault : Leaves (g.exportDefault m) Statement.words := by
  refine fun pre => skips_peek.andThen fun _ => skips_seesFunction.andThen fun _ => ?_
  refine .ite ?_ (.ite ?_ ?_)
  · exact (h.function m true pre).bind fun f => .pure (by simp)
  · exact (h.classOf m false pre).bind fun c => .pure (by simp)
  · refine (h.assignment m.withIn pre).bind fun value => ?_
    exact skips_endStatement.andThen fun _ => .pure (by simp)

theorem exportStatement : Leaves (g.exportStatement m) Statement.words := by
  intro pre
  have finish (names : List String) : Adds pre (Pure.pure (Statement.exports [] names))
      fun s => pre ++ s.words := .pure (by simp)
  refine (skips_expectWord _).andThen fun _ => (skips_acceptWord _).andThen fun _ => .ite ?_ ?_
  · exact (h.exportDefault m pre).bind fun s => .pure (by simp)
  · refine (skips_accept _).andThen fun _ => .ite ?_ ?_
    · have rest : Adds pre (g.fromSource >>= fun _ => Pure.pure (Statement.exports [] []))
          fun s => pre ++ s.words := (skips_fromSource g).andThen fun _ => finish []
      refine (skips_acceptWord _).andThen fun _ => .ite ?_ rest
      exact skips_outerName.andThen fun _ => rest
    · refine (skips_accept _).andThen fun _ => .ite ?_ ?_
      · refine (skips_listUntil skips_exportItem).andThen fun (names, _) => ?_
        refine (skips_seesWord _).andThen fun _ => .ite ?_ ?_
        · exact (skips_fromSource g).andThen fun _ => finish []
        · exact skips_endStatement.andThen fun _ => finish _
      · refine (h.statement m true pre).bind fun s => (skips_check _).andThen fun _ => ?_
        exact .pure (by simp)

theorem importStatement : Leaves (g.importStatement m) Statement.words := by
  refine fun pre => skips_peekSecond.andThen fun _ => .ite (h.expressionStatement m pre) ?_
  exact (skips_expectWord _).andThen fun _ => leaves_importRest g m pre

/-- A statement that begins with no keyword of its own. -/
theorem otherStatement (inList : Bool) : Leaves
    (seesFunction >>= fun isFunction => if isFunction then g.functionStatement m inList
      else usingKind? .statement >>= fun kind => match kind with
        | some kind => check inList >>= fun _ => declarationWords kind >>= fun _ =>
          g.declaration m kind
        | none => g.expressionStatement m) Statement.words := by
  refine fun pre => skips_seesFunction.andThen fun _ => .ite (h.functionStatement m inList pre) ?_
  refine (skips_usingKind? _).andThen fun kind => ?_
  cases kind with
  | some kind =>
    refine (skips_check _).andThen fun _ => (skips_declarationWords kind).andThen fun _ => ?_
    exact h.declaration m kind pre
  | none => exact h.expressionStatement m pre

theorem wordStatement {inList : Bool} {word : String} {pre : List Mark} {c c' d : Cursor}
    {s : Statement} (hc : c.SeesName word) (hd : Traces pre d c)
    (hs : g.wordStatement m inList word c = some (s, c')) : Traces (pre ++ s.words) d c' := by
  have read {p : Parser Statement} (hp : Leaves p Statement.words) (hs : p c = some (s, c')) :
      Traces (pre ++ s.words) d c' := hp pre d c s c' hd hs
  unfold Grammar.wordStatement at hs
  split at hs
  · exact read (h.ifStatement m) hs
  · exact read (h.doStatement m) hs
  · exact read (h.whileStatement m) hs
  · exact read (h.forStatement m) hs
  · refine read (fun pre => ?_) hs
    exact skips_advance.andThen fun _ => (skips_jumpLabel m).andThen fun _ => .pure (by simp)
  · refine read (fun pre => ?_) hs
    exact skips_advance.andThen fun _ => (skips_jumpLabel m).andThen fun _ => .pure (by simp)
  · exact read (h.withStatement m) hs
  · exact read (h.switchStatement m) hs
  · exact read (h.throwStatement m) hs
  · exact read (h.tryStatement m) hs
  · refine read (fun pre => ?_) hs
    exact skips_advance.andThen fun _ => skips_endStatement.andThen fun _ => .pure (by simp)
  · exact read (h.classStatement m inList) hs
  · exact read (h.exportStatement m) hs
  · exact read (h.importStatement m) hs
  · exact read (h.returnStatement m) hs
  · exact h.letStatement m hc hd hs
  · exact read (fun pre => skips_advance.andThen fun _ => h.declaration m .var pre) hs
  · refine read (fun pre => ?_) hs
    exact (skips_check _).andThen fun _ => skips_advance.andThen fun _ => h.declaration m .const pre
  · exact read (h.otherStatement m inList) hs

theorem anyStatement (inList : Bool) : Leaves (g.anyStatement m inList) Statement.words := by
  intro pre d c s c' hd hs
  have read {p : Parser Statement} (hp : Leaves p Statement.words) (hs : p c = some (s, c')) :
      Traces (pre ++ s.words) d c' := hp pre d c s c' hd hs
  have expression := read (h.expressionStatement m)
  unfold Grammar.anyStatement at hs
  rw [peek_bind] at hs
  cases ht : c.next.token with
  | word word escaped =>
    rw [ht] at hs
    cases escaped with
    | false => exact h.wordStatement m ⟨false, ht⟩ hd hs
    | true => exact expression hs
  | punctuator p =>
    rw [ht] at hs
    cases p with
    | openBrace => exact read (fun pre => (h.braces m pre).bind fun b => .pure (by simp)) hs
    | semicolon => exact read (fun pre => skips_advance.andThen fun _ => .pure (by simp)) hs
    | «at» => exact read (h.classStatement m inList) hs
    | _ => exact expression hs
  | _ =>
    rw [ht] at hs
    exact expression hs

end Faithful

end Grammar

/-- Every level of the grammar leaves the marks of what it answers. -/
theorem grammar_faithful (fuel level : Nat) : (grammar fuel level).Faithful := by
  induction level with
  | zero => exact Grammar.faithful_empty
  | succ level ih =>
    exact
      { assignment := fun m => ih.assignmentExpression m
        operand := fun m above => ih.operandAbove m above
        unary := fun m => ih.unaryExpression m
        leftHand := fun m => ih.leftHandSide m
        callee := fun m => ih.newCallee m
        binding := fun m => ih.bindingTarget m
        statement := fun m inList => ih.anyStatement m inList
        isGrammar := ⟨fuel, level + 1, rfl⟩ }

/-- The marks of a script stand in its text. -/
theorem parseScript?_traces {source : String} {b : Body} (h : parseScript? source = some b) :
    ∃ c, c.next.token = .finish ∧
      Traces (Part.body b).words (.front .script source.toList) c := by
  unfold parseScript? at h
  obtain ⟨⟨found, c⟩, hb, h⟩ := Option.bind_eq_some_iff.mp h
  dsimp only at h
  split at h
  · rename_i hend
    cases h
    refine ⟨c, by simpa using (Bool.and_eq_true_iff.mp hend).1, ?_⟩
    rw [Body.words_eq]
    exact ((grammar_faithful _ _).body _).traces hb
  · cases h

end Collector.Script
