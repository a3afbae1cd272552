import Collector.Proofs.Script.Cover
import Collector.Proofs.Script.Tracing

/-!
# Patterns, functions and classes leave their marks

In a grammar whose productions leave the marks of what they answer, so do the productions for
patterns, for functions and for classes. Tokens that stand for no name, and what is decorated
without being kept, leave nothing.
-/

namespace Collector.Script

open Collector.Script.Parser

/-- One of the grammars that scripts are read with, of which every production that others call leaves
the marks of what it answers. -/
structure Grammar.Faithful (g : Grammar) : Prop where
  assignment (m : Mode) : Leaves (g.assignment m) Expr.words
  operand (m : Mode) (level : Nat) : Leaves (g.operand m level) Expr.words
  unary (m : Mode) : Leaves (g.unary m) Expr.words
  leftHand (m : Mode) : Leaves (g.leftHand m) Expr.words
  callee (m : Mode) : Leaves (g.callee m) Expr.words
  binding (m : Mode) : Leaves (g.binding m) Pattern.words
  statement (m : Mode) (inList : Bool) : Leaves (g.statement m inList) Statement.words
  isGrammar : ∃ fuel level, g = grammar fuel level

theorem Grammar.faithful_empty : Grammar.empty.Faithful where
  assignment _ := .failure
  operand _ _ := .failure
  unary _ := .failure
  leftHand _ := .failure
  callee _ := .failure
  binding _ := .failure
  statement _ _ := .failure
  isGrammar := ⟨0, 0, rfl⟩

namespace Grammar

theorem words_keyOfValue (value : Expr) : (keyOfValue value).words = value.words := by
  unfold keyOfValue
  split <;> simp

/-- A directive is a string, which leaves no marks. -/
theorem words_of_directive? {quoted : String} {s directive : Statement}
    (h : directive? quoted s = some directive) : directive.words = s.words := by
  unfold directive? at h
  split at h
  · cases h
    simp
  · cases h

theorem key_of_seesName {g : Grammar} {m : Mode} {c c' : Cursor} {id : String} {key : Key}
    (hid : c.SeesName id) (h : g.key m c = some (key, c')) : key = .name id ∧ c' = c.behind := by
  obtain ⟨escaped, hw⟩ := hid
  obtain ⟨rfl, rfl⟩ := Prod.mk.inj (Option.some.inj ((Grammar.key_of_word hw).symm.trans h))
  exact ⟨rfl, rfl⟩

theorem skips_seesFunction : Skips seesFunction :=
  .of_stay fun c _ _ h => by
    rw [seesFunction_eq c] at h
    cases h
    rfl

theorem skips_acceptModifier (word : String) : Skips (acceptModifier word) :=
  skips_peek.bind fun _ => skips_peekSecond.bind fun _ =>
    .ite (skips_advance.bind fun _ => .pure _) (.pure _)

theorem skips_modifiers : Skips modifiers := by
  refine (skips_acceptModifier _).bind fun _ => .ite (.pure _) ?_
  refine (skips_acceptModifier _).bind fun _ => .ite (.pure _) ?_
  refine Skips.bind ?_ fun _ => (skips_accept _).bind fun _ => .pure _
  exact skips_peek.bind fun _ => skips_peekSecond.bind fun _ =>
    .ite (skips_advance.bind fun _ => .pure _) (.pure _)

namespace Faithful

variable {g : Grammar} (h : g.Faithful) (m : Mode)

include h

/-! ## Expressions with commas -/

theorem commaList (first : Expr) (pre : List Mark) :
    Adds (pre ++ first.words) (g.commaList m first) fun e => pre ++ e.words := by
  refine .iterate (I := fun items => pre ++ items.reverse.flatMap Expr.words) (by simp)
    fun items => ?_
  refine (skips_accept .comma).andThen fun _ => .ite ?_ ?_
  · exact (h.assignment m _).bind fun item => .pure (by simp)
  · exact .pure (by dsimp only [Sum.elim_inr]; split <;> simp)

theorem expression : Leaves (g.expression m) Expr.words := fun pre =>
  (h.assignment m pre).bind fun first => h.commaList m first pre

/-! ## Patterns -/

theorem key : Leaves (g.key m) Key.words := by
  refine fun pre => skips_peek.andThen fun next => ?_
  split
  case h_6 =>
    refine skips_advance.andThen fun _ => (h.assignment m.withIn pre).bind fun value => ?_
    exact (skips_expect _).andThen fun _ => .pure (by rw [words_keyOfValue])
  case h_7 => exact .failure
  all_goals exact skips_advance.andThen fun _ => .pure (by simp)

theorem withDefault (pattern : Pattern) (pre : List Mark) :
    Adds (pre ++ pattern.words) (g.withDefault m pattern) fun p => pre ++ p.words := by
  refine (skips_accept _).andThen fun _ => .ite ?_ (.pure rfl)
  exact (h.assignment m.withIn _).bind fun value => .pure (by simp)

theorem bindingItem : Leaves (g.bindingItem m) Pattern.words := fun pre =>
  (h.binding m pre).bind fun pattern => h.withDefault m pattern pre

theorem bindingRest : Leaves (g.bindingRest m) Pattern.words := fun pre =>
  (skips_expect _).andThen fun _ => (h.binding m pre).bind fun pattern => .pure (by simp)

theorem arrayBinding : Leaves (g.arrayBinding m) Pattern.words := by
  refine fun pre => (skips_sees _).andThen fun _ => .ite (.pure (by simp)) ?_
  refine (skips_sees _).andThen fun _ => .ite ?_ (h.bindingItem m pre)
  refine (h.bindingRest m pre).bind fun pattern => ?_
  exact (skips_sees _).andThen fun _ => (skips_check _).andThen fun _ => .pure rfl

/-- The name of a property that stands alone is the pattern of that name, too. -/
theorem objectBinding : Leaves (g.objectBinding m) Pattern.words := by
  intro pre
  refine (skips_accept _).andThen fun _ => .ite ?_ ?_
  · refine (leaves_identifier m pre).bind fun id => (skips_sees _).andThen fun _ => ?_
    exact (skips_check _).andThen fun _ => .pure (by simp)
  · intro d c pattern c' hd hp
    rw [peek_bind] at hp
    obtain ⟨key, c₁, hk, hp⟩ := bind_eq_some.mp hp
    have hkey := h.key m pre _ _ _ _ hd hk
    by_cases hcolon : c₁.next.token = .punctuator .colon
    · rw [(accept_accepts .colon).bind_true hcolon] at hp
      have value : Adds (pre ++ key.words) (g.bindingItem m >>= fun value =>
          Pure.pure (Pattern.field key value false)) fun p => pre ++ p.words :=
        (h.bindingItem m _).bind fun value => .pure (by simp)
      exact value _ _ _ _ (hkey.behind (by rw [hcolon]; rfl)) hp
    · rw [(accept_accepts .colon).bind_false hcolon] at hp
      obtain ⟨id, c₂, hl, hdefault⟩ := bind_eq_some.mp hp
      obtain ⟨hid, rfl⟩ := lift_eq_some.mp hl
      have hsees := Lexeme.identifier?_word hid
      obtain ⟨rfl, rfl⟩ := key_of_seesName hsees hk
      have value : Adds (pre ++ [.word id]) (g.withDefault m (.bind id) >>= fun value =>
          Pure.pure (Pattern.field (.name id) value true)) fun p => pre ++ p.words :=
        (Pattern.words_bind id ▸ h.withDefault m (.bind id) pre).bind fun value => .pure (by simp)
      exact value _ _ _ _ (hd.snoc (.word hsees)) hdefault

theorem bindingTarget : Leaves (g.bindingTarget m) Pattern.words := by
  refine fun pre => (skips_accept _).andThen fun _ => .ite ?_ ?_
  · exact (leaves_listUntil (h.arrayBinding m) pre).bind fun (items, _) => .pure (by simp)
  · refine (skips_accept _).andThen fun _ => .ite ?_ ?_
    · exact (leaves_listUntil (h.objectBinding m) pre).bind fun (items, _) => .pure (by simp)
    · exact (leaves_identifier m pre).bind fun id => .pure (by simp)

/-! ## Functions -/

theorem parameter : Leaves (g.parameter m) Pattern.words := by
  refine fun pre => (skips_sees _).andThen fun _ => .ite ?_ (h.bindingItem m pre)
  refine (h.bindingRest m pre).bind fun pattern => ?_
  exact (skips_sees _).andThen fun _ => (skips_check _).andThen fun _ => .pure rfl

theorem parameters : Leaves (g.parameters m) fun found => found.1.flatMap Pattern.words := by
  refine fun pre => skips_peek.andThen fun _ => (skips_expect _).andThen fun _ => ?_
  refine (leaves_listUntil (h.parameter m) pre).bind fun (params, _) => ?_
  exact (skips_textFrom _).andThen fun _ => .pure rfl

theorem item (prologue : Bool) :
    Leaves (g.item m prologue) fun found => found.1.statement.words := by
  refine fun pre => skips_left.andThen fun _ => skips_peek.andThen fun next => ?_
  refine (h.statement m true pre).bind fun statement => (skips_textFrom _).andThen fun text => ?_
  dsimp only
  split
  · rename_i directive hdirective
    refine .pure ?_
    split at hdirective
    · split at hdirective
      · rw [words_of_directive? hdirective]
      · cases hdirective
    · cases hdirective
  · exact .pure rfl

theorem body : Leaves (g.body m) fun b => itemWords b.items := by
  intro pre
  refine .iterate (I := fun s => pre ++ itemWords s.1.reverse) (by simp [itemWords]) ?_
  rintro ⟨items, prologue⟩
  refine skips_peek.andThen fun next => .ite ?_ ?_
  · exact skips_left.andThen fun _ => .pure rfl
  · refine (h.item m prologue _).bind ?_
    rintro ⟨item, prologue'⟩
    exact .pure (by simp [itemWords])

theorem functionBody : Leaves (g.functionBody m) fun b => itemWords b.items := fun pre =>
  (skips_expect _).andThen fun _ => (h.body m pre).bind fun _ =>
    (skips_expect _).andThen fun _ => .pure rfl

omit m in
theorem functionRest (isAsync isGenerator : Bool) (name : Option String) (start : List Char) :
    Leaves (g.functionRest isAsync isGenerator name start) Function.words := by
  refine fun pre => skips_peek.andThen fun _ => (h.parameters _ pre).bind fun (params, text) => ?_
  refine skips_left.andThen fun _ => skips_peek.andThen fun _ => ?_
  exact (h.functionBody _ _).bind fun b => .pure (by simp)

omit m in
theorem method (mods : Modifiers) : Leaves (g.method mods) Function.words := fun pre =>
  skips_peek.andThen fun _ => (h.functionRest _ _ _ _ pre).bind fun _ =>
    (skips_check _).andThen fun _ => .pure rfl

theorem function (isDeclaration : Bool) : Leaves (g.function m isDeclaration) Function.words := by
  refine fun pre => skips_peek.andThen fun _ => (skips_acceptWord _).andThen fun _ => ?_
  refine (skips_expectWord _).andThen fun _ => (skips_accept _).andThen fun _ => ?_
  refine (skips_sees _).andThen fun _ => .ite ?_ ?_
  · exact (Skips.pure _).andThen fun _ => h.functionRest _ _ _ _ pre
  · exact ((skips_identifier _).map _).andThen fun _ => h.functionRest _ _ _ _ pre

/-! ## Classes -/

theorem decorators : Leaves (g.decorators m) fun items => items.flatMap Expr.words := by
  refine fun pre => .iterate (I := fun items => pre ++ items.reverse.flatMap Expr.words) (by simp)
    fun items => (skips_accept _).andThen fun _ => .ite ?_ (.pure rfl)
  exact (h.leftHand m _).bind fun e => .pure (by simp)

theorem braces : Leaves (g.braces m) fun items => items.flatMap Statement.words := by
  refine fun pre => (skips_expect _).andThen fun _ => ?_
  refine .iterate (I := fun items => pre ++ items.reverse.flatMap Statement.words) (by simp)
    fun items => (skips_accept _).andThen fun _ => .ite (.pure rfl) ?_
  exact (h.statement m true _).bind fun s => .pure (by simp)

omit m in
theorem fieldRest : Leaves g.fieldRest fun value => value.flatMap Expr.words := by
  have finish (pre : List Mark) (value : List Expr) : Adds (pre ++ value.flatMap Expr.words)
      (endStatement >>= fun _ => Pure.pure value) fun value => pre ++ value.flatMap Expr.words :=
    skips_endStatement.andThen fun _ => .pure rfl
  refine fun pre => (skips_accept _).andThen fun _ => .ite ?_ ?_
  · exact ((h.assignment _).singleton pre).bind (finish pre)
  · exact (Adds.pure (by simp)).bind (finish pre)

theorem memberRest (decorators : List Expr) (isStatic : Bool) (pre : List Mark) :
    Adds (pre ++ decorators.flatMap Expr.words) (g.memberRest m decorators isStatic)
      fun x => pre ++ x.words := by
  refine (skips_acceptModifier _).andThen fun _ => .ite ?_ ?_
  · refine skips_peek.andThen fun _ => (skips_check _).andThen fun _ => ?_
    exact (h.key m _).bind fun key => (h.fieldRest _).bind fun value => .pure (by simp)
  · refine skips_modifiers.andThen fun mods => skips_peek.andThen fun _ => ?_
    refine (h.key m _).bind fun key => (skips_sees _).andThen fun _ => .ite ?_ ?_
    · exact (skips_check _).andThen fun _ => (h.method _ _).bind fun f => .pure (by simp)
    · exact (skips_check _).andThen fun _ => (h.fieldRest _).bind fun value => .pure (by simp)

/-- What decorates a block of a class is not kept. -/
theorem member : Leaves (g.member m) Member.words := by
  intro pre d c x c' hd hx
  obtain ⟨decorators, c₁, hdecorators, hx⟩ := bind_eq_some.mp hx
  have htraces := (h.decorators m).traces hdecorators
  rw [peek_bind, bind_of_eq_some (peekSecond_eq c₁)] at hx
  split at hx
  · have block : Adds pre (advance >>= fun _ => g.braces blockMode >>= fun statements =>
        Pure.pure (Member.staticBlock statements)) fun x => pre ++ x.words :=
      skips_advance.andThen fun _ => (h.braces _ _).bind fun statements => .pure (by simp)
    refine block d c₁ x c' ?_ hx
    simpa using hd.trans htraces.forget
  · have hkept := hd.trans htraces
    split at hx
    · exact (skips_advance.andThen fun _ => h.memberRest m decorators true pre) d c₁ x c' hkept hx
    · exact h.memberRest m decorators false pre d c₁ x c' hkept hx

theorem members : Leaves (g.members m) fun items => items.flatMap Member.words := by
  refine fun pre => (skips_expect _).andThen fun _ => ?_
  refine .iterate (I := fun items => pre ++ items.reverse.flatMap Member.words) (by simp)
    fun items => (skips_accept _).andThen fun _ => .ite (.pure rfl) ?_
  refine (skips_accept _).andThen fun _ => .ite (.pure rfl) ?_
  exact (h.member m _).bind fun x => .pure (by simp)

theorem classRest (decorators : List Expr) (name : Option String) (pre : List Mark) :
    Adds (pre ++ decorators.flatMap Expr.words) (g.classRest m decorators name)
      fun c => pre ++ c.words := by
  have finish (heritage : List Expr) :
      Adds (pre ++ decorators.flatMap Expr.words ++ heritage.flatMap Expr.words)
        (g.members m >>= fun members => Pure.pure (Class.mk decorators name heritage members))
        fun c => pre ++ c.words :=
    (h.members m _).bind fun members => .pure (by simp)
  refine (skips_acceptWord _).andThen fun _ => .ite ?_ ?_
  · exact ((h.leftHand m).singleton _).bind finish
  · exact (Adds.pure (by simp)).bind finish

theorem classOf (named : Bool) : Leaves (g.classOf m named) Class.words := by
  refine fun pre => (h.decorators m pre).bind fun decorators => ?_
  have rest (name : Option String) := h.classRest m decorators name pre
  refine (skips_expectWord _).andThen fun _ => skips_peek.andThen fun next => .ite ?_ ?_
  · exact (skips_check _).andThen fun _ => (Skips.pure _).andThen rest
  · exact ((skips_identifier m).map _).andThen rest

end Faithful
end Grammar
end Collector.Script
