import Collector.Proofs.Script.Cover

/-!
# Where the parts of an expression were read

A function, what stands in parentheses, the properties of an object with their values, and the value
of an assignment were all read in the place of the expression that holds them, and with the texts
that the tree keeps of them.
-/

namespace Collector.Script

open Collector.Script.Parser Grammar

variable {fuel level : Nat} {c c' : Cursor}

/-- What is listed was read. -/
theorem Listed.exists_of_mem {α : Type} {stop : Punctuator} {item : Parser α} {n : Nat}
    {before comma : Bool} {items : List α} (h : Listed stop item n before c items comma c') {a : α}
    (ha : a ∈ items) : ∃ d d', item d = some (a, d') := by
  induction h with
  | done _ => cases ha
  | more _ hitem _ _ ih =>
    rcases List.mem_cons.mp ha with rfl | ha
    · exact ⟨_, _, hitem⟩
    · exact ih ha
  | last _ hitem _ _ =>
    obtain rfl := List.mem_singleton.mp ha
    exact ⟨_, _, hitem⟩

/-! ## Operands -/

/-- A function expression was read as a function. -/
theorem function_of_assignment {f : Function}
    (h : (grammar fuel (level + 1)).assignment Mode.script c = some (.function f, c')) :
    (grammar fuel level).function Mode.script false c = some (f, c') := by
  rcases (assignmentExpression_whole h rfl).shape with hp | ⟨_, _, he⟩ | ⟨_, _, he⟩ | ⟨_, _, _, he⟩
  · rcases primary_whole hp rfl with ⟨_, he, -⟩ | ⟨_, _, he, -⟩ | ⟨_, _, he, -⟩ | ⟨f', he, hf⟩ |
      ⟨_, _, he, -⟩
    · cases he
    · cases he
    · cases he
    · obtain rfl := Expr.function.inj he
      exact hf
    · cases he
  all_goals cases he

/-- The properties of an object were read as properties. -/
theorem property_of_assignment {properties : List Property} {comma : Bool}
    (h : (grammar fuel (level + 1)).assignment Mode.script c =
      some (.object properties comma, c')) {p : Property} (hp : p ∈ properties) :
    ∃ d d', (grammar fuel level).property Mode.script d = some (p, d') := by
  rcases (assignmentExpression_whole h rfl).shape with hr | ⟨_, _, he⟩ | ⟨_, _, he⟩ | ⟨_, _, _, he⟩
  · rcases primary_whole hr rfl with ⟨_, he, -⟩ | ⟨_, _, he, -⟩ | ⟨properties', comma', he, -, hl⟩ |
      ⟨_, he, -⟩ | ⟨_, _, he, -⟩
    · cases he
    · cases he
    · obtain ⟨rfl, rfl⟩ := Expr.object.inj he
      obtain ⟨k, -, hl⟩ := listUntil_iff.mp hl
      exact hl.exists_of_mem hp
    · cases he
    · cases he
  all_goals cases he

/-- An expression in parentheses was read as parentheses. -/
theorem parenthesized_of_assignment {text : String} {inner : Expr}
    (h : (grammar fuel (level + 1)).assignment Mode.script c = some (.paren text inner, c')) :
    (grammar fuel level).parenthesized Mode.script c = some (.value (.paren text inner), c') := by
  cases assignmentExpression_whole h rfl with
  | operand hp =>
    rcases primary_whole hp rfl with ⟨_, he, -⟩ | ⟨_, _, he, -⟩ | ⟨_, _, he, -⟩ | ⟨_, he, -⟩ |
      ⟨_, _, -, hr⟩
    · cases he
    · cases he
    · cases he
    · cases he
    · exact hr
  | parens hr => exact hr
  | single hs =>
    obtain ⟨_, _, he⟩ := answers_singleArrow _ _ _ hs
    cases he
  | arrow _ _ _ _ ha =>
    obtain ⟨_, _, he, -⟩ := answers_arrowRest false _ _ _ _ _ ha
    cases he
  | asyncArrow _ _ he => cases he
  | assign _ _ _ ha =>
    obtain ⟨_, _, -, -, -, -, he⟩ := ha
    cases he
  | store _ _ _ he => cases he

namespace Grammar

variable {g : Grammar} {m : Mode} {e : Expr} {text : String}

theorem openParen_of_parenthesized {r : Parenthesized} (h : g.parenthesized m c = some (r, c')) :
    c.next.token = .punctuator .openParen := by
  replace h : (Parser.expect .openParen >>= fun _ => Parser.peek >>= fun inner =>
      g.parenItems m c.next.start inner.start) c = some (r, c') := h
  obtain ⟨_, c₁, hx, -⟩ := Parser.bind_eq_some.mp h
  exact (Parser.expect_eq_some.mp hx).1

/-! ## Parentheses -/

/-- More than one item in parentheses is a sequence, or parameters. -/
theorem sequence_of_items {start inner : List Char} {n : Nat} {items : List Expr}
    (hne : items ≠ [])
    (h : Parser.iterate n (g.parenStep m start inner) items c = some (.value (.paren text e), c')) :
    ∃ all, e = .sequence all := by
  have parameters (params : Option (List Pattern)) :
      Answers (fun r => ∀ text e, r = .value (.paren text e) → ∃ all, e = .sequence all)
        (asParameters start params) :=
    .last fun _ => .last fun _ => .last fun params => .last fun text => .pure nofun
  refine Answers.iterate (I := fun items => items ≠ [])
    (P := fun r => ∀ text e, r = .value (.paren text e) → ∃ all, e = .sequence all)
    (fun items hne => ?_) hne _ _ _ h text e rfl
  refine .last fun ellipsis => .ite (.last fun _ => .last fun _ => ?_) ?_
  · exact (parameters _).bind fun r hr => .pure hr
  · refine .last fun close => .ite (.last fun _ => ?_) ?_
    · exact (parameters _).bind fun r hr => .pure hr
    · refine .last fun item => .last fun comma => .ite (.pure (List.cons_ne_nil _ _)) ?_
      refine .last fun text => .last fun _ => .last fun arrow => .ite ?_ (.pure ?_)
      · exact (parameters _).bind fun r hr => .pure hr
      · obtain ⟨other, rest, rfl⟩ := List.exists_cons_of_ne_nil hne
        intro text e he
        cases he
        exact ⟨_, rfl⟩

/-- What stands alone in parentheses was read there, with the text between them. -/
theorem value_of_parenthesized (h : g.parenthesized m c = some (.value (.paren text e), c')) :
    (∃ all, e = .sequence all) ∨
      ∃ d d', g.assignment m.withIn d = some (e, d') ∧ text = slice d.next.start d'.left := by
  replace h : (Parser.expect .openParen >>= fun _ => Parser.peek >>= fun inner =>
      g.parenItems m c.next.start inner.start) c = some (.value (.paren text e), c') := h
  obtain ⟨_, d, -, h⟩ := Parser.bind_eq_some.mp h
  rw [Parser.peek_bind, parenItems_eq] at h
  cases hfuel : g.fuel with
  | zero =>
    rw [hfuel] at h
    cases h
  | succ n =>
    rw [hfuel, Parser.iterate_succ] at h
    obtain ⟨r, c₂, hs, hr⟩ := Parser.bind_eq_some.mp h
    rcases parenStep_cases hs with ⟨-, _, _, -, -, -, p, rfl, _, -, rfl⟩ |
      ⟨-, -, p, rfl, _, -, rfl⟩ | ⟨hd, hclose, -⟩
    · cases (Parser.pure_eq_some.mp hr).1
    · cases (Parser.pure_eq_some.mp hr).1
    · unfold parenStep at hs
      rw [Parser.sees_bind, Parser.peek_bind, if_neg (by simp [Lexeme.is, hd]), Parser.sees_bind,
        Parser.peek_bind, if_neg (by simp [Lexeme.is, hclose])] at hs
      obtain ⟨item, c₃, hi, hitem⟩ := Parser.bind_eq_some.mp hs
      obtain ⟨comma, c₄, hcomma, hbehind⟩ := Parser.bind_eq_some.mp hitem
      cases comma with
      | true =>
        obtain ⟨rfl, -⟩ := Parser.pure_eq_some.mp hbehind
        exact .inl (sequence_of_items (List.cons_ne_nil _ _) hr)
      | false =>
        obtain rfl : c₄ = c₃ := by
          rw [(Parser.accept_accepts .comma).run] at hcomma
          split at hcomma
          · cases hcomma
          · exact (Prod.mk.inj (Option.some.inj hcomma)).2.symm
        obtain ⟨inside, c₅, htext, hinside⟩ := Parser.bind_eq_some.mp hbehind
        obtain ⟨rfl, rfl⟩ := Prod.mk.inj (Option.some.inj htext)
        obtain ⟨_, c₆, -, hclosed⟩ := Parser.bind_eq_some.mp hinside
        obtain ⟨arrow, c₇, -, hlast⟩ := Parser.bind_eq_some.mp hclosed
        split at hlast
        · obtain ⟨p, c₈, hp, hpure⟩ := Parser.bind_eq_some.mp hlast
          obtain ⟨rfl, rfl⟩ := Parser.pure_eq_some.mp hpure
          obtain ⟨-, _, -, rfl⟩ := asParameters_eq_some hp
          cases (Parser.pure_eq_some.mp hr).1
        · obtain ⟨rfl, rfl⟩ := Parser.pure_eq_some.mp hlast
          obtain ⟨rfl, rfl⟩ :=
            Expr.paren.inj (Parenthesized.value.inj (Parser.pure_eq_some.mp hr).1)
          exact .inr ⟨d, c₄, hi, rfl⟩

/-! ## Properties -/

/-- The value of a property was read with its text, unless it is the name of the property. -/
theorem value_of_property {key : Key} {shorthand : Bool}
    (h : g.property m c = some (.field key e shorthand text, c')) :
    (∃ id, e = .name id) ∨
      ∃ d, g.assignment m.withIn d = some (e, c') ∧ text = slice d.next.start c'.left := by
  rcases property_cases h with ⟨_, -, he, -⟩ | ⟨-, mods, c₁, key', c₂, -, -, hr⟩
  · cases he
  obtain ⟨_, c₃, -, hr⟩ := Parser.bind_eq_some.mp hr
  rw [Parser.sees_bind, Parser.peek_bind] at hr
  split at hr
  · obtain ⟨f, c₄, -, hr⟩ := Parser.bind_eq_some.mp hr
    obtain ⟨_, c₅, -, hr⟩ := Parser.bind_eq_some.mp hr
    have he := (Parser.pure_eq_some.mp hr).1
    split at he <;> cases he
  · obtain ⟨colon, c₄, -, hr⟩ := Parser.bind_eq_some.mp hr
    cases colon with
    | true =>
      rw [if_pos rfl, Parser.peek_bind] at hr
      obtain ⟨value, c₅, hv, hr⟩ := Parser.bind_eq_some.mp hr
      obtain ⟨inside, c₆, ht, hr⟩ := Parser.bind_eq_some.mp hr
      obtain ⟨rfl, rfl⟩ := Prod.mk.inj (Option.some.inj ht)
      obtain ⟨he, rfl⟩ := Parser.pure_eq_some.mp hr
      obtain ⟨-, rfl, -, rfl⟩ := Property.field.inj he
      exact .inr ⟨c₄, hv, rfl⟩
    | false =>
      obtain ⟨id, c₅, -, hr⟩ := Parser.bind_eq_some.mp hr
      obtain ⟨assign, c₆, -, hr⟩ := Parser.bind_eq_some.mp hr
      split at hr
      · obtain ⟨_, c₇, -, hr⟩ := Parser.bind_eq_some.mp hr
        cases (Parser.pure_eq_some.mp hr).1
      · obtain ⟨-, rfl, -, -⟩ := Property.field.inj (Parser.pure_eq_some.mp hr).1
        exact .inl ⟨id, rfl⟩

/-- A method was read behind its name, from its parameters on. -/
theorem method_of_propertyRest {start : Lexeme} {mods : Modifiers} {key key' : Key}
    {f : Function} (h : g.propertyRest m start mods key c = some (.method key' f text, c')) :
    g.functionRest mods.isAsync mods.isGenerator none c.next.start c = some (f, c') ∧
      text = slice start.start c'.left := by
  obtain ⟨_, c₁, hcheck, h⟩ := Parser.bind_eq_some.mp h
  obtain ⟨-, rfl⟩ := Parser.check_eq_some.mp hcheck
  rw [Parser.sees_bind, Parser.peek_bind] at h
  split at h
  · obtain ⟨f', c₂, hf, h⟩ := Parser.bind_eq_some.mp h
    obtain ⟨text', c₃, ht, h⟩ := Parser.bind_eq_some.mp h
    obtain ⟨rfl, rfl⟩ := Prod.mk.inj (Option.some.inj ht)
    obtain ⟨he, rfl⟩ := Parser.pure_eq_some.mp h
    split at he
    · cases he
    · obtain ⟨-, rfl, rfl⟩ := Property.method.inj he
      exact ⟨(method_eq_some.mp hf).1, rfl⟩
  · refine ((?_ : Parser.Answers (fun p : Property => ∀ key f text, p ≠ .method key f text) _)
      _ _ _ h key' f text rfl).elim
    refine .last fun colon => .ite ?_ (.last fun id => .last fun assign => .ite ?_ ?_)
    · exact .last fun _ => .last fun _ => .last fun _ => .pure (by simp)
    · exact .last fun _ => .pure (by simp)
    · exact .pure (by simp)

/-! ## Assignments -/

section Assignments

variable {op : AssignOp} {target : Pattern} {value : Expr}

theorem value_of_assignmentRest {left : Expr} (hl : left ≠ .assign op target value)
    (h : g.assignmentRest m left c = some (.assign op target value, c')) :
    ∃ d, g.assignment m d = some (value, c') := by
  unfold assignmentRest at h
  rw [Parser.peek_bind] at h
  cases ho : assignOp? c.next with
  | some op' =>
    rw [ho] at h
    obtain ⟨_, c₁, -, h⟩ := Parser.bind_eq_some.mp h
    obtain ⟨_, c₂, -, h⟩ := Parser.bind_eq_some.mp h
    obtain ⟨value', c₃, hv, h⟩ := Parser.bind_eq_some.mp h
    obtain ⟨he, rfl⟩ := Parser.pure_eq_some.mp h
    obtain ⟨-, -, rfl⟩ := Expr.assign.inj he
    exact ⟨c₂, hv⟩
  | none =>
    rw [ho] at h
    obtain ⟨question, c₁, -, h⟩ := Parser.bind_eq_some.mp h
    split at h
    · obtain ⟨_, c₂, -, h⟩ := Parser.bind_eq_some.mp h
      obtain ⟨_, c₃, -, h⟩ := Parser.bind_eq_some.mp h
      obtain ⟨_, c₄, -, h⟩ := Parser.bind_eq_some.mp h
      cases (Parser.pure_eq_some.mp h).1
    · exact (hl (Parser.pure_eq_some.mp h).1).elim

theorem value_of_assignmentFrom {operand : Expr} (ho : operand ≠ .assign op target value)
    (h : g.assignmentFrom m operand c = some (.assign op target value, c')) :
    ∃ d, g.assignment m d = some (value, c') := by
  obtain ⟨first, c₁, hf, h⟩ := Parser.bind_eq_some.mp h
  obtain ⟨left, c₂, hl, h⟩ := Parser.bind_eq_some.mp h
  refine value_of_assignmentRest (fun he => ?_) h
  obtain ⟨rfl, rfl⟩ := operators_whole hl (by rw [he]; rfl)
  obtain ⟨rfl, rfl⟩ := postfixed_whole hf (by rw [he]; rfl)
  exact ho he

/-- The value of an assignment was read as an expression. -/
theorem value_of_assign
    (h : g.assignmentExpression m c = some (.assign op target value, c')) :
    ∃ d, g.assignment m d = some (value, c') := by
  replace h : g.assignmentBehind m (openingAt m c.next c.second) c =
      some (.assign op target value, c') := (Parser.bind_of_eq_some (opening_eq m c)).symm.trans h
  cases ho : openingAt m c.next c.second with
  | arrow =>
    rw [ho] at h
    obtain ⟨_, _, he⟩ := answers_singleArrow _ _ _ h
    cases he
  | asyncArrow =>
    rw [ho] at h
    obtain ⟨_, c₁, -, h⟩ := Parser.bind_eq_some.mp h
    obtain ⟨_, _, he⟩ := answers_singleArrow _ _ _ h
    cases he
  | asyncParen =>
    rw [ho] at h
    obtain ⟨_, c₁, -, h⟩ := Parser.bind_eq_some.mp h
    obtain ⟨next, c₂, -, h⟩ := Parser.bind_eq_some.mp h
    obtain ⟨_, c₃, -, h⟩ := Parser.bind_eq_some.mp h
    obtain ⟨⟨items, comma⟩, c₄, -, h⟩ := Parser.bind_eq_some.mp h
    obtain ⟨arrow, c₅, -, h⟩ := Parser.bind_eq_some.mp h
    cases arrow with
    | true =>
      obtain ⟨params, c₆, -, h⟩ := Parser.bind_eq_some.mp h
      obtain ⟨text, c₇, -, h⟩ := Parser.bind_eq_some.mp h
      obtain ⟨_, _, he, -⟩ := answers_arrowRest true _ _ _ _ _ h
      cases he
    | false =>
      have hcall : Expr.call (.name "async") items false ≠ .assign op target value := by simp
      exact value_of_assignmentFrom hcall h
  | yields =>
    rw [ho] at h
    exact (Builds.not_whole builds_yieldRest h rfl).elim
  | paren =>
    rw [ho] at h
    obtain ⟨r, c₁, hr, h⟩ := Parser.bind_eq_some.mp h
    cases r with
    | parameters params text =>
      obtain ⟨_, _, he, -⟩ := answers_arrowRest false _ _ _ _ _ h
      cases he
    | value operand =>
      obtain ⟨text, inner, rfl⟩ := parenthesized_value hr
      exact value_of_assignmentFrom (by simp) h
  | other =>
    rw [ho] at h
    obtain ⟨left, c₁, hl, h⟩ := Parser.bind_eq_some.mp h
    refine value_of_assignmentRest (fun he => ?_) h
    rcases primary_whole (operandAbove_whole hl (by rw [he]; rfl)) (by rw [he]; rfl) with
      ⟨_, hp, -⟩ | ⟨_, _, hp, -⟩ | ⟨_, _, hp, -⟩ | ⟨_, hp, -⟩ | ⟨_, _, hp, -⟩
    all_goals cases he.symm.trans hp

end Assignments

end Grammar

end Collector.Script
