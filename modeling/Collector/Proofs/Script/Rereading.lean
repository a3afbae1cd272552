import Collector.Proofs.Script.Answering
import Collector.Proofs.Script.Enough

/-!
# Functions that are read again

The text of a portable function is read again as that function: as a declaration, where it is a
script (`DeclaresOnly.parseScript?_eq`), and as a function expression, where it is an expression
(`Function.Portable.parseExpression?_eq`).
-/

namespace Collector

open Script

namespace Script

/-! ## Declarations -/

/-- What large grammars read as one declaration is read as a script, if no default is pending. -/
theorem DeclaresOnly.parseScript?_eq {text : String} {f : Function} (h : DeclaresOnly text f)
    (hpending : f.tree.isPending = false) :
    parseScript? text = some ⟨[⟨"", text, .function f⟩], ""⟩ := by
  obtain ⟨c, hc, hbody⟩ := h
  have htree : (Body.mk [⟨"", text, .function f⟩] "").tree.isPending = false := by
    show (Tree.node .other [f.tree]).isPending = false
    rw [Tree.isPending_other, List.any_cons, List.any_nil, Bool.or_false, hpending]
  refine Option.bind_eq_some_iff.mpr ⟨_, grammarFor_body hbody, ?_⟩
  simp [hc, htree]

/-! ## Expressions -/

/-- What large grammars read as an expression at the end of a text is the expression that the text
is, if no default is pending. -/
theorem parseExpression?_of_eventually {text : String} {e : Expr} {c : Cursor}
    (h : ∀ᶠ g in large, g.expression Mode.script (.front .expression text.toList) = some (e, c))
    (hc : c.next.token = .finish) (hpending : e.tree.isPending = false) :
    parseExpression? text = some e := by
  refine Option.bind_eq_some_iff.mpr ⟨_, grammarFor_expression h, ?_⟩
  simp [hc, hpending]

namespace Grammar

variable {g : Grammar} {m : Mode} {c c' : Cursor} {f : Function}

/-- An operand alone, where nothing goes on with it. -/
theorem assignmentExpression_primary {e : Expr} (hf : 0 < g.fuel)
    (ho : openingAt m c.next c.second = .other) (hu : unaryOp? c.next = none)
    (hup : updateOp? c.next = none) (hw : ∀ word, word = "new" ∨ word = "await" →
      c.next.isWord word = false) (hp : ∀ id, c.next.token ≠ .privateName id)
    (h : g.primary m c = some (e, c')) (he : EndsValue c'.next.token) :
    g.assignmentExpression m c = some (e, c') := by
  have hstart : g.start m c = some (e, c') := by
    have hnew : c.next.token ≠ .word "new" false := fun h => by
      simpa [Lexeme.isWord, h] using hw "new" (.inl rfl)
    unfold start
    rw [(Parser.acceptWord_accepts "new").bind_false hnew]
    exact h
  have hunary : g.unaryExpression m c = some (e, c') := by
    unfold unaryExpression
    rw [Parser.peek_bind, hu, hup]
    simp only [hw "await" (.inr rfl), Bool.and_false, Bool.false_eq_true, if_false]
    exact (Parser.bind_of_eq_some hstart).trans (postfixed_ended hf he)
  have hoperand : g.operandAbove m 0 c = some (e, c') := by
    unfold operandAbove
    rw [Parser.peek_bind]
    cases ht : c.next.token with
    | privateName id => exact absurd ht (hp id)
    | _ => exact (Parser.bind_of_eq_some hunary).trans (operators_ended hf he 0)
  refine (Parser.bind_of_eq_some (opening_eq m c)).trans ?_
  rw [ho]
  exact (Parser.bind_of_eq_some hoperand).trans (assignmentRest_ended he)

/-- A function expression, where nothing goes on with it. -/
theorem assignmentExpression_function (hf : 0 < g.fuel)
    (hw : c.next.token = .word "function" false) (ha : c.second.is .arrow = false)
    (h : g.function m false c = some (f, c')) (he : EndsValue c'.next.token) :
    g.assignmentExpression m c = some (.function f, c') := by
  have hprimary : g.primary m c = some (.function f, c') := by
    unfold primary
    rw [Parser.peek_bind, hw]
    dsimp only
    rw [Parser.bind_of_eq_some (seesFunction_eq c), functionAt, Lexeme.isWord, hw]
    simp only [beq_self_eq_true, Bool.true_or, if_true]
    exact Parser.bind_of_eq_some h
  refine assignmentExpression_primary hf ?_ ?_ ?_ ?_ ?_ hprimary he
  · rw [openingAt, hw]
    simp [ha]
  · rw [unaryOp?, hw]
    rfl
  · rw [updateOp?, hw]
  · rintro word (rfl | rfl) <;> rw [Lexeme.isWord, hw] <;> rfl
  · intro id hprivate
    rw [hw] at hprivate
    cases hprivate

end Grammar

namespace Function.Portable

variable {f : Function} {name : String} (h : f.Portable name)

include h

/-- The text of a portable function, as an expression, is that function. -/
theorem parseExpression?_eq (hpending : f.tree.isPending = false) :
    parseExpression? f.source = some (.function f) := by
  obtain ⟨tail, hsource, hread⟩ := h.functionRest_declared []
  rw [List.append_nil] at hsource
  have hnext : (Cursor.front .expression (declarationText name tail)).next =
      ⟨.word "function" false, true, declarationText name tail,
        ' ' :: (name.toList ++ '(' :: tail)⟩ := lex_declaration .expression name tail
  have hsecond : (Cursor.front .expression (declarationText name tail)).second =
      ⟨.word name false, false, name.toList ++ '(' :: tail, '(' :: tail⟩ := by
    rw [Cursor.second_of_real (by rw [hnext]; rfl), hnext]
    exact lex_declared h.word tail
  refine parseExpression?_of_eventually (c := .front .inside []) ?_ rfl hpending
  filter_upwards [eventually_above (hread.and (eventually_fuel 1)) 1]
  rintro _ ⟨g, fuel, ⟨hg, hfuel⟩, hfuel', rfl⟩
  have hallows : (Grammar.functionMode false false).allows name = true :=
    Mode.allows_of_free h.free rfl rfl
  have hfunction : g.function Mode.script false (.front .expression (declarationText name tail)) =
      some (f, .front .inside []) := (Grammar.function_named h.word false).mpr ⟨hallows, hg⟩
  have hexpression := Grammar.assignmentExpression_function hfuel (by rw [hnext])
    (by rw [hsecond]; rfl) hfunction .finish
  rw [hsource]
  exact (Parser.bind_of_eq_some hexpression).trans
    (Grammar.commaList_ended (g := g.above fuel) hfuel' nofun)

end Function.Portable

end Script

/-! ## Defaults that are pending -/

/-- A default is pending in a body if it is in a statement. -/
theorem isPending_body (body : Body) : body.tree.isPending =
    (body.items.map Item.statement).any fun s => s.tree.isPending := by
  have htree : body.tree = .node .other (itemTrees body.items) := rfl
  rw [htree, Tree.isPending_other, itemTrees_eq, List.any_map]
  rfl

/-- A default is pending in a function if it is in its parameters or in a statement. -/
theorem isPending_function (f : Function) : f.tree.isPending =
    ((patternTrees f.params).any Tree.isPending ||
      (f.items.map Item.statement).any fun s => s.tree.isPending) := by
  have hname : (bindingLeaves f.name).any Tree.isPending = false := by
    cases f.name <;> rfl
  have htree : f.tree =
      .node .other (bindingLeaves f.name ++ patternTrees f.params ++ itemTrees f.items) := by
    cases f
    rfl
  rw [htree, Tree.isPending_other, List.any_append, List.any_append, hname, itemTrees_eq,
    List.any_map]
  rfl

end Collector
