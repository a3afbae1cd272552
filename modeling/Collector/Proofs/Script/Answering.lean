import Collector.Proofs.Script.Cover
import Collector.Proofs.Script.Cuts

/-!
# Bodies that answer a value

A value in parentheses is a whole expression where a semicolon stands behind it, and so is its
answer: `readsBody_answering`.
-/

namespace Collector.Script

open Relation Text

namespace Grammar

variable {g : Grammar} {m : Mode} {c c₁ : Cursor} {e operand : Expr}

/-! ## At the end of a value -/

/-- The tokens that stand behind whole values only: no operators, links or assignments. -/
inductive EndsValue : Token → Prop
  | finish : EndsValue .finish
  | semicolon : EndsValue (.punctuator .semicolon)
  | comma : EndsValue (.punctuator .comma)
  | colon : EndsValue (.punctuator .colon)
  | closeParen : EndsValue (.punctuator .closeParen)
  | closeBrace : EndsValue (.punctuator .closeBrace)
  | closeBracket : EndsValue (.punctuator .closeBracket)

theorem links_ended (hf : 0 < g.fuel) (h : EndsValue c.next.token) :
    g.links m true operand c = some (operand, c) := by
  have hlink (chain : Chain) : g.link? m true chain c = some (none, c) := by
    unfold link?
    rw [Parser.peek_bind, Lexeme.punctuator?]
    generalize c.next.token = token at h ⊢
    cases h <;> rfl
  obtain ⟨n, hn⟩ := Nat.exists_eq_add_of_le' hf
  unfold links
  rw [hn, Parser.iterate_succ, bind_assoc, Parser.bind_of_eq_some (hlink _)]
  rfl

theorem operators_ended (hf : 0 < g.fuel) (h : EndsValue c.next.token)
    (level : Nat) : g.operators m level operand c = some (operand, c) := by
  have hinfix : infix? m c.next = none := by
    rw [infix?]
    generalize c.next.token = token at h ⊢
    cases h <;> rfl
  have hstep : g.operatorStep m level operand c = some (.inr operand, c) := by
    unfold operatorStep
    rw [Parser.peek_bind, hinfix]
    rfl
  obtain ⟨n, hn⟩ := Nat.exists_eq_add_of_le' hf
  rw [operators_eq, hn, Parser.iterate_succ, Parser.bind_of_eq_some hstep]
  rfl

theorem assignmentRest_ended (h : EndsValue c.next.token) :
    g.assignmentRest m operand c = some (operand, c) := by
  have hassign : assignOp? c.next = none := by
    rw [assignOp?, Lexeme.punctuator?]
    generalize c.next.token = token at h ⊢
    cases h <;> rfl
  have hquestion : c.next.token ≠ .punctuator .question := by
    intro hq
    rw [hq] at h
    cases h
  unfold assignmentRest
  rw [Parser.peek_bind, hassign]
  show g.conditionalRest m operand c = _
  unfold conditionalRest
  rw [(Parser.accept_accepts .question).bind_false hquestion]
  rfl

theorem postfixed_ended (hf : 0 < g.fuel) (h : EndsValue c.next.token) :
    g.postfixed m operand c = some (operand, c) := by
  have hupdate : updateOp? c.next = none := by
    rw [updateOp?]
    generalize c.next.token = token at h ⊢
    cases h <;> rfl
  unfold postfixed
  rw [Parser.bind_of_eq_some (links_ended hf h), Parser.peek_bind, hupdate]
  rfl

/-- An operand behind which a value ends is the value. -/
theorem assignmentFrom_ended (hf : 0 < g.fuel) (h : EndsValue c.next.token) :
    g.assignmentFrom m operand c = some (operand, c) := by
  unfold assignmentFrom
  rw [Parser.bind_of_eq_some (postfixed_ended hf h),
    Parser.bind_of_eq_some (operators_ended hf h 0)]
  exact assignmentRest_ended h

theorem commaList_ended (hf : 0 < g.fuel) (h : c.next.token ≠ .punctuator .comma) :
    g.commaList m e c = some (e, c) := by
  obtain ⟨n, hn⟩ := Nat.exists_eq_add_of_le' hf
  unfold commaList
  rw [hn, Parser.iterate_succ, bind_assoc, (Parser.accept_accepts .comma).bind_false h]
  rfl

/-! ## A value in parentheses -/

/-- No expression begins with three points or a closing parenthesis. -/
theorem assignmentExpression_none {p : Punctuator} (h : c.next.token = .punctuator p)
    (hp : p = .ellipsis ∨ p = .closeParen) : g.assignmentExpression m c = none := by
  have hopening : openingAt m c.next c.second = .other := by
    rw [openingAt, h]
    rcases hp with rfl | rfl <;> rfl
  have hprimary : g.primary m c = none := by
    unfold primary
    rw [Parser.peek_bind, h]
    rcases hp with rfl | rfl <;> rfl
  have hnew : c.next.token ≠ .word "new" false := by
    intro hword
    rw [h] at hword
    cases hword
  have hstart : g.start m c = none := by
    unfold start
    rw [(Parser.acceptWord_accepts "new").bind_false hnew]
    exact hprimary
  have hunary : g.unaryExpression m c = none := by
    unfold unaryExpression
    rw [Parser.peek_bind, show unaryOp? c.next = none by
        rw [unaryOp?, h]; rcases hp with rfl | rfl <;> rfl,
      show updateOp? c.next = none by rw [updateOp?, h]; rcases hp with rfl | rfl <;> rfl]
    simp only [show c.next.isWord "await" = false by rw [Lexeme.isWord, h]; rfl, Bool.and_false,
      Bool.false_eq_true, if_false]
    exact Parser.bind_of_none hstart
  have hoperand : g.operandAbove m 0 c = none := by
    unfold operandAbove
    rw [Parser.peek_bind, h]
    exact Parser.bind_of_none hunary
  refine (Parser.bind_of_eq_some (opening_eq m c)).trans ?_
  rw [hopening]
  exact Parser.bind_of_none hoperand

/-- A single value in parentheses, where no arrow follows. -/
theorem parenthesized_of_item (hf : 0 < g.fuel) (ho : c.next.token = .punctuator .openParen)
    (he : (Cursor.front .inside c.next.rest).next.token ≠ .punctuator .ellipsis)
    (hc : (Cursor.front .inside c.next.rest).next.token ≠ .punctuator .closeParen)
    (hi : g.assignment m.withIn (.front .inside c.next.rest) = some (e, c₁))
    (hs : c₁.next.token = .punctuator .closeParen)
    (ha : (Cursor.front .inside c₁.next.rest).next.token ≠ .punctuator .arrow) :
    g.parenthesized m c =
      some (.value (.paren (slice (Cursor.front .inside c.next.rest).next.start c₁.left) e),
        .front .inside c₁.next.rest) := by
  generalize hd : Cursor.front .inside c.next.rest = d at *
  have hstep : g.parenStep m c.next.start d.next.start [] d =
      some (.inr (.value (.paren (slice d.next.start c₁.left) e)), .front .inside c₁.next.rest) := by
    unfold parenStep
    rw [Parser.sees_bind, Parser.peek_bind, if_neg (by simp [Lexeme.is, he]), Parser.sees_bind,
      Parser.peek_bind, if_neg (by simp [Lexeme.is, hc]), Parser.bind_of_eq_some hi,
      (Parser.accept_accepts .comma).bind_false (by simp [hs]), if_neg Bool.false_ne_true]
    have htext : Parser.textFrom d.next.start c₁ = some (slice d.next.start c₁.left, c₁) := rfl
    have harrow : seesArrow (.front .inside c₁.next.rest) =
        some (false, .front .inside c₁.next.rest) := by
      show some ((Cursor.front .inside c₁.next.rest).next.is .arrow && _, _) = _
      rw [show (Cursor.front .inside c₁.next.rest).next.is .arrow = false by
        simp [Lexeme.is, ha]]
      rfl
    rw [Parser.bind_of_eq_some htext, Parser.bind_of_eq_some (Parser.expect_of_token hs),
      Parser.bind_of_eq_some harrow]
    rfl
  obtain ⟨n, hn⟩ := Nat.exists_eq_add_of_le' hf
  show (Parser.expect .openParen >>= fun _ => Parser.peek >>= fun inner =>
    g.parenItems m c.next.start inner.start) c = _
  rw [Parser.bind_of_eq_some (Parser.expect_of_token ho), hd, Parser.peek_bind, parenItems_eq, hn,
    Parser.iterate_succ, Parser.bind_of_eq_some hstep]
  rfl

/-- A value in parentheses is an expression of its own where a value ends behind it. -/
theorem assignmentExpression_paren (hf : 0 < g.fuel) {text : String} {inner : Expr}
    (ho : c.next.token = .punctuator .openParen)
    (h : g.parenthesized m c = some (.value (.paren text inner), c₁))
    (hs : EndsValue c₁.next.token) :
    g.assignmentExpression m c = some (.paren text inner, c₁) := by
  have hopening : openingAt m c.next c.second = .paren := by rw [openingAt, ho]
  refine (Parser.bind_of_eq_some (opening_eq m c)).trans ?_
  rw [hopening]
  exact (Parser.bind_of_eq_some h).trans (assignmentFrom_ended hf hs)

theorem returnStatement_of_expression {c₂ : Cursor} (hm : m.isFunction = true)
    (hw : c.next.token = .word "return" false)
    (hn : (Cursor.front .inside c.next.rest).next.newline = false)
    (ho : (Cursor.front .inside c.next.rest).next.token = .punctuator .openParen)
    (he : g.expression m.withIn (.front .inside c.next.rest) = some (e, c₂))
    (hs : c₂.next.token = .punctuator .semicolon) :
    g.anyStatement m true c = some (.return [e], .front .inside c₂.next.rest) := by
  have hword : g.anyStatement m true c = g.returnStatement m c := by
    unfold anyStatement
    rw [Parser.peek_bind, hw]
    rfl
  have hends : seesEnd (.front .inside c.next.rest) = some (false, .front .inside c.next.rest) := by
    unfold seesEnd
    rw [Parser.peek_bind, hn, Lexeme.is, Lexeme.is, ho]
    rfl
  have hend : Parser.endStatement c₂ = some ((), .front .inside c₂.next.rest) := by
    unfold Parser.endStatement
    rw [Parser.peek_bind, if_pos (by simp [Lexeme.is, hs])]
    exact Parser.advance_of_real (by rw [hs]; rfl)
  rw [hword]
  unfold returnStatement
  rw [Parser.bind_of_eq_some (Parser.expectWord_eq_some (u := ()).mpr ⟨hw, rfl⟩),
    Parser.bind_of_eq_some (Parser.check_eq_some (u := ()).mpr ⟨hm, rfl⟩),
    Parser.bind_of_eq_some hends, if_neg Bool.false_ne_true, Parser.map_eq_bind, bind_assoc,
    Parser.bind_of_eq_some he, pure_bind]
  exact (Parser.bind_of_eq_some hend).trans rfl

end Grammar

/-! ## The body -/

/-- The text behind `return`, up to the brace that ends the body. -/
def answerTail (text : String) : List Char :=
  ' ' :: '(' :: (text.toList ++ ')' :: ';' :: ['\x7d'])

theorem next_answerTail (text : String) : (Cursor.front .inside (answerTail text)).next =
    ⟨.punctuator .openParen, false, '(' :: (text.toList ++ ')' :: [';', '\x7d']),
      text.toList ++ ')' :: [';', '\x7d']⟩ := by
  have hlex : lex .inside ('(' :: (text.toList ++ ')' :: [';', '\x7d'])) = _ :=
    lex_bracket (p := .openParen) _ (by decide)
  exact (lex_blank (by rw [hlex]; rfl)).trans hlex

theorem next_semicolon : (Cursor.front .inside [';', '\x7d']).next =
    ⟨.punctuator .semicolon, false, [';', '\x7d'], ['\x7d']⟩ :=
  next_of_closer .semicolon _

theorem next_return (text : String) :
    (Cursor.front .inside ("return".toList ++ answerTail text)).next =
      ⟨.word "return" false, false, "return".toList ++ answerTail text, answerTail text⟩ := by
  have hword : IsWord "return" := .of_plain (by decide)
  have hd : (answerTail text).head?.any (fun c => isIdentifierPart c || c == '\\') = false := rfl
  have hlex : lex .inside ("return".toList ++ answerTail text) = _ := hword.lex_eq hd
  exact hlex

section Answer

variable {text : String} {value : Expr}
  (h : ReadsText (fun g => g.assignment Mode.plain) text value)

include h

theorem eventually_answer : ∀ᶠ g in large,
    g.assignmentExpression Mode.plain (.front .inside (answerTail text)) =
      some (.paren text value, .front .inside [';', '\x7d']) ∧ 0 < g.fuel := by
  obtain ⟨hstart, hread⟩ := h .paren [';', '\x7d']
  rw [show Closer.paren.char = ')' from rfl] at hstart hread
  have hopen := next_answerTail text
  have hclose : (Cursor.front .inside (')' :: [';', '\x7d'])).next =
      ⟨.punctuator .closeParen, false, ')' :: [';', '\x7d'], [';', '\x7d']⟩ :=
    next_of_closer .paren _
  filter_upwards [hread, eventually_above (Filter.Eventually.of_forall fun _ => trivial) 1]
  rintro _ hg ⟨g, fuel, -, hfuel, rfl⟩
  have starts {p : Punctuator} (hp : p = .ellipsis ∨ p = .closeParen) :
      (Cursor.front .inside (text.toList ++ ')' :: [';', '\x7d'])).next.token ≠ .punctuator p :=
    fun ht => nomatch (Grammar.assignmentExpression_none ht hp).symm.trans hg
  have hparen := Grammar.parenthesized_of_item (g := g.above fuel) (m := Mode.plain)
    (c := .front .inside (answerTail text)) hfuel (by rw [hopen]) (by rw [hopen]; exact starts (.inl rfl))
    (by rw [hopen]; exact starts (.inr rfl)) (by rw [hopen]; exact hg) (by rw [hclose])
    (by rw [hclose, next_semicolon]; nofun)
  have htext : slice (Cursor.front .inside (text.toList ++ ')' :: [';', '\x7d'])).next.start
      (')' :: [';', '\x7d']) = text :=
    (congrArg (slice · _) hstart).trans (by rw [slice_append, String.ofList_toList])
  simp only [hopen, hclose] at hparen
  rw [show (Cursor.front .inside (')' :: [';', '\x7d'])).left = ')' :: [';', '\x7d'] from rfl,
    htext] at hparen
  refine ⟨?_, hfuel⟩
  exact Grammar.assignmentExpression_paren (g := g.above fuel) hfuel (by rw [hopen]) hparen
    (by rw [next_semicolon]; exact .semicolon)

/-- The statement that answers a value in parentheses. -/
theorem eventually_return : ∀ᶠ g in large,
    g.statement Mode.plain true (.front .inside ("return".toList ++ answerTail text)) =
      some (.return [.paren text value], .front .inside ['\x7d']) := by
  have hnext := next_return text
  have hopen := next_answerTail text
  filter_upwards [eventually_above (eventually_above (eventually_answer h) 1) 0]
  rintro _ ⟨_, fuel, ⟨g, fuel', ⟨hg, -⟩, hfuel, rfl⟩, -, rfl⟩
  have he : (g.above fuel').expression Mode.plain.withIn (.front .inside (answerTail text)) =
      some (.paren text value, .front .inside [';', '\x7d']) :=
    (Parser.bind_of_eq_some hg).trans
      (Grammar.commaList_ended (g := g.above fuel') hfuel (by rw [next_semicolon]; nofun))
  have := Grammar.returnStatement_of_expression (m := Mode.plain) (g := g.above fuel') rfl
    (by rw [hnext]) (by rw [hnext, hopen]) (by rw [hnext, hopen]) (by rw [hnext]; exact he)
    (by rw [next_semicolon])
  rw [next_semicolon] at this
  exact this

/-- A body that answers a value in parentheses is read the same wherever it stands. -/
theorem readsBody_answering :
    ReadsBody ⟨[⟨"", "return (" ++ text ++ ");", .return [.paren text value]⟩], ""⟩ := by
  have hnext := next_return text
  have hend : (Cursor.front .inside ['\x7d']).next =
      ⟨.punctuator .closeBrace, false, ['\x7d'], []⟩ := next_of_closer .brace []
  have hlead : slice ("return".toList ++ answerTail text) ("return".toList ++ answerTail text) =
      "" := slice_append [] _
  have htext : slice ("return".toList ++ answerTail text) ['\x7d'] = "return (" ++ text ++ ");" := by
    have hsplit : "return".toList ++ answerTail text =
        ("return (" ++ text ++ ");").toList ++ ['\x7d'] := by
      simp [answerTail]
    rw [hsplit, slice_append, String.ofList_toList]
  generalize hitem : Item.mk "" ("return (" ++ text ++ ");") (.return [.paren text value]) = item
  have hbody : ∀ᶠ g in large,
      g.body Mode.plain (.front .inside ("return".toList ++ answerTail text)) =
        some (Grammar.bodyOf (([item], false), .front .inside ['\x7d']),
          .front .inside ['\x7d']) := by
    refine eventually_body ?_ (by rw [hend]; rfl)
    filter_upwards [eventually_return h] with g hg
    refine .single ⟨by rw [hnext]; rfl, (item, false), Grammar.item_eq_some.mpr ⟨_, hg, ?_⟩, rfl⟩
    unfold Grammar.itemOf
    rw [hnext, ← hitem]
    exact congrArg (·, false) (congrArg₂ (Item.mk · · _) hlead.symm htext.symm)
  have := readsBody_of_eventually hbody (by rw [hend])
  rwa [Grammar.bodyOf, hend] at this

end Answer

end Collector.Script
