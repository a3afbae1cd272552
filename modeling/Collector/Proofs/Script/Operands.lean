import Collector.Proofs.Script.Classes
import Collector.Proofs.Script.Literals

/-!
# Operands across a seam

Arrays, arguments, objects, parentheses and arrow functions, and what stands between operators. The
contents of parentheses are parameters if an arrow stands behind them; then the arrow is taken too.
-/

namespace Collector.Script

open Relation

variable {α β : Type} {σ : Seam} {halts : Cursor → Prop}

/-- A lexeme at the front of a parser that keeps its text. -/
theorem Leads.peek_text {k k' : Lexeme → String → Parser β}
    (h : ∀ l text, Leads σ halts (k l text) (k' (σ.shiftLexeme l) text)) :
    Leads σ halts (Parser.peek >>= fun l => k l (slice l.start l.rest))
      (Parser.peek >>= fun l => k' l (slice l.start l.rest)) := by
  refine ⟨fun hb => (h _ _).moves hb, fun {c a c'} hb hok => ?_⟩
  rw [Parser.peek_bind] at hb ⊢
  have hp := Seam.passed_of_moves ((h _ _).moves hb) hok
  rw [hp.next, show slice (σ.shiftLexeme c.next).start (σ.shiftLexeme c.next).rest =
    slice c.next.start c.next.rest from Seam.slice_shift_shift _ hp.sees.rest]
  exact (h _ _).keeps hb hok

/-- Where no member access stands and no call. -/
def stays (c : Cursor) : Prop :=
  c.next.is .dot = false ∧ c.next.is .openBracket = false ∧ c.next.is .openParen = false

/-- An arrow may be looked for at the seam too. -/
theorem Follows.seesArrow {k k' : Bool → Parser β} (ht : Leads σ halts (k true) (k' true))
    (hf : Follows σ halts (k false) (k' false)) :
    Follows σ halts (Grammar.seesArrow >>= k) (Grammar.seesArrow >>= k') :=
  .look (fun l => l.is .arrow && !l.newline) (fun _ => rfl)
    (fun l hl => by rw [Stop.is_eq_false hl (by decide), Bool.false_and]) ht hf

namespace Grammar

/-- `propertyRest` with the text of the property's first token. -/
def propertyWith (g : Grammar) (m : Mode) (start : Lexeme) (text : String) (mods : Modifiers)
    (key : Key) : Parser Property := do
  Parser.check (match key with
    | .privateName _ => false
    | _ => true)
  if mods.demandMethod || (← Parser.sees .openParen) then
    let f ← g.method mods
    let text ← Parser.textFrom start.start
    return match mods.accessor with
      | some kind => .accessor kind key f text
      | none => .method key f text
  else if ← Parser.accept .colon then
    let from_ := (← Parser.peek).start
    let value ← g.assignment m.withIn
    return .field key value false (← Parser.textFrom from_)
  else
    let id ← Parser.lift (start.identifier? m)
    if ← Parser.accept .assign then
      let value ← g.assignment m.withIn
      return .pending id value
    else return .field (.name id) (.name id) true text

/-- A property behind its first token, which is looked at already. -/
def namedProperty (g : Grammar) (m : Mode) (start : Lexeme) (text : String) : Parser Property := do
  let mods ← modifiers
  let key ← g.key m
  g.propertyWith m start text mods key

end Grammar

namespace Agrees

open Grammar

variable {g g' : Grammar} (h : Agrees σ g g') (m : Mode) (inside : Bool)

include h

/-! ## Arrays, arguments and objects -/

theorem element : Opens σ halts (g.element m) (g'.element (m.widen inside)) :=
  .accept ((h.assignment m.withIn inside).follows.bind fun _ => .pure _)
    (h.assignment m.withIn inside)

theorem arrayItem : Follows σ never (g.arrayItem m) (g'.arrayItem (m.widen inside)) :=
  .sees_never fun _ => .ite (.pure _) (h.element m inside).follows

theorem array : Leads σ halts (g.array m) (g'.array (m.widen inside)) :=
  (h.listUntil .closeBracket (h.arrayItem m inside)).bind fun _ => .pure _

theorem arguments : Leads σ halts (g.arguments m) (g'.arguments (m.widen inside)) :=
  h.listUntil .closeParen (h.element m inside).follows

theorem propertyWith (start : Lexeme) (text : String) (mods : Modifiers) (key : Key) :
    Follows σ halts (g.propertyWith m start text mods key)
      (g'.propertyWith (m.widen inside) (σ.shiftLexeme start) text mods key) := by
  have method : Leads σ halts _ _ :=
    (h.method mods).bind fun f =>
      (Follows.textFrom start.start).bind fun text => .pure (match mods.accessor with
        | some kind => Property.accessor kind key f text
        | none => .method key f text)
  refine Follows.check.bind fun _ => .sees (Stop.ne (by decide) _) ?_
    (.ite method.follows (.accept (Stop.ne (by decide) _) ?_ ?_))
  · rw [if_pos (Bool.or_true _), if_pos (Bool.or_true _)]
    exact method
  · refine (Leads.peek fun l => (h.assignment m.withIn inside).leads.bind fun value => ?_).follows
    exact (Follows.textFrom l.start).bind fun _ => .pure _
  · refine (Follows.lift (start.identifier? m)).bind fun id => ?_
    refine .accept (Stop.ne (by decide) _) ?_ (.pure _)
    exact (h.assignment m.withIn inside).follows.bind fun _ => .pure _

theorem namedProperty (start : Lexeme) (text : String) :
    Leads σ halts (g.namedProperty m start text)
      (g'.namedProperty (m.widen inside) (σ.shiftLexeme start) text) :=
  Looks.modifiers.bind fun mods => (h.key m inside).leads.bind fun key =>
    h.propertyWith m inside start text mods key

theorem property : Leads σ halts (g.property m) (g'.property (m.widen inside)) := by
  refine .accept ?_ (.peek_text (h.namedProperty m inside))
  exact (h.assignment m.withIn inside).follows.bind fun _ => .pure _

theorem object : Leads σ halts (g.object m) (g'.object (m.widen inside)) :=
  (h.listUntil .closeBrace (h.property m inside).follows).bind fun _ => .pure _

/-! ## Parentheses and arrow functions -/

section Parentheses

variable {k k' : Parenthesized → Parser β}

omit h in
theorem asParameters_then (start : List Char) (params : Option (List Pattern))
    (hp : ∀ params text, Leads σ halts (k (.parameters params text)) (k' (.parameters params text))) :
    Leads σ halts (asParameters start params >>= k) (asParameters (σ.shift start) params >>= k') := by
  unfold asParameters seesArrow
  simp only [bind_assoc, pure_bind]
  refine .peek fun l => .check (.lift fun params => ?_)
  exact (Follows.textFrom start).looks.bind fun text => hp params text

/-- Parentheses in front of what goes on with a value, or takes the arrow behind parameters. -/
theorem parenthesized_then (hv : ∀ e, Follows σ halts (k (.value e)) (k' (.value e)))
    (hp : ∀ params text, Leads σ halts (k (.parameters params text)) (k' (.parameters params text))) :
    Opens σ halts (g.parenthesized m >>= k) (g'.parenthesized (m.widen inside) >>= k') := by
  unfold parenthesized parenItems
  simp only [bind_assoc]
  refine .peek fun start _ => Opens.expect.bind fun _ => Leads.follows (.peek fun inner => ?_)
  refine .iterate_then h.fuel (fun items j j' hj => ?_) []
  simp only [bind_assoc]
  refine .sees fun rest => ?_
  cases rest with
  | true =>
    simp only [if_true, bind_assoc, pure_bind, Sum.elim_inr]
    refine (h.bindingRest m inside).leads.bind fun rest => Opens.expect.follows.bind fun _ => ?_
    exact (asParameters_then _ _ hp).follows
  | false =>
    simp only [Bool.false_eq_true, if_false, bind_assoc]
    refine .sees fun closes => ?_
    cases closes with
    | true =>
      simp only [if_true, bind_assoc, pure_bind, Sum.elim_inr]
      exact Opens.advance.leads.bind fun _ => (asParameters_then _ _ hp).follows
    | false =>
      simp only [Bool.false_eq_true, if_false, bind_assoc]
      refine (h.assignment m.withIn inside).leads.bind fun item => Leads.follows ?_
      refine .accept (hj (item :: items)).follows ?_
      simp only [Bool.false_eq_true, if_false, bind_assoc]
      refine (Follows.textFrom inner.start).looks.bind fun text => ?_
      refine Opens.expect.leads.bind fun _ => .seesArrow ?_ ?_
      · simp only [if_true, bind_assoc, pure_bind, Sum.elim_inr]
        exact asParameters_then _ _ hp
      · exact hv _

end Parentheses

theorem parenExpression : Opens σ halts (g.parenExpression m) (g'.parenExpression (m.widen inside)) :=
  h.parenthesized_then m inside (fun e => .pure e) fun _ _ => (Opens.failure _).leads

theorem arrowRest (isAsync : Bool) (params : List Pattern) (text : String) :
    Leads σ halts (g.arrowRest m isAsync params text)
      (g'.arrowRest (m.widen inside) isAsync params text) := by
  unfold Grammar.arrowRest seesArrow
  simp only [bind_assoc, pure_bind]
  refine .peek fun l => .check (Opens.advance.leads.bind fun _ => Leads.follows (.sees fun _ => ?_))
  refine .ite ?_ (.peek fun l => ?_)
  · exact (h.functionBody (functionMode isAsync false) false).leads.bind fun body => .pure _
  · refine (h.assignment { m with isAsync := isAsync, isGenerator := false } inside).leads.bind
      fun value => ?_
    exact (Follows.textFrom l.start).bind fun _ => .pure _

/-! ## Operands -/

omit h in
theorem wordOperand (id : String) (escaped : Bool) :
    Opens σ halts (wordOperand m id escaped) (wordOperand (m.widen inside) id escaped) := by
  unfold Grammar.wordOperand
  dsimp only
  split
  · exact Opens.advance.bind fun _ => .pure _
  · exact (Opens.identifier m inside).bind fun _ => .pure _

theorem importOperand : Opens σ halts (g.importOperand m) (g'.importOperand (m.widen inside)) := by
  have args : Leads σ halts _ _ := h.arguments m inside
  refine Opens.expectWord.bind fun _ => Leads.follows (.accept ?_ ?_)
  · refine Leads.follows (.peek fun l => ?_)
    obtain ⟨token, newline, start, rest⟩ := l
    have other : Leads σ halts (failure : Parser Expr) failure := (Opens.failure _).leads
    cases token with
    | word id escaped =>
      cases escaped with
      | true => exact other
      | false =>
        refine Opens.advance.leads.bind fun _ => .ite (.pure _) (Follows.check.bind fun _ => ?_)
        exact Opens.expect.follows.bind fun _ => args.follows.bind fun _ => .pure _
    | _ => exact other
  · refine Opens.expect.leads.bind fun _ => args.follows.bind fun (items, _) => ?_
    exact Follows.check.bind fun _ => .pure _

omit h in
theorem superOperand : Opens σ stays superOperand superOperand := by
  refine Opens.expectWord.bind fun _ => .peek (fun l => Follows.check.bind fun _ => .pure _) ?_
  intro c a _ ⟨hdot, hbracket, hparen⟩ hb
  simp only [hdot, hbracket, hparen] at hb
  cases hb

theorem wordPrimary (next : Lexeme) (id : String) (escaped : Bool) : Opens σ stays
    (seesFunction >>= fun isFunction =>
      if isFunction then Expr.function <$> g.function m false
      else if next.isWord "class" then Expr.classOf <$> g.classOf m false
      else if next.isWord "super" then Grammar.superOperand
      else if next.isWord "import" then g.importOperand m
      else Grammar.wordOperand m id escaped)
    (seesFunction >>= fun isFunction =>
      if isFunction then Expr.function <$> g'.function (m.widen inside) false
      else if next.isWord "class" then Expr.classOf <$> g'.classOf (m.widen inside) false
      else if next.isWord "super" then Grammar.superOperand
      else if next.isWord "import" then g'.importOperand (m.widen inside)
      else Grammar.wordOperand (m.widen inside) id escaped) := by
  refine .seesFunction (fun _ => .ite ?_ (.ite ?_ (.ite ?_ (.ite ?_ ?_)))) fun {c a c'} hf hn => ?_
  · exact (h.function m inside false).map Expr.function
  · exact (h.classOf m inside false).map Expr.classOf
  · exact superOperand
  · exact h.importOperand m inside
  · exact wordOperand m inside id escaped
  · rw [if_pos rfl] at hf
    obtain ⟨f, hfun, -⟩ := Parser.map_eq_some.mp hf
    exact h.function_moves m hfun hn

theorem primary : Opens σ stays (g.primary m) (g'.primary (m.widen inside)) := by
  refine .peek_known fun l newline => ?_
  obtain ⟨token, newline', start, rest⟩ := l
  have take (e : Expr) : Opens σ stays (Parser.advance >>= fun _ => pure e)
      (Parser.advance >>= fun _ => pure e) := Opens.advance.bind fun _ => .pure e
  cases token with
  | number value => exact (take _).onToken
  | bigint digits => exact (take _).onToken
  | string value => exact (take _).onToken
  | word id escaped =>
    exact (h.wordPrimary m inside _ id escaped).onToken
  | privateName id => exact (Opens.failure _).onToken
  | finish => exact (Opens.failure _).onToken
  | invalid => exact (Opens.failure _).onToken
  | punctuator p =>
    cases p with
    | openParen => exact (h.parenExpression m inside).onToken
    | openBracket => exact (Opens.advance.bind fun _ => (h.array m inside).follows).onToken
    | openBrace => exact (Opens.advance.bind fun _ => (h.object m inside).follows).onToken
    | backtick => exact h.plainTemplate m inside
    | slash => exact .regexLiteral (.inl rfl)
    | slashAssign => exact .regexLiteral (.inr rfl)
    | «at» => exact ((h.classOf m inside false).map Expr.classOf).onToken
    | _ => exact (Opens.failure _).onToken

end Agrees

end Collector.Script
