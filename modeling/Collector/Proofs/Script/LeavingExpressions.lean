import Collector.Proofs.Script.Leaving

/-!
# Expressions leave their marks

In a grammar whose productions leave the marks of what they answer, so do the productions for
expressions. An expression that is read as a pattern later on leaves the same marks. A name that a
link stands behind is part of the mark of the access; `OperandAt` keeps the place of the name until
the link is read.
-/

namespace Collector.Script

open Collector.Script.Parser

/-! ## Expressions as patterns -/

theorem Expr.words_target?_of_plain {e : Expr} {p : Pattern} (h : e.target? = some p)
    (harray : ∀ items comma, e ≠ .array items comma)
    (hobject : ∀ properties comma, e ≠ .object properties comma) : p.words = e.words := by
  rcases Grammar.target?_cases h with ⟨items, comma, -, he, -⟩ |
    ⟨properties, comma, -, he, -⟩ | ⟨target, value, rfl, rfl⟩ | rfl
  · exact (harray items comma he).elim
  · exact (hobject properties comma he).elim
  · simp
  · simp

mutual

/-- A pattern leaves the marks of the expression that it was read as. -/
theorem Expr.words_target? (e : Expr) {p : Pattern} (h : e.target? = some p) :
    p.words = e.words := by
  cases e with
  | array items comma =>
    obtain ⟨ps, hps, rfl⟩ := Option.map_eq_some_iff.mp h
    simp [words_targetItems? items hps]
  | object properties comma =>
    obtain ⟨ps, hps, rfl⟩ := Option.map_eq_some_iff.mp h
    simp [words_targetFields? properties hps]
  | _ => exact Expr.words_target?_of_plain h nofun nofun
termination_by structural e

theorem words_targetItems? {comma : Bool} (items : List Expr) {ps : List Pattern}
    (h : targetItems? comma items = some ps) :
    ps.flatMap Pattern.words = items.flatMap Expr.words := by
  match items with
  | [] =>
    cases h
    rfl
  | e :: rest =>
    by_cases hbare : e.isBare = true
    · rw [Grammar.targetItems?_bare hbare] at h
      obtain ⟨q, hq, h⟩ := Option.bind_eq_some_iff.mp h
      obtain ⟨qs, hqs, h⟩ := Option.bind_eq_some_iff.mp h
      cases h
      simp [e.words_target? hq, words_targetItems? rest hqs]
    · cases e with
      | spread value =>
        obtain ⟨rfl, -, p, hp, -, rfl⟩ := Grammar.targetItems?_spread h
        simp [value.words_target? hp]
      | hole =>
        obtain ⟨qs, hqs, rfl⟩ := Option.map_eq_some_iff.mp h
        simp [words_targetItems? rest hqs]
      | _ => exact absurd rfl hbare
termination_by structural items

theorem words_targetFields? {comma : Bool} (properties : List Property) {ps : List Pattern}
    (h : targetFields? comma properties = some ps) :
    ps.flatMap Pattern.words = properties.flatMap Property.words := by
  match properties with
  | [] =>
    cases h
    rfl
  | .spread value :: rest =>
    unfold targetFields? at h
    split at h
    · obtain ⟨p, hp, rfl⟩ := Option.map_eq_some_iff.mp h
      simp [value.words_target? (Option.filter_eq_some_iff.mp hp).1]
    · cases h
  | .field key value shorthand text :: rest =>
    obtain ⟨p, hp, h⟩ := Option.bind_eq_some_iff.mp h
    obtain ⟨qs, hqs, h⟩ := Option.bind_eq_some_iff.mp h
    cases h
    simp [value.words_target? hp, words_targetFields? rest hqs]
  | .pending id value :: rest =>
    obtain ⟨qs, hqs, h⟩ := Option.bind_eq_some_iff.mp h
    cases h
    simp [words_targetFields? rest hqs]
  | .method key f text :: rest => cases h
  | .accessor kind key f text :: rest => cases h
termination_by structural properties

end

mutual

/-- New names leave the marks of the old ones in whose place they stand. -/
theorem Pattern.words_binding? (p : Pattern) {q : Pattern} (h : p.binding? = some q) :
    q.words = p.words := by
  cases p with
  | bind id => cases h; rfl
  | hole => cases h; rfl
  | place target =>
    by_cases hname : ∃ id, target = .name id
    · obtain ⟨id, rfl⟩ := hname
      cases h
      simp
    · rw [Grammar.binding?_place fun id hid => hname ⟨id, hid⟩] at h
      cases h
  | array items =>
    obtain ⟨qs, hqs, rfl⟩ := Option.map_eq_some_iff.mp h
    simp [words_bindings? items hqs]
  | object items =>
    obtain ⟨qs, hqs, rfl⟩ := Option.map_eq_some_iff.mp h
    simp [words_bindings? items hqs]
  | field key value shorthand =>
    obtain ⟨q, hq, rfl⟩ := Option.map_eq_some_iff.mp h
    simp [value.words_binding? hq]
  | withValue pattern value =>
    obtain ⟨q, hq, rfl⟩ := Option.map_eq_some_iff.mp h
    simp [pattern.words_binding? hq]
  | rest pattern =>
    obtain ⟨q, hq, rfl⟩ := Option.map_eq_some_iff.mp h
    simp [pattern.words_binding? hq]

theorem words_bindings? (patterns : List Pattern) {qs : List Pattern}
    (h : bindings? patterns = some qs) :
    qs.flatMap Pattern.words = patterns.flatMap Pattern.words := by
  match patterns with
  | [] =>
    cases h
    rfl
  | p :: rest =>
    obtain ⟨q, qs, hq, hqs, rfl⟩ := Grammar.bindings?_cons_eq_some h
    simp [p.words_binding? hq, words_bindings? rest hqs]

end

theorem words_parameters? {items : List Expr} {comma : Bool} {params : List Pattern}
    (h : parameters? items comma = some params) :
    params.flatMap Pattern.words = items.flatMap Expr.words := by
  obtain ⟨targets, ht, hp⟩ := Option.bind_eq_some_iff.mp h
  rw [words_bindings? targets hp, words_targetItems? items ht]

/-! ## Literals -/

/-- The marks of what stands in parentheses. -/
def Grammar.Parenthesized.words : Grammar.Parenthesized → List Mark
  | .value e => e.words
  | .parameters params _ => params.flatMap Pattern.words

theorem Parser.Adds.lift {α β : Type} {pre : List Mark} {o : Option β} {k : β → Parser α}
    {post : α → List Mark} (h : ∀ a, o = some a → Adds pre (k a) post) :
    Adds pre (lift o >>= k) post := by
  cases o with
  | none => exact .failure
  | some a => exact h a rfl

namespace Grammar

theorem skips_piece {p : Punctuator} (hp : p = .backtick ∨ p = .closeBrace) : Skips (piece p) := by
  intro pre d c text c' hd h
  obtain ⟨ht, rest, hq, rfl⟩ := piece_eq_some.mp h
  have hquote : c.SeesMark .backtick ∨ c.SeesMark .closeBrace := by
    rcases hp with rfl | rfl
    · exact .inl ht
    · exact .inr ht
  simpa using hd.trans (.quasi hquote hq .done)

theorem regexLiteral_traces {c c' : Cursor} {e : Expr}
    (hs : c.SeesMark .slash ∨ c.SeesMark .slashAssign) (h : regexLiteral c = some (e, c')) :
    Traces e.words c c' := by
  obtain ⟨source, flags, rest, hr, rfl, rfl⟩ := regexLiteral_eq_some.mp h
  rw [Expr.words_regex]
  exact .regex hs hr .done

theorem skips_seesArrow : Skips seesArrow := skips_peek.bind fun _ => .pure _

theorem adds_asParameters {start : List Char} {params : Option (List Pattern)}
    {pre marks : List Mark}
    (h : ∀ ps, params = some ps → ps.flatMap Pattern.words = marks) :
    Adds (pre ++ marks) (asParameters start params) fun r => pre ++ r.words := by
  refine skips_seesArrow.andThen fun _ => (skips_check _).andThen fun _ => .lift fun ps hps => ?_
  exact (skips_textFrom _).andThen fun _ => .pure (by rw [← h ps hps]; rfl)

theorem leaves_wordOperand (m : Mode) (id : String) (escaped : Bool) :
    Leaves (wordOperand m id escaped) Expr.words := by
  have constant (value : Expr) (hv : value.words = []) :
      Leaves (advance >>= fun _ => Pure.pure value) Expr.words :=
    fun pre => skips_advance.andThen fun _ => .pure (by rw [hv, List.append_nil])
  have name : Leaves (identifier m >>= fun id => Pure.pure (Expr.name id)) Expr.words :=
    fun pre => (leaves_identifier m pre).bind fun id => .pure (by simp)
  unfold wordOperand
  dsimp only
  split
  · rename_i value hvalue
    refine constant value ?_
    split_ifs at hvalue <;> cases hvalue <;> simp
  · exact name

theorem leaves_superOperand : Leaves superOperand Expr.words := fun pre =>
  (skips_expectWord _).andThen fun _ => skips_peek.andThen fun _ => (skips_check _).andThen fun _ =>
    .pure (by simp)

namespace Faithful

variable {g : Grammar} (h : g.Faithful) (m : Mode)

include h

theorem templateRest (first : Quasi × Bool) :
    Leaves (g.templateRest m first) fun r => r.2.flatMap Expr.words := by
  refine fun pre => .ite (.pure (by simp)) ?_
  refine .iterate (I := fun s => pre ++ s.2.reverse.flatMap Expr.words) (by simp)
    fun (texts, values) => (h.expression m.withIn _).bind fun value => ?_
  refine (skips_piece (.inr rfl)).andThen fun (text, last) => .ite ?_ ?_
  · exact .pure (by simp)
  · exact .pure (by simp)

/-- A template with the backtick before it. -/
theorem template {c c' : Cursor} {r : List Quasi × List Expr} (hc : c.SeesMark .backtick)
    (hr : g.template m c.behind = some (r, c')) : Traces (r.2.flatMap Expr.words) c c' := by
  have run : (advance >>= fun _ => g.template m) c = some (r, c') := by
    rw [bind_of_eq_some (advance_of_real (by rw [hc]; rfl))]
    exact hr
  rw [g.template_eq m hc] at run
  have whole : Leaves (piece .backtick >>= g.templateRest m) fun r => r.2.flatMap Expr.words :=
    fun pre => (skips_piece (.inl rfl)).andThen fun first => h.templateRest m first pre
  exact whole.traces run

theorem plainTemplate {c c' : Cursor} {e : Expr} (hc : c.SeesMark .backtick)
    (he : g.plainTemplate m c = some (e, c')) : Traces e.words c c' := by
  unfold Grammar.plainTemplate at he
  rw [bind_of_eq_some (expect_of_token hc)] at he
  obtain ⟨⟨texts, values⟩, c₁, hr, he⟩ := bind_eq_some.mp he
  obtain ⟨_, c₂, hk, he⟩ := bind_eq_some.mp he
  obtain ⟨-, rfl⟩ := check_eq_some.mp hk
  obtain ⟨rfl, rfl⟩ := pure_eq_some.mp he
  rw [Expr.words_template]
  exact h.template m hc hr

/-! ## Arrays and objects -/

theorem element : Leaves (g.element m) Expr.words := by
  refine fun pre => (skips_accept _).andThen fun _ => .ite ?_ (h.assignment m.withIn pre)
  exact (h.assignment m.withIn pre).bind fun items => .pure (by simp)

theorem arrayItem : Leaves (g.arrayItem m) Expr.words := fun pre =>
  (skips_sees _).andThen fun _ => .ite (.pure (by simp)) (h.element m pre)

theorem array : Leaves (g.array m) Expr.words := fun pre =>
  (leaves_listUntil (h.arrayItem m) pre).bind fun (items, comma) => .pure (by simp)

theorem arguments : Leaves (g.arguments m) fun found => found.1.flatMap Expr.words :=
  leaves_listUntil (h.element m)

/-- Where a name stands alone for a property and its value, the name is the token that the
property begins with. -/
theorem propertyRest {start : Lexeme} {mods : Modifiers} {key : Key} {p : Property}
    {c c' d : Cursor} {pre : List Mark} (hkey : Traces (pre ++ key.words) d c)
    (hname : mods.demandMethod = false → ∀ id, start.identifier? m = some id →
      Traces (pre ++ [.word id]) d c)
    (hp : g.propertyRest m start mods key c = some (p, c')) : Traces (pre ++ p.words) d c' := by
  obtain ⟨_, c₁, hk, hp⟩ := bind_eq_some.mp hp
  obtain ⟨-, rfl⟩ := check_eq_some.mp hk
  rw [sees_bind, peek_bind] at hp
  by_cases hmethod : (mods.demandMethod || c.next.is .openParen) = true
  · rw [if_pos hmethod] at hp
    obtain ⟨f, c₂, hf, hp⟩ := bind_eq_some.mp hp
    obtain ⟨text, c₃, ht, hp⟩ := bind_eq_some.mp hp
    obtain ⟨rfl, rfl⟩ := Prod.mk.inj (Option.some.inj ht)
    obtain ⟨rfl, rfl⟩ := pure_eq_some.mp hp
    have hmethod := h.method _ _ _ _ _ _ hkey hf
    split <;> simpa using hmethod
  · rw [if_neg hmethod] at hp
    have hdemand : mods.demandMethod = false := by
      simpa using (Bool.or_eq_false_iff.mp (by simpa using hmethod)).1
    by_cases hcolon : c.next.token = .punctuator .colon
    · rw [(accept_accepts .colon).bind_true hcolon, if_pos rfl] at hp
      have value : Adds (pre ++ key.words) (peek >>= fun next => g.assignment m.withIn >>=
          fun value => textFrom next.start >>= fun text =>
            Pure.pure (Property.field key value false text)) fun p => pre ++ p.words := by
        refine skips_peek.andThen fun next => (h.assignment _ _).bind fun value => ?_
        exact (skips_textFrom _).andThen fun text => .pure (by simp)
      exact value _ _ _ _ (hkey.behind (by rw [hcolon]; rfl)) hp
    · rw [(accept_accepts .colon).bind_false hcolon] at hp
      obtain ⟨id, c₂, hl, hrest⟩ := bind_eq_some.mp hp
      obtain ⟨hid, rfl⟩ := lift_eq_some.mp hl
      have alone : Adds (pre ++ [.word id]) (accept .assign >>= fun assigns => if assigns then
          g.assignment m.withIn >>= fun value => Pure.pure (Property.pending id value)
        else Pure.pure (.field (.name id) (.name id) true (slice start.start start.rest)))
          fun p => pre ++ p.words := by
        refine (skips_accept _).andThen fun _ => .ite ?_ (.pure (by simp))
        exact (h.assignment _ _).bind fun value => .pure (by simp)
      exact alone _ _ _ _ (hname hdemand id hid) hrest

theorem property : Leaves (g.property m) Property.words := by
  refine fun pre => (skips_accept _).andThen fun _ => .ite ?_ ?_
  · exact (h.assignment _ pre).bind fun value => .pure (by simp)
  · intro d c p c' hd hp
    rw [peek_bind] at hp
    obtain ⟨mods, c₁, hm, hp⟩ := bind_eq_some.mp hp
    obtain ⟨key, c₂, hk, hp⟩ := bind_eq_some.mp hp
    refine h.propertyRest m (h.key m pre _ _ _ _ (skips_modifiers pre _ _ _ _ hd hm) hk) ?_ hp
    intro hdemand id hid
    have hsees := Lexeme.identifier?_word hid
    obtain rfl := modifiers_none hm hdemand
    obtain ⟨-, rfl⟩ := key_of_seesName hsees hk
    exact hd.snoc (.word hsees)

theorem object : Leaves (g.object m) Expr.words := fun pre =>
  (leaves_listUntil (h.property m) pre).bind fun (properties, comma) => .pure (by simp)

/-! ## Parentheses and arrow functions -/

theorem parenItems (start inner : List Char) :
    Leaves (g.parenItems m start inner) Parenthesized.words := by
  intro pre
  let after (r : List Expr ⊕ Parenthesized) : List Mark :=
    r.elim (fun items => pre ++ items.reverse.flatMap Expr.words) fun r => pre ++ r.words
  have parameters (items : List Expr) : Adds (pre ++ items.reverse.flatMap Expr.words)
      (asParameters start (parameters? items.reverse false) >>= fun r => Pure.pure (Sum.inr r))
      after :=
    (adds_asParameters fun _ hps => words_parameters? hps).bind fun r => .pure rfl
  rw [parenItems_eq]
  refine .iterate (I := fun items => pre ++ items.reverse.flatMap Expr.words) (by simp)
    fun items => (skips_sees _).andThen fun _ => .ite ?_ ?_
  · refine (h.bindingRest m _).bind fun rest => (skips_expect _).andThen fun _ => ?_
    rw [List.append_assoc]
    refine (adds_asParameters fun ps hps => ?_).bind fun r => .pure rfl
    obtain ⟨params, hparams, rfl⟩ := Option.map_eq_some_iff.mp hps
    simp [← words_parameters? hparams]
  · refine (skips_sees _).andThen fun _ => .ite ?_ ?_
    · exact skips_advance.andThen fun _ => parameters items
    · refine (h.assignment m.withIn _).bind fun item => (skips_accept _).andThen fun _ => .ite ?_ ?_
      · exact .pure (by simp)
      · have hitem : pre ++ items.reverse.flatMap Expr.words ++ item.words =
            pre ++ (item :: items).reverse.flatMap Expr.words := by simp
        rw [hitem]
        refine (skips_textFrom _).andThen fun text => (skips_expect _).andThen fun _ => ?_
        refine skips_seesArrow.andThen fun _ => .ite (parameters _) (.pure ?_)
        cases items <;> simp [Parenthesized.words]

theorem parenthesized : Leaves (g.parenthesized m) Parenthesized.words := fun pre =>
  skips_peek.andThen fun _ => (skips_expect _).andThen fun _ => skips_peek.andThen fun _ =>
    h.parenItems m _ _ pre

theorem parenExpression : Leaves (g.parenExpression m) Expr.words := by
  refine fun pre => (h.parenthesized m pre).bind fun r => ?_
  cases r with
  | value e => exact .pure rfl
  | parameters params text => exact .failure

theorem arrowRest (isAsync : Bool) (params : List Pattern) (text : String) (pre : List Mark) :
    Adds (pre ++ params.flatMap Pattern.words) (g.arrowRest m isAsync params text)
      fun e => pre ++ e.words := by
  refine skips_seesArrow.andThen fun _ => (skips_check _).andThen fun _ => ?_
  refine skips_advance.andThen fun _ => (skips_sees _).andThen fun _ => .ite ?_ ?_
  · exact (h.functionBody _ _).bind fun b => .pure (by simp)
  · refine skips_peek.andThen fun _ => (h.assignment _ _).bind fun value => ?_
    exact (skips_textFrom _).andThen fun _ => .pure (by simp [itemWords])

/-! ## Operands -/

theorem importOperand : Leaves (g.importOperand m) Expr.words := by
  intro pre
  have call : Adds pre (expect .openParen >>= fun _ => g.arguments m >>= fun found =>
      Pure.pure (Expr.importCall found.1)) fun e => pre ++ e.words :=
    (skips_expect _).andThen fun _ => (h.arguments m pre).bind fun found => .pure (by simp)
  refine (skips_expectWord _).andThen fun _ => (skips_accept _).andThen fun _ => .ite ?_ ?_
  · refine skips_peek.andThen fun next => ?_
    split
    · refine skips_advance.andThen fun _ => .ite (.pure (by simp)) ?_
      exact (skips_check _).andThen fun _ => call
    · exact .failure
  · refine (skips_expect _).andThen fun _ => (h.arguments m pre).bind fun found => ?_
    exact (skips_check _).andThen fun _ => .pure (by simp)

theorem wordPrimary (next : Lexeme) (id : String) (escaped : Bool) :
    Leaves (g.wordPrimary m next id escaped) Expr.words := by
  refine fun pre => skips_seesFunction.andThen fun _ => .ite ?_ (.ite ?_ (.ite ?_ (.ite ?_ ?_)))
  · exact (h.function m false pre).bind fun f => .pure (by simp)
  · exact (h.classOf m false pre).bind fun c => .pure (by simp)
  · exact leaves_superOperand pre
  · exact h.importOperand m pre
  · exact leaves_wordOperand m id escaped pre

theorem primary : Leaves (g.primary m) Expr.words := by
  intro pre d c e c' hd he
  have read {p : Parser Expr} (hp : Leaves p Expr.words) (he : p c = some (e, c')) :
      Traces (pre ++ e.words) d c' := hp pre d c e c' hd he
  have constant {value : Expr} (hv : value.words = [])
      (he : (advance >>= fun _ => Pure.pure value) c = some (e, c')) :
      Traces (pre ++ e.words) d c' :=
    read (fun pre => skips_advance.andThen fun _ => .pure (by rw [hv, List.append_nil])) he
  unfold Grammar.primary at he
  rw [peek_bind] at he
  cases ht : c.next.token with
  | finish => rw [ht] at he; cases he
  | invalid => rw [ht] at he; cases he
  | privateName id => rw [ht] at he; cases he
  | number value => rw [ht] at he; exact constant (by simp) he
  | bigint digits => rw [ht] at he; exact constant (by simp) he
  | string value => rw [ht] at he; exact constant (by simp) he
  | word id escaped => rw [ht] at he; exact read (h.wordPrimary m c.next id escaped) he
  | punctuator p =>
    rw [ht] at he
    cases p with
    | openParen => exact read (h.parenExpression m) he
    | openBracket => exact read (fun pre => skips_advance.andThen fun _ => h.array m pre) he
    | openBrace => exact read (fun pre => skips_advance.andThen fun _ => h.object m pre) he
    | backtick => exact hd.trans (h.plainTemplate m ht he)
    | slash => exact hd.trans (regexLiteral_traces (.inl ht) he)
    | slashAssign => exact hd.trans (regexLiteral_traces (.inr ht) he)
    | «at» => exact read (fun pre => (h.classOf m false pre).bind fun c => .pure (by simp)) he
    | _ => cases he

theorem newRest : Leaves (g.newRest m) Expr.words := by
  refine fun pre => (skips_accept _).andThen fun _ => .ite ?_ ?_
  · exact (skips_expectWord _).andThen fun _ => .pure (by simp)
  · refine (h.callee m pre).bind fun callee => (skips_sees _).andThen fun _ => ?_
    refine (skips_check _).andThen fun _ => (skips_accept _).andThen fun _ => .ite ?_ ?_
    · exact (h.arguments m _).bind fun found => .pure (by simp)
    · exact .pure (by simp)

theorem start : Leaves (g.start m) Expr.words := fun pre =>
  (skips_acceptWord _).andThen fun _ => .ite (h.newRest m pre) (h.primary m pre)

end Faithful

/-! ## Links -/

/-- What has been read where an operand ends: a name at last, or what the operand leaves. -/
inductive OperandAt (pre : List Mark) (d : Cursor) : Expr → Cursor → Prop
  | name {id : String} {c : Cursor} (h : Traces pre d c) (hid : c.SeesName id) :
    OperandAt pre d (.name id) c.behind
  | other {e : Expr} {c : Cursor} (he : ∀ id, e ≠ .name id) (h : Traces (pre ++ e.words) d c) :
    OperandAt pre d e c

section Links

variable {g : Grammar} {m : Mode} {pre : List Mark} {c c' d : Cursor} {e owner : Expr}

theorem OperandAt.traces (h : OperandAt pre d e c) : Traces (pre ++ e.words) d c := by
  cases h with
  | name h hid =>
    rw [Expr.words_name]
    exact h.snoc (.word hid)
  | other he h => exact h

/-- The property of an operand behind a point. -/
theorem memberOf_operand {point : Punctuator} {optional : Bool} (h : OperandAt pre d owner c)
    (hpoint : point = .dot ∨ point = .questionDot) (hc : c.SeesMark point)
    (he : memberOf owner optional c.behind = some (e, c')) : OperandAt pre d e c' := by
  unfold memberOf at he
  rw [peek_bind] at he
  cases hfield : c.behind.next.token with
  | word field escaped =>
    rw [hfield] at he
    obtain ⟨_, c₁, ha, he⟩ := bind_eq_some.mp he
    obtain ⟨-, rfl⟩ := advance_eq_some.mp ha
    obtain ⟨rfl, rfl⟩ := pure_eq_some.mp he
    refine .other (by simp) ?_
    cases h with
    | name h hid =>
      rw [Expr.words_member_name]
      exact h.snoc (.dotted hid hpoint hc ⟨escaped, hfield⟩)
    | other howner h =>
      rw [Expr.words_member howner]
      exact (h.behind (by rw [hc]; rfl)).behind (by rw [hfield]; rfl)
  | privateName field =>
    rw [hfield] at he
    obtain ⟨_, c₁, ha, he⟩ := bind_eq_some.mp he
    obtain ⟨-, rfl⟩ := advance_eq_some.mp ha
    obtain ⟨rfl, rfl⟩ := pure_eq_some.mp he
    refine .other (by simp) ?_
    rw [Expr.words_privateMember]
    exact (h.traces.behind (by rw [hc]; rfl)).behind (by rw [hfield]; rfl)
  | _ =>
    rw [hfield] at he
    cases he

/-- An opening bracket stands behind an operand, perhaps with `?.` before it. -/
inductive Opened (c : Cursor) : Cursor → Prop
  | plain (h : c.SeesMark .openBracket) : Opened c c.behind
  | optional (dot : c.SeesMark .questionDot) (h : c.behind.SeesMark .openBracket) :
    Opened c c.behind.behind

theorem Opened.traces {c₁ : Cursor} (h : Opened c c₁) : Traces [] c c₁ := by
  cases h with
  | plain h => exact .punctuator h
  | optional dot h => exact (Traces.punctuator dot).trans (.punctuator h)

theorem Opened.stands {c₁ : Cursor} {id : String} {value : Expr} (h : Opened c.behind c₁)
    (hid : c.SeesName id) (hvalue : c₁.SeesInBrackets value) :
    Stands (.bracketed id value.givenName?) c c₁ := by
  cases h with
  | plain h => exact .bracketed hid h hvalue
  | optional dot h => exact .optional hid dot h hvalue

theorem Faithful.indexOf (hg : g.Faithful) {optional : Bool} {c₁ : Cursor}
    (h : OperandAt pre d owner c) (hopen : Opened c c₁)
    (he : g.indexOf m owner optional c₁ = some (e, c')) : OperandAt pre d e c' := by
  obtain ⟨key, c₂, hk, he⟩ := bind_eq_some.mp he
  have hkey := (hg.expression m.withIn).traces hk
  obtain ⟨_, c₃, hexpect, he⟩ := bind_eq_some.mp he
  obtain ⟨hclose, rfl⟩ := expect_eq_some.mp hexpect
  have hinner : c₁.SeesInBrackets key := by
    obtain ⟨fuel, level, rfl⟩ := hg.isGrammar
    exact ⟨fuel, level, m.withIn, c₂, hk, hclose⟩
  obtain ⟨rfl, rfl⟩ := pure_eq_some.mp he
  have hkey := hkey.behind (by rw [hclose]; rfl)
  refine .other (by simp) ?_
  cases h with
  | name h hid =>
    rw [Expr.words_index_name]
    exact h.trans (.mark (hopen.stands hid hinner) hkey)
  | other howner h =>
    rw [Expr.words_index howner, ← List.append_assoc]
    simpa using (h.trans hopen.traces).trans hkey

theorem Faithful.optionalLink (hg : g.Faithful) (h : OperandAt pre d owner c)
    (hc : c.SeesMark .questionDot) (he : g.optionalLink m owner c.behind = some (e, c')) :
    OperandAt pre d e c' := by
  unfold Grammar.optionalLink at he
  by_cases hparen : c.behind.next.token = .punctuator .openParen
  · rw [(accept_accepts .openParen).bind_true hparen, if_pos rfl] at he
    have call : Adds (pre ++ owner.words) (g.arguments m >>= fun found =>
        Pure.pure (Expr.call owner found.1 true)) fun e => pre ++ e.words :=
      (hg.arguments m _).bind fun found => .pure (by simp)
    obtain ⟨found, c₁, ha, hcall⟩ := bind_eq_some.mp he
    have htraces := call d _ e c' ((h.traces.behind (by rw [hc]; rfl)).behind
      (by rw [hparen]; rfl)) he
    obtain ⟨rfl, -⟩ := pure_eq_some.mp hcall
    exact .other (by simp) htraces
  · rw [(accept_accepts .openParen).bind_false hparen, if_neg Bool.false_ne_true] at he
    by_cases hbracket : c.behind.next.token = .punctuator .openBracket
    · rw [(accept_accepts .openBracket).bind_true hbracket, if_pos rfl] at he
      exact hg.indexOf h (.optional hc hbracket) he
    · rw [(accept_accepts .openBracket).bind_false hbracket, if_neg Bool.false_ne_true] at he
      exact memberOf_operand h (.inr rfl) hc he

/-- Another link keeps the place of what it stands behind. -/
theorem Faithful.link? (hg : g.Faithful) {calls : Bool} {chain : Chain} {next : Option Chain}
    (h : OperandAt pre d chain.value c) (hl : g.link? m calls chain c = some (next, c')) :
    OperandAt pre d (next.getD chain).value c' := by
  unfold Grammar.link? at hl
  rw [peek_bind] at hl
  have stop (hl : (Pure.pure none : Parser (Option Chain)) c = some (next, c')) :
      OperandAt pre d (next.getD chain).value c' := by
    obtain ⟨rfl, rfl⟩ := pure_eq_some.mp hl
    exact h
  have link {p : Parser Expr} {optional : Bool}
      (hp : ∀ e c', p c.behind = some (e, c') → OperandAt pre d e c')
      (hl : (advance >>= fun _ => p >>= fun e => Pure.pure (some (Chain.mk e optional))) c =
        some (next, c')) : OperandAt pre d (next.getD chain).value c' := by
    obtain ⟨_, c₁, ha, hl⟩ := bind_eq_some.mp hl
    obtain ⟨-, rfl⟩ := advance_eq_some.mp ha
    obtain ⟨e, c₂, he, hl⟩ := bind_eq_some.mp hl
    obtain ⟨rfl, rfl⟩ := pure_eq_some.mp hl
    exact hp e _ he
  cases hp : c.next.punctuator? with
  | none =>
    rw [hp] at hl
    exact stop hl
  | some p =>
    rw [hp] at hl
    have hc : c.SeesMark p := by
      simpa [Lexeme.is, Cursor.SeesMark] using Lexeme.is_iff.mpr hp
    cases p
    case dot => exact link (fun e c' he => memberOf_operand h (.inl rfl) hc he) hl
    case openBracket => exact link (fun e c' he => hg.indexOf h (.plain hc) he) hl
    case backtick =>
      obtain ⟨_, c₁, hk, hl⟩ := bind_eq_some.mp hl
      obtain ⟨-, rfl⟩ := check_eq_some.mp hk
      obtain ⟨_, c₁, ha, hl⟩ := bind_eq_some.mp hl
      obtain ⟨-, rfl⟩ := advance_eq_some.mp ha
      obtain ⟨⟨texts, values⟩, c₂, hr, hl⟩ := bind_eq_some.mp hl
      obtain ⟨rfl, rfl⟩ := pure_eq_some.mp hl
      refine .other (by simp) ?_
      simpa using h.traces.trans (hg.template m hc hr)
    case openParen =>
      cases calls with
      | true =>
        obtain ⟨_, c₁, ha, hl⟩ := bind_eq_some.mp hl
        obtain ⟨-, rfl⟩ := advance_eq_some.mp ha
        obtain ⟨found, c₂, hr, hl⟩ := bind_eq_some.mp hl
        obtain ⟨rfl, rfl⟩ := pure_eq_some.mp hl
        refine .other (by simp) ?_
        simpa using (h.traces.behind (by rw [hc]; rfl)).trans ((hg.arguments m).traces hr)
      | false => exact stop hl
    case questionDot =>
      cases calls with
      | true => exact link (fun e c' he => hg.optionalLink h hc he) hl
      | false => exact stop hl
    all_goals exact stop hl

theorem Faithful.links (hg : g.Faithful) {calls : Bool} (h : OperandAt pre d owner c)
    (he : g.links m calls owner c = some (e, c')) : Traces (pre ++ e.words) d c' := by
  replace h : OperandAt pre d (Chain.mk owner false).value c := h
  unfold Grammar.links at he
  generalize g.fuel = n at he
  generalize Chain.mk owner false = chain at h he
  induction n generalizing chain c with
  | zero => cases he
  | succ n ih =>
    rw [iterate_succ, bind_assoc] at he
    obtain ⟨next, c₁, hl, he⟩ := bind_eq_some.mp he
    have hnext := hg.link? h hl
    cases next with
    | some next => exact ih next hnext he
    | none =>
      obtain ⟨rfl, rfl⟩ := pure_eq_some.mp he
      unfold Chain.finish
      split
      · simpa using hnext.traces
      · exact hnext.traces

theorem Faithful.start_operand (hg : g.Faithful) (hd : Traces pre d c)
    (he : g.start m c = some (e, c')) : OperandAt pre d e c' := by
  by_cases hname : ∃ id, e = .name id
  · obtain ⟨id, rfl⟩ := hname
    rcases primary_whole (start_whole he rfl) rfl with ⟨_, hid, hi⟩ | ⟨_, _, h, -⟩ | ⟨_, _, h, -⟩ |
      ⟨_, h, -⟩ | ⟨_, _, h, -⟩
    · cases hid
      obtain ⟨hword, rfl⟩ := identifier_eq_some.mp hi
      exact .name hd (Lexeme.identifier?_word hword)
    · cases h
    · cases h
    · cases h
    · cases h
  · exact .other (fun id hid => hname ⟨id, hid⟩) (hg.start m pre d c e c' hd he)

end Links

namespace Faithful

variable {g : Grammar} (h : g.Faithful) (m : Mode)

include h

theorem newCallee : Leaves (g.newCallee m) Expr.words := by
  refine fun pre => (skips_seesWord _).andThen fun _ => (skips_check _).andThen fun _ => ?_
  intro d c e c' hd he
  obtain ⟨operand, c₁, hs, he⟩ := bind_eq_some.mp he
  exact h.links (h.start_operand hd hs) he

theorem leftHandSide : Leaves (g.leftHandSide m) Expr.words := by
  intro pre d c e c' hd he
  obtain ⟨operand, c₁, hs, he⟩ := bind_eq_some.mp he
  exact h.links (h.start_operand hd hs) he

/-! ## Operators -/

theorem postfixed {pre : List Mark} {c c' d : Cursor} {e operand : Expr}
    (ho : OperandAt pre d operand c) (he : g.postfixed m operand c = some (e, c')) :
    Traces (pre ++ e.words) d c' := by
  obtain ⟨linked, c₁, hl, he⟩ := bind_eq_some.mp he
  have rest : Adds (pre ++ linked.words) (updateRest linked) fun e => pre ++ e.words := by
    refine skips_peek.andThen fun next => ?_
    split
    · refine .ite (.pure rfl) ((skips_check _).andThen fun _ => skips_advance.andThen fun _ => ?_)
      exact .pure (by simp)
    · exact .pure rfl
  exact rest _ _ _ _ (h.links ho hl) he

theorem unaryExpression : Leaves (g.unaryExpression m) Expr.words := by
  refine fun pre => skips_peek.andThen fun next => ?_
  split
  · exact skips_advance.andThen fun _ => (h.unary m pre).bind fun e => .pure (by simp)
  · refine skips_advance.andThen fun _ => (h.unary m pre).bind fun e => ?_
    exact (skips_check _).andThen fun _ => .pure (by simp)
  · refine .ite ?_ ?_
    · exact skips_advance.andThen fun _ => (h.unary m pre).bind fun e => .pure (by simp)
    · intro d c e c' hd he
      obtain ⟨operand, c₁, hs, he⟩ := bind_eq_some.mp he
      exact h.postfixed m (h.start_operand hd hs) he

omit h in
theorem words_join {op : Infix} {left right joined : Expr} (hj : op.join left right = some joined) :
    joined.words = left.words ++ right.words := by
  unfold Infix.join at hj
  split at hj
  · dsimp only at hj
    split at hj
    · cases hj
    · cases hj
      simp
  · split at hj
    · cases hj
      simp
    · cases hj
  · cases hj
    simp

theorem operators (level : Nat) (left : Expr) (pre : List Mark) :
    Adds (pre ++ left.words) (g.operators m level left) fun e => pre ++ e.words := by
  refine .iterate (I := fun left => pre ++ left.words) rfl fun left => ?_
  refine skips_peek.andThen fun _ => ?_
  split
  · refine .ite ?_ (.pure rfl)
    refine skips_advance.andThen fun _ => (h.operand m _ _).bind fun right => ?_
    exact .lift fun joined hj => .pure (by simp [words_join hj])
  · exact .pure rfl

theorem operandAbove (level : Nat) : Leaves (g.operandAbove m level) Expr.words := by
  refine fun pre => skips_peek.andThen fun next => ?_
  split
  · refine (skips_check _).andThen fun _ => skips_advance.andThen fun _ => ?_
    refine (skips_expectWord _).andThen fun _ => (h.operand m _ pre).bind fun right => ?_
    exact Expr.words_privateIn _ _ ▸ h.operators m level (.privateIn _ right) pre
  · exact (h.unaryExpression m pre).bind fun left => h.operators m level left pre

/-! ## Assignments -/

theorem assignmentRest (left : Expr) (pre : List Mark) :
    Adds (pre ++ left.words) (g.assignmentRest m left) fun e => pre ++ e.words := by
  refine skips_peek.andThen fun next => ?_
  split
  · refine .lift fun target ht => skips_advance.andThen fun _ => ?_
    have hwords : target.words = left.words := by
      split at ht
      · exact left.words_target? (Option.filter_eq_some_iff.mp ht).1
      · split at ht
        · cases ht
          simp
        · cases ht
    exact (h.assignment m _).bind fun value => .pure (by simp [hwords])
  · refine (skips_accept _).andThen fun _ => .ite ?_ (.pure rfl)
    refine (h.assignment _ _).bind fun yes => (skips_expect _).andThen fun _ => ?_
    exact (h.assignment m _).bind fun no => .pure (by simp)

theorem assignmentFrom {pre : List Mark} {c c' d : Cursor} {e operand : Expr}
    (ho : OperandAt pre d operand c) (he : g.assignmentFrom m operand c = some (e, c')) :
    Traces (pre ++ e.words) d c' := by
  obtain ⟨first, c₁, hp, he⟩ := bind_eq_some.mp he
  have rest : Adds (pre ++ first.words) (g.operators m 0 first >>= g.assignmentRest m)
      fun e => pre ++ e.words :=
    (h.operators m 0 first pre).bind fun left => h.assignmentRest m left pre
  exact rest _ _ _ _ (h.postfixed m ho hp) he

theorem yieldRest : Leaves (g.yieldRest m) Expr.words := by
  refine fun pre => (skips_expectWord _).andThen fun _ => skips_peek.andThen fun _ => ?_
  refine .ite (.pure (by simp)) ((skips_accept _).andThen fun _ => skips_peek.andThen fun _ => ?_)
  refine .ite (.pure (by simp)) ?_
  exact (h.assignment m pre).bind fun value => .pure (by simp)

/-- The word before the parenthesis is a name where no arrow follows. -/
theorem asyncParen : Leaves (g.asyncParen m) Expr.words := by
  intro pre d c e c' hd he
  obtain ⟨_, c₁, hw, he⟩ := bind_eq_some.mp he
  obtain ⟨hasync, rfl⟩ := expectWord_eq_some.mp hw
  rw [peek_bind] at he
  obtain ⟨_, c₂, hp, he⟩ := bind_eq_some.mp he
  obtain ⟨hparen, rfl⟩ := expect_eq_some.mp hp
  obtain ⟨⟨items, comma⟩, c₃, hitems, he⟩ := bind_eq_some.mp he
  have hitems : Traces (items.flatMap Expr.words) c.behind c₃ :=
    (Traces.punctuator hparen).trans ((h.arguments m).traces hitems)
  obtain ⟨arrow, c₄, hs, he⟩ := bind_eq_some.mp he
  obtain rfl : c₄ = c₃ := (Prod.mk.inj (Option.some.inj hs)).2.symm
  cases arrow with
  | true =>
    have rest (start : List Char) : Adds (pre ++ items.flatMap Expr.words)
        (lift (parameters? items comma) >>= fun params => textFrom start >>= fun text =>
          g.arrowRest m true params text) fun e => pre ++ e.words :=
      .lift fun params hparams => (skips_textFrom _).andThen fun text =>
        words_parameters? hparams ▸ h.arrowRest m true params text pre
    refine rest _ d c₄ e c' ?_ he
    exact (hd.behind (by rw [hasync]; rfl)).trans hitems
  | false =>
    have operand : OperandAt pre d (.call (.name "async") items false) c₄ :=
      .other (by simp) (by simpa using (hd.snoc (.word ⟨false, hasync⟩)).trans hitems)
    exact h.assignmentFrom m operand he

theorem singleArrow (isAsync : Bool) : Leaves (g.singleArrow m isAsync) Expr.words := by
  refine fun pre => skips_peek.andThen fun _ => (leaves_identifier _ pre).bind fun id => ?_
  refine (skips_textFrom _).andThen fun text => ?_
  simpa using h.arrowRest m isAsync [.bind id] text pre

theorem assignmentExpression : Leaves (g.assignmentExpression m) Expr.words := by
  have looks : Skips (opening m) := .of_stay fun c _ _ ho => by
    rw [opening_eq] at ho
    cases ho
    rfl
  refine fun pre => looks.andThen fun begins => ?_
  cases begins with
  | arrow => exact h.singleArrow m false pre
  | asyncArrow => exact (skips_expectWord _).andThen fun _ => h.singleArrow m true pre
  | asyncParen => exact h.asyncParen m pre
  | yields => exact h.yieldRest m pre
  | paren =>
    intro d c e c' hd he
    obtain ⟨r, c₁, hr, he⟩ := bind_eq_some.mp he
    have htraces := h.parenthesized m pre _ _ _ _ hd hr
    cases r with
    | parameters params text => exact h.arrowRest m false params text pre _ _ _ _ htraces he
    | value e =>
      obtain ⟨text, inner, rfl⟩ := parenthesized_value hr
      exact h.assignmentFrom m (.other (by simp) htraces) he
  | other => exact (h.operandAbove m 0 pre).bind fun left => h.assignmentRest m left pre

end Faithful
end Grammar
end Collector.Script
