import Collector.Proofs.Script.Reading
import Collector.Proofs.Script.Words

/-!
# Parameter lists and bodies that read the same wherever they stand

A parameter list ends with its parenthesis and a body with its brace, so what stands behind either
does not matter. Such a closer is taken on both sides of a seam: the seam lies before it.
-/

namespace Collector.Script

open Relation

variable {α : Type}

/-! ## Brackets as tokens -/

theorem spelling_of_bracket : ∀ entry ∈ spellings, ∀ bracket ∈ brackets, entry.2 = bracket.2 →
    entry.1 = [bracket.1] := by
  decide +kernel

/-- A bracket is one character. -/
theorem Cursor.start_of_bracket {cursor : Cursor} {c : Char} {p : Punctuator}
    (hb : (c, p) ∈ brackets) (h : cursor.next.token = .punctuator p) :
    cursor.next.start = c :: cursor.next.rest := by
  rw [cursor.next_eq] at h ⊢
  cases hs : skipBefore cursor.origin cursor.left with
  | none => simp [lex, hs] at h
  | some found =>
    obtain ⟨newline, start⟩ := found
    simp only [lex, hs] at h ⊢
    obtain ⟨spelling, hmem, ht⟩ := tokenAt_punctuator
      (show tokenAt start = (.punctuator p, (tokenAt start).2) from Prod.ext h rfl)
    have hspelling : spelling = [c] := spelling_of_bracket _ hmem _ hb rfl
    rw [hspelling] at ht
    exact ht

theorem mem_brackets (k : Closer) : (k.char, k.punctuator) ∈ brackets := by
  cases k <;> simp [brackets, Closer.char, Closer.punctuator]

theorem next_of_bracket {c : Char} {p : Punctuator} (h : (c, p) ∈ brackets) (rest : List Char) :
    (Cursor.front .inside (c :: rest)).next = ⟨.punctuator p, false, c :: rest, rest⟩ :=
  lex_bracket rest h

theorem slice_append (front rest : List Char) : slice (front ++ rest) rest = String.ofList front := by
  simp [slice]

/-! ## A seam before a token -/

/-- The seam before a token, in the place of which a closer and other text may stand. -/
def Seam.before (old : List Char) (k : Closer) (rest : List Char) : Seam :=
  ⟨old, k.char :: rest, .closer k, .inr ⟨rest, rfl⟩, nofun⟩

namespace Seam

variable {c : Cursor}

theorem before_next (h : c.next.token.isReal = true) (k : Closer) (rest : List Char) :
    ((before c.next.start k rest).moved c).next =
      ⟨.punctuator k.punctuator, c.next.newline, k.char :: rest, rest⟩ := by
  obtain ⟨gap, hgap⟩ := c.start_suffix
  have hskip : skipBefore c.origin (gap ++ c.next.start) = some (c.next.newline, c.next.start) := by
    rw [hgap, c.next_eq]
    rw [c.next_eq] at h
    cases hs : skipBefore c.origin c.left with
    | none => simp [lex, hs, Token.isReal] at h
    | some found => simp [lex, hs]
  have hne : c.next.start ≠ [] := by
    have := c.rest_lt_start h
    exact List.length_pos_iff.mp (by omega)
  show lex c.origin ((before c.next.start k rest).shift c.left) = _
  rw [show c.left = gap ++ (before c.next.start k rest).old from hgap.symm, shift_append]
  exact lex_closer hskip hne k rest

theorem before_atSeam (h : c.next.token.isReal = true) (k : Closer) (rest : List Char) :
    (before c.next.start k rest).AtSeam c :=
  ⟨c.start_suffix, le_rfl, by rw [before_next h]; rfl, by rw [before_next h]; rfl⟩

end Seam

/-! ## Lists without their closing bracket -/

namespace Grammar

/-- One round of reading a list. -/
def listStep (stop : Punctuator) (item : Parser α) (state : List α × Bool) :
    Parser ((List α × Bool) ⊕ (List α × Bool)) := do
  if ← Parser.accept stop then
    return .inr (state.1.reverse, state.2)
  else
    let value ← item
    if ← Parser.accept .comma then
      return .inl (value :: state.1, true)
    else
      Parser.expect stop
      return .inr ((value :: state.1).reverse, false)

/-- One round of reading a list, in which the closing bracket is left. -/
def listStepBefore (stop : Punctuator) (item : Parser α) (state : List α × Bool) :
    Parser ((List α × Bool) ⊕ (List α × Bool)) := do
  if ← Parser.sees stop then
    return .inr (state.1.reverse, state.2)
  else
    let value ← item
    if ← Parser.accept .comma then
      return .inl (value :: state.1, true)
    else
      Parser.check (← Parser.sees stop)
      return .inr ((value :: state.1).reverse, false)

/-- The items of a list up to its closing bracket, which is left. -/
def listBefore (g : Grammar) (stop : Punctuator) (item : Parser α) : Parser (List α × Bool) :=
  Parser.iterate g.fuel (listStepBefore stop item) ([], false)

/-- Takes the closing bracket of a list. -/
def closeList (stop : Punctuator) (items : List α × Bool) : Parser (List α × Bool) := do
  Parser.expect stop
  return items

theorem closeList_of_token {stop : Punctuator} {c : Cursor} (h : c.next.token = .punctuator stop)
    (items : List α × Bool) : closeList stop items c = some (items, .front .inside c.next.rest) :=
  Parser.bind_of_eq_some (Parser.expect_of_token h)

theorem check_then_closeList (stop : Punctuator) (items : List α × Bool) :
    (Parser.sees stop >>= fun closes => Parser.check closes >>= fun _ => closeList stop items) =
      closeList stop items := by
  funext c
  rw [Parser.sees_bind, Parser.peek_bind]
  by_cases hc : c.next.token = .punctuator stop
  · rw [show c.next.is stop = true by simp [Lexeme.is, hc]]
    rfl
  · rw [show c.next.is stop = false by simp [Lexeme.is, hc], closeList, Parser.expect, bind_assoc,
      (Parser.accept_accepts stop).bind_false hc]
    rfl

theorem listStep_then (stop : Punctuator) (item : Parser α)
    (next : List α × Bool → Parser (List α × Bool)) (state : List α × Bool) :
    listStep stop item state >>= Sum.elim next pure =
      listStepBefore stop item state >>= Sum.elim next (closeList stop) := by
  unfold listStep listStepBefore
  rw [bind_assoc, bind_assoc, Parser.sees_bind]
  funext c
  rw [Parser.peek_bind]
  by_cases hc : c.next.token = .punctuator stop
  · rw [(Parser.accept_accepts stop).bind_true hc,
      show c.next.is stop = true by simp [Lexeme.is, hc], if_pos rfl, if_pos rfl, pure_bind,
      pure_bind]
    exact (closeList_of_token hc _).symm
  · rw [(Parser.accept_accepts stop).bind_false hc,
      show c.next.is stop = false by simp [Lexeme.is, hc]]
    simp only [Bool.false_eq_true, if_false, bind_assoc]
    refine congrFun (congrArg (item >>= ·) (funext fun value =>
      congrArg (Parser.accept .comma >>= ·) (funext fun comma => ?_))) c
    cases comma with
    | true => rfl
    | false =>
      simp only [Bool.false_eq_true, if_false, bind_assoc, pure_bind, Sum.elim_inr]
      exact (check_then_closeList stop _).symm

/-- A list is read up to its closing bracket, and then the bracket is taken. -/
theorem listUntil_eq (g : Grammar) (stop : Punctuator) (item : Parser α) :
    g.listUntil stop item = g.listBefore stop item >>= closeList stop := by
  have rounds : g.listUntil stop item = Parser.iterate g.fuel (listStep stop item) ([], false) :=
    rfl
  rw [rounds, listBefore]
  generalize (([], false) : List α × Bool) = state
  induction g.fuel generalizing state with
  | zero => rfl
  | succ n ih =>
    rw [Parser.iterate_succ, Parser.iterate_succ, bind_assoc, funext ih, listStep_then]
    congr 1
    funext r
    cases r <;> rfl

theorem listUntil_eq_some {g : Grammar} {stop : Punctuator} {item : Parser α} {c c' : Cursor}
    {items : List α × Bool} : g.listUntil stop item c = some (items, c') ↔
      ∃ e, g.listBefore stop item c = some (items, e) ∧ e.next.token = .punctuator stop ∧
        c' = .front .inside e.next.rest := by
  rw [listUntil_eq, Parser.bind_eq_some]
  constructor
  · rintro ⟨found, e, hb, hc⟩
    have ht : e.next.token = .punctuator stop := by
      by_contra ht
      rw [closeList, Parser.expect, bind_assoc, (Parser.accept_accepts stop).bind_false ht] at hc
      cases hc
    rw [closeList_of_token ht] at hc
    cases hc
    exact ⟨e, hb, ht, rfl⟩
  · rintro ⟨e, hb, ht, rfl⟩
    exact ⟨items, e, hb, closeList_of_token ht items⟩

end Grammar

/-- At a seam before a closer, both sides see it. -/
theorem Follows.sees_closer {β : Type} {σ : Seam} {halts : Cursor → Prop} {p : Punctuator}
    (hs : σ.stop.token = .punctuator p) (hh : ∀ c, halts c → c.next.token = .punctuator p)
    {k k' : Bool → Parser β} (hk : ∀ b, Follows σ halts (k b) (k' b)) :
    Follows σ halts (Parser.sees p >>= k) (Parser.sees p >>= k') := by
  rw [Parser.sees_bind, Parser.sees_bind]
  refine .peek (fun l => hk (l.is p)) fun c a hat hc hb => ?_
  rw [show c.next.is p = true by simp [Lexeme.is, hh c hc]] at hb
  rw [show (σ.moved c).next.is p = true by simp [Lexeme.is, hat.token, hs]]
  exact (hk true).keeps hb (.inr ⟨hat, hc⟩)

namespace Agrees

open Grammar

variable {σ : Seam} {g g' : Grammar} {halts : Cursor → Prop} (h : Agrees σ g g') (m : Mode)
  (inside : Bool)

include h

/-- At a seam before a closing bracket, a list is read up to it on both sides. -/
theorem listBefore {stop : Punctuator} (hs : σ.stop.token = .punctuator stop)
    (hh : ∀ c, halts c → c.next.token = .punctuator stop) {item item' : Parser α}
    (hi : Follows σ halts item item') :
    Follows σ halts (g.listBefore stop item) (g'.listBefore stop item') := by
  refine .iterate h.fuel (fun state => .sees_closer hs hh fun closes => .ite (.pure _) ?_) _
  refine hi.bind fun value => .accept (Stop.ne (by decide) _) (.pure _) ?_
  exact .sees_closer hs hh fun closes => Follows.check.bind fun _ => .pure _

/-- At a seam before the parenthesis behind the parameters, each of them is read on both sides. -/
theorem parameter_before (hs : σ.stop.token = .punctuator .closeParen)
    (hh : ∀ c, halts c → c.next.token = .punctuator .closeParen) :
    Follows σ halts (g.parameter m) (g'.parameter (m.widen inside)) := by
  refine .sees (Stop.ne (by decide) _) ?_ (h.bindingItem m inside).follows
  exact (h.bindingRest m inside).leads.bind fun pattern =>
    .sees_closer hs hh fun _ => Follows.check.bind fun _ => .pure pattern

end Agrees

/-! ## Parameter lists -/

namespace Grammar

theorem parameters_eq_some {g : Grammar} {m : Mode} {c c' : Cursor} {params : List Pattern}
    {text : String} : g.parameters m c = some ((params, text), c') ↔
      c.next.token = .punctuator .openParen ∧ ∃ comma e,
        g.listBefore .closeParen (g.parameter m) (.front .inside c.next.rest) =
          some ((params, comma), e) ∧
        e.next.token = .punctuator .closeParen ∧ c' = .front .inside e.next.rest ∧
        text = slice c.next.start e.next.rest := by
  have run : g.parameters m = Parser.peek >>= fun next => Parser.expect .openParen >>= fun _ =>
      g.listUntil .closeParen (g.parameter m) >>= fun items =>
        Parser.textFrom next.start >>= fun text => pure (items.1, text) := rfl
  have answer (start : List Char) (items : List Pattern × Bool) (c : Cursor) :
      (Parser.textFrom start >>= fun text => pure (items.1, text) : Parser _) c =
        some ((items.1, slice start c.left), c) := rfl
  rw [run, Parser.peek_bind]
  by_cases ht : c.next.token = .punctuator .openParen
  · rw [Parser.bind_of_eq_some (Parser.expect_of_token ht), Parser.bind_eq_some]
    constructor
    · rintro ⟨⟨items, comma⟩, c₁, hl, hr⟩
      obtain ⟨e, hb, he, rfl⟩ := listUntil_eq_some.mp hl
      cases hr
      exact ⟨ht, comma, e, hb, he, rfl, rfl⟩
    · rintro ⟨-, comma, e, hb, he, rfl, rfl⟩
      exact ⟨(params, comma), _, listUntil_eq_some.mpr ⟨e, hb, he, rfl⟩, rfl⟩
  · constructor
    · intro h
      obtain ⟨_, c₁, he, -⟩ := Parser.bind_eq_some.mp h
      rw [Parser.expect, (Parser.accept_accepts .openParen).bind_false ht] at he
      cases he
    · rintro ⟨h, -⟩
      exact absurd h ht

end Grammar

/-- The mode inside a function that is neither async nor a generator. -/
def Mode.plain : Mode := Grammar.functionMode false false

/-- A parameter list that is read the same wherever it stands. -/
def ReadsParameters (params : List Pattern) (text : String) : Prop :=
  ∀ rest, ∀ᶠ g in large, g.parameters Mode.plain (.front .inside (text.toList ++ rest)) =
    some ((params, text), .front .inside rest)

/-- A parameter list that was read once is read the same wherever it stands. -/
theorem readsParameters {fuel level : Nat} {c c' : Cursor} {params : List Pattern} {text : String}
    (h : (grammar fuel level).parameters Mode.plain c = some ((params, text), c')) :
    (∃ inner, text.toList = '(' :: inner ++ [')']) ∧ c.next.start = text.toList ++ c'.left ∧
      ReadsParameters params text := by
  obtain ⟨ht, comma, e, hb, he, rfl, rfl⟩ := Grammar.parameters_eq_some.mp h
  have hstart := Cursor.start_of_bracket (c := '(') (by decide) ht
  have hreal : e.next.token.isReal = true := by rw [he]; rfl
  have hclose := Cursor.start_of_bracket (mem_brackets .paren) he
  have follows (rest : List Char) {g g' : Grammar}
      (h : Agrees (.before e.next.start .paren rest) g g') :
      Follows (.before e.next.start .paren rest) (· = e)
        (g.listBefore .closeParen (g.parameter Mode.plain))
        (g'.listBefore .closeParen (g'.parameter Mode.plain)) := by
    have hh (d : Cursor) (hd : d = e) : d.next.token = .punctuator .closeParen := hd ▸ he
    refine h.listBefore rfl hh ?_
    have := h.parameter_before Mode.plain false rfl hh
    rwa [Mode.widen_false] at this
  obtain ⟨inner, hinner⟩ : e.next.start <:+ c.next.rest :=
    e.start_suffix.trans (suffix_of_moves ((follows [] (agrees_grammar le_rfl le_rfl)).moves hb))
  have hleft : c.next.start = '(' :: inner ++ [')'] ++ e.next.rest := by
    rw [hstart, ← hinner, hclose]
    simp [Closer.char]
  rw [hleft, slice_append]
  refine ⟨⟨inner, String.toList_ofList⟩, by rw [String.toList_ofList]; rfl, fun rest => ?_⟩
  have hmoved : (Seam.before e.next.start .paren rest).moved (.front .inside c.next.rest) =
      .front .inside (inner ++ ')' :: rest) := by
    rw [← hinner]
    exact congrArg (Cursor.front .inside) (Seam.shift_append _ inner)
  have hnext : (Cursor.front .inside ((String.ofList ('(' :: inner ++ [')'])).toList ++ rest)).next =
      ⟨.punctuator .openParen, false, '(' :: inner ++ [')'] ++ rest, inner ++ ')' :: rest⟩ := by
    rw [String.toList_ofList, List.append_assoc]
    exact next_of_bracket (c := '(') (by decide) (inner ++ ')' :: rest)
  have hend := Seam.before_next hreal .paren rest
  filter_upwards [eventually_keeps (follows rest) hb (.inr ⟨Seam.before_atSeam hreal .paren rest, rfl⟩)]
    with g hg
  rw [hmoved] at hg
  refine Grammar.parameters_eq_some.mpr ⟨by rw [hnext], comma,
    (Seam.before e.next.start .paren rest).moved e, ?_, ?_, ?_, ?_⟩
  · rw [hnext]
    exact hg
  · rw [hend]
    rfl
  · rw [hend]
  · rw [hend, hnext, slice_append]

/-! ## Bodies -/

namespace Grammar

theorem functionBody_eq_some {g : Grammar} {m : Mode} {c c' : Cursor} {body : Body} :
    g.functionBody m c = some (body, c') ↔ c.next.token = .punctuator .openBrace ∧ ∃ e,
      g.body m (.front .inside c.next.rest) = some (body, e) ∧
      e.next.token = .punctuator .closeBrace ∧ c' = .front .inside e.next.rest := by
  have run : g.functionBody m = Parser.expect .openBrace >>= fun _ => g.body m >>= fun body =>
      Parser.expect .closeBrace >>= fun _ => pure body := rfl
  rw [run]
  by_cases ht : c.next.token = .punctuator .openBrace
  · rw [Parser.bind_of_eq_some (Parser.expect_of_token ht), Parser.bind_eq_some]
    constructor
    · rintro ⟨found, e, hb, hc⟩
      have he : e.next.token = .punctuator .closeBrace := by
        by_contra he
        rw [Parser.expect, bind_assoc, (Parser.accept_accepts .closeBrace).bind_false he] at hc
        cases hc
      rw [Parser.bind_of_eq_some (Parser.expect_of_token he)] at hc
      cases hc
      exact ⟨ht, e, hb, he, rfl⟩
    · rintro ⟨-, e, hb, he, rfl⟩
      exact ⟨body, e, hb, Parser.bind_of_eq_some (Parser.expect_of_token he)⟩
  · constructor
    · intro h
      obtain ⟨_, c₁, he, -⟩ := Parser.bind_eq_some.mp h
      rw [Parser.expect, (Parser.accept_accepts .openBrace).bind_false ht] at he
      cases he
    · rintro ⟨h, -⟩
      exact absurd h ht

end Grammar

/-- A body that is read the same wherever it stands before a brace. -/
def ReadsBody (body : Body) : Prop :=
  ∀ rest, ∃ e : Cursor, e.next.token = .punctuator .closeBrace ∧ e.next.rest = rest ∧
    ∀ᶠ g in large, g.body Mode.plain (.front .inside (body.source.toList ++ '\x7d' :: rest)) =
      some (body, e)

/-- The text of a body stands before the place where the body ends. -/
theorem body_source {fuel level : Nat} {m : Mode} {c e : Cursor} {body : Body}
    (h : (grammar fuel level).body m c = some (body, e)) :
    c.left = body.source.toList ++ e.next.start := by
  obtain ⟨q, hq, rfl, -, rfl⟩ := Grammar.reads_of_body h
  rw [source_bodyOf, textAt_of_run hq]
  simp [Grammar.textAt, String.join]

/-- A body that was read once is read the same wherever it stands before a brace. -/
theorem readsBody {fuel level : Nat} {c c' : Cursor} {body : Body}
    (h : (grammar fuel level).functionBody Mode.plain c = some (body, c')) :
    c.next.start = body.block.toList ++ c'.left ∧ ReadsBody body := by
  obtain ⟨ht, e, hb, he, rfl⟩ := Grammar.functionBody_eq_some.mp h
  have hreal : e.next.token.isReal = true := by rw [he]; rfl
  have hleft : c.next.rest = body.source.toList ++ e.next.start := body_source hb
  refine ⟨?_, fun rest => ?_⟩
  · rw [Cursor.start_of_bracket (c := '\x7b') (by decide) ht, hleft,
      Cursor.start_of_bracket (mem_brackets .brace) he]
    simp [Body.block, Cursor.front, Closer.char]
  have hend := Seam.before_next hreal .brace rest
  have hcloses : (Seam.before e.next.start .brace rest).Closes (· = e) := by
    rintro _ rfl
    exact ⟨he, rfl, rfl, by rw [hend]; rfl⟩
  refine ⟨(Seam.before e.next.start .brace rest).moved e, by rw [hend]; rfl, by rw [hend], ?_⟩
  have hmoved : (Seam.before e.next.start .brace rest).moved (.front .inside c.next.rest) =
      .front .inside (body.source.toList ++ '\x7d' :: rest) := by
    rw [hleft]
    exact congrArg (Cursor.front .inside) (Seam.shift_append _ body.source.toList)
  rw [← hmoved]
  have hok : (Seam.before e.next.start .brace rest).Ok (· = e) e :=
    .inr ⟨Seam.before_atSeam hreal .brace rest, rfl⟩
  refine eventually_keeps (p := fun g => g.body Mode.plain) (fun {g g'} h => ?_) hb hok
  have := h.body Mode.plain false hcloses
  rwa [Mode.widen_false] at this

theorem readsBody_of_eventually {text : List Char} {e : Cursor} {body : Body}
    (h : ∀ᶠ g in large, g.body Mode.plain (.front .inside text) = some (body, e))
    (he : e.next.token = .punctuator .closeBrace) : ReadsBody body := by
  obtain ⟨fuel, level, hb⟩ := exists_grammar h
  have hnext := next_of_bracket (c := '\x7b') (p := .openBrace) (by decide) text
  have hf : (grammar fuel level).functionBody Mode.plain (.front .inside ('\x7b' :: text)) =
      some (body, .front .inside e.next.rest) := by
    refine Grammar.functionBody_eq_some.mpr ⟨by rw [hnext], e, ?_, he, rfl⟩
    rw [hnext]
    exact hb
  exact (readsBody hf).2

/-! ## Functions -/

/-- A function in canonical form whose parts are read the same wherever they stand. -/
structure Function.Portable (f : Function) (name : String) : Prop where
  isAsync : f.isAsync = false
  isGenerator : f.isGenerator = false
  named : f.name = some name
  head : f.head = "function " ++ name
  gap : f.gap = ""
  word : IsWord name
  free : reservedWords.contains name = false
  paramsText : ∃ inner, f.paramsText.toList = '(' :: inner ++ [')']
  params : ReadsParameters f.params f.paramsText
  body : ReadsBody f.body

namespace Function.Portable

variable {f : Function} {name : String} (h : f.Portable name)

include h

theorem source_eq : f.source.toList =
    "function ".toList ++ (name.toList ++ (f.paramsText.toList ++ f.body.block.toList)) := by
  simp [Function.source, h.head, h.gap]

theorem functionBody (rest : List Char) : ∀ᶠ g in large,
    g.functionBody Mode.plain (.front .inside (f.body.block.toList ++ rest)) =
      some (f.body, .front .inside rest) := by
  obtain ⟨e, he, rfl, hb⟩ := h.body rest
  filter_upwards [hb] with g hg
  have hnext : (Cursor.front .inside (f.body.block.toList ++ e.next.rest)).next =
      ⟨.punctuator .openBrace, false, f.body.block.toList ++ e.next.rest,
        f.body.source.toList ++ '\x7d' :: e.next.rest⟩ := by
    have hblock : f.body.block.toList ++ e.next.rest =
        '\x7b' :: (f.body.source.toList ++ '\x7d' :: e.next.rest) := by
      simp [Body.block]
    rw [hblock]
    exact next_of_bracket (by decide) _
  refine Grammar.functionBody_eq_some.mpr ⟨by rw [hnext], e, ?_, he, rfl⟩
  rw [hnext]
  exact hg

/-- The parameters and the body of a function are read the same wherever they stand. -/
theorem functionRest (start rest : List Char) : ∀ᶠ g in large,
    g.functionRest false false (some name) start
        (.front .inside (f.paramsText.toList ++ (f.body.block.toList ++ rest))) =
      some ({ f with head := slice start (f.paramsText.toList ++ (f.body.block.toList ++ rest)) },
        .front .inside rest) := by
  obtain ⟨inner, hinner⟩ := h.paramsText
  filter_upwards [h.params (f.body.block.toList ++ rest), h.functionBody rest] with g hp hb
  have hstart (text : List Char) :
      (Cursor.front .inside (f.paramsText.toList ++ text)).next.start =
        f.paramsText.toList ++ text := by
    rw [hinner, List.append_assoc, List.cons_append, next_of_bracket (p := .openParen) (by decide)]
  have hgap : (Cursor.front .inside (f.body.block.toList ++ rest)).next.start =
      f.body.block.toList ++ rest := by
    have hblock : f.body.block.toList ++ rest =
        '\x7b' :: (f.body.source.toList ++ '\x7d' :: rest) := by
      simp [Body.block]
    rw [hblock, next_of_bracket (p := .openBrace) (by decide)]
  refine Grammar.functionRest_eq_some.mpr ⟨_, _, _, _, hp, hb, ?_⟩
  rw [hstart, hgap]
  simp [h.isAsync, h.isGenerator, h.named, h.gap, slice, Cursor.front, Function.body]

end Function.Portable

end Collector.Script
