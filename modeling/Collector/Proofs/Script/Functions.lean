import Collector.Script.Grammar.Function
import Collector.Proofs.Script.Ahead
import Collector.Proofs.Script.Patterns

/-!
# Functions across a seam

A function ends with its brace, so its productions follow each other wherever they stop. The words
that modify a property are told by the token behind them; something is always taken behind them.
-/

namespace Collector.Script

open Relation

variable {α : Type} {σ : Seam} {halts : Cursor → Prop}

theorem Lexeme.word_of_isWord {l : Lexeme} {word : String} (h : l.isWord word = true) :
    ∃ id escaped, l.token = .word id escaped :=
  ⟨word, false, by simpa [isWord] using h⟩

/-! ## Texts up to the next token -/

theorem Seam.slice_shift_shift (start : List Char) {stop : List Char} (h : σ.old <:+ stop) :
    slice (σ.shift start) (σ.shift stop) = slice start stop := by
  obtain ⟨front, rfl⟩ := h
  rw [Seam.shift_append, Seam.slice_shift]

/-- The text between two places is the same on both sides if both stand before the seam. -/
theorem Seam.slice_left {start : List Char} {c : Cursor} (h : σ.old <:+ c.left) :
    slice (σ.shift start) (σ.moved c).left = slice start c.left :=
  Seam.slice_shift_shift start h

/-! ## Statements of a body -/

namespace Grammar

/-- The item that a statement between two places is. -/
def itemOf (prologue : Bool) (c : Cursor) (s : Statement) (c' : Cursor) : Item × Bool :=
  let lead := slice c.left c.next.start
  let text := slice c.next.start c'.left
  let directive := match c.next.token with
    | .string _ => if prologue then directive? (slice c.next.start c.next.rest) s else none
    | _ => none
  match directive with
  | some directive => (⟨lead, text, directive⟩, true)
  | none => (⟨lead, text, s⟩, false)

theorem item_eq_some {g : Grammar} {m : Mode} {prologue : Bool} {c c' : Cursor}
    {r : Item × Bool} : g.item m prologue c = some (r, c') ↔
      ∃ s, g.statement m true c = some (s, c') ∧ r = itemOf prologue c s c' := by
  have run : g.item m prologue = Parser.left >>= fun before => Parser.peek >>= fun next =>
      g.statement m true >>= fun s => Parser.textFrom next.start >>= fun text =>
        match (match next.token with
          | .string _ => if prologue then directive? (slice next.start next.rest) s else none
          | _ => none) with
        | some directive => pure (⟨slice before next.start, text, directive⟩, true)
        | none => pure (⟨slice before next.start, text, s⟩, false) := rfl
  rw [run, Parser.left_bind, Parser.peek_bind, Parser.bind_eq_some]
  have answer (s : Statement) (c₁ : Cursor) :
      (Parser.textFrom c.next.start >>= fun text =>
        match (match c.next.token with
          | .string _ => if prologue then directive? (slice c.next.start c.next.rest) s else none
          | _ => none) with
        | some directive => pure (⟨slice c.left c.next.start, text, directive⟩, true)
        | none => (pure (⟨slice c.left c.next.start, text, s⟩, false) : Parser (Item × Bool))) c₁ =
        some (itemOf prologue c s c₁, c₁) := by
    have htext : Parser.textFrom c.next.start c₁ = some (slice c.next.start c₁.left, c₁) := rfl
    rw [Parser.bind_of_eq_some htext]
    unfold itemOf
    dsimp only
    split <;> simp_all
    all_goals rfl
  constructor
  · rintro ⟨s, c₁, hs, hr⟩
    rw [answer] at hr
    obtain ⟨rfl, rfl⟩ := Prod.mk.inj (Option.some.inj hr)
    exact ⟨s, hs, rfl⟩
  · rintro ⟨s, hs, rfl⟩
    exact ⟨s, c', hs, answer s c'⟩

/-- A function behind `async`. -/
def functionBehind (g : Grammar) (m : Mode) (isDeclaration : Bool) (start : List Char)
    (isAsync : Bool) : Parser Function := do
  Parser.expectWord "function"
  let isGenerator ← Parser.accept .star
  let nameMode := if isDeclaration then m else functionMode isAsync isGenerator
  let name ← if ← Parser.sees .openParen then pure none
    else some <$> Parser.identifier nameMode
  g.functionRest isAsync isGenerator name start

end Grammar

/-- Where the body of a function ends on both sides at once. -/
def Seam.Closes (σ : Seam) (halts : Cursor → Prop) : Prop :=
  ∀ c, halts c → c.next.token = .punctuator .closeBrace ∧ σ.stop = .closer .brace ∧
    c.next.start = σ.old ∧ (σ.moved c).next.start = σ.new

theorem Seam.Closes.never : σ.Closes never := fun _ h => h.elim

theorem Seam.Closes.blocks (h : σ.Closes halts) : σ.Blocks halts := by
  intro c hh
  obtain ⟨ht, hs, -, -⟩ := h c hh
  exact ⟨.inl ht, .inl hs, by simp [hs]⟩

/-- Where both sides have a brace, a statement stops at the same place. -/
theorem Ends.leads {p q : Parser α} (h : Ends σ halts p q) (hc : σ.Closes halts) :
    Leads σ halts p q := by
  refine ⟨h.moves, fun hp hok => ?_⟩
  obtain ⟨d, hq, rfl | ⟨⟨hs, -⟩, -, hh, -⟩⟩ := h.keeps hp hok
  · exact hq
  · simp [(hc _ hh).2.1] at hs

theorem Seam.itemOf_moved {c c' : Cursor} (hp : σ.Passed c) (hl : σ.old <:+ c'.left)
    (prologue : Bool) (s : Statement) :
    Grammar.itemOf prologue (σ.moved c) s (σ.moved c') = Grammar.itemOf prologue c s c' := by
  unfold Grammar.itemOf
  rw [hp.next]
  dsimp only [Seam.shiftLexeme]
  rw [Seam.slice_left hl, Seam.slice_shift_shift _ hp.sees.rest,
    show (σ.moved c).left = σ.shift c.left from rfl, Seam.slice_shift_shift _ hp.sees.start]

namespace Grammar

/-- Whether a body ends before a lexeme. -/
def endsBody (l : Lexeme) : Bool := l.is .closeBrace || l.token == .finish

/-- One round of reading a body. -/
def bodyStep (g : Grammar) (m : Mode) (state : List Item × Bool) :
    Parser ((List Item × Bool) ⊕ Body) := fun c =>
  if endsBody c.next then some (.inr ⟨state.1.reverse, slice c.left c.next.start⟩, c)
  else (g.item m state.2 c).map fun r => (.inl (r.1.1 :: state.1, r.1.2), r.2)

theorem body_eq (g : Grammar) (m : Mode) :
    g.body m = Parser.iterate g.fuel (g.bodyStep m) ([], true) := by
  unfold Grammar.body
  congr 1
  funext (items, prologue) c
  show (Parser.peek >>= fun next => _ : Parser _) c = _
  rw [Parser.peek_bind]
  unfold bodyStep endsBody
  by_cases hc : (c.next.is .closeBrace || c.next.token == .finish) = true
  · rw [if_pos hc, if_pos hc]
    rfl
  · rw [if_neg hc, if_neg hc]
    show (g.item m prologue c).bind _ = _
    cases g.item m prologue c <;> rfl

theorem bodyStep_cases {g : Grammar} {m : Mode} {state : List Item × Bool} {c c' : Cursor}
    {r : (List Item × Bool) ⊕ Body} (h : g.bodyStep m state c = some (r, c')) :
    (endsBody c.next = true ∧ c' = c ∧
      r = .inr ⟨state.1.reverse, slice c.left c.next.start⟩) ∨
    (endsBody c.next = false ∧ ∃ x, g.item m state.2 c = some (x, c') ∧
      r = .inl (x.1 :: state.1, x.2)) := by
  unfold bodyStep at h
  split at h
  next hc =>
    obtain ⟨rfl, rfl⟩ := Prod.mk.inj (Option.some.inj h)
    exact .inl ⟨hc, rfl, rfl⟩
  next hc =>
    obtain ⟨⟨x, c₁⟩, hx, hr⟩ := Option.map_eq_some_iff.mp h
    obtain ⟨rfl, rfl⟩ := Prod.mk.inj hr
    exact .inr ⟨by simpa using hc, x, hx, rfl⟩

theorem bodyStep_item {g : Grammar} {m : Mode} {state : List Item × Bool} {c c' : Cursor}
    {x : Item × Bool} (hc : endsBody c.next = false) (hx : g.item m state.2 c = some (x, c')) :
    g.bodyStep m state c = some (.inl (x.1 :: state.1, x.2), c') := by
  simp [bodyStep, hc, hx]

theorem bodyStep_end {g : Grammar} {m : Mode} {state : List Item × Bool} {c : Cursor}
    (hc : endsBody c.next = true) :
    g.bodyStep m state c = some (.inr ⟨state.1.reverse, slice c.left c.next.start⟩, c) := by
  simp [bodyStep, hc]

end Grammar

namespace Grammar

/-- The parts of a function, read between two places. -/
theorem functionRest_eq_some {g : Grammar} {isAsync isGenerator : Bool} {name : Option String}
    {start : List Char} {c c' : Cursor} {f : Function} :
    g.functionRest isAsync isGenerator name start c = some (f, c') ↔
      ∃ params text c₁ body,
        g.parameters (functionMode isAsync isGenerator) c = some ((params, text), c₁) ∧
        g.functionBody (functionMode isAsync isGenerator) c₁ = some (body, c') ∧
        f = ⟨isAsync, isGenerator, name, slice start c.next.start, params, text,
          slice c₁.left c₁.next.start, body.items, body.tail⟩ := by
  unfold functionRest
  simp only [Parser.peek_bind, Parser.bind_eq_some, Parser.left_bind, Parser.pure_eq_some]
  constructor
  · rintro ⟨⟨params, text⟩, c₁, hp, body, c₂, hb, rfl, rfl⟩
    exact ⟨params, text, c₁, body, hp, hb, rfl⟩
  · rintro ⟨params, text, c₁, body, hp, hb, rfl⟩
    exact ⟨(params, text), c₁, hp, body, c', hb, rfl, rfl⟩

/-- A method is a function whose parameters fit its modifiers. -/
theorem method_eq_some {g : Grammar} {mods : Modifiers} {c c' : Cursor} {f : Function} :
    g.method mods c = some (f, c') ↔
      g.functionRest mods.isAsync mods.isGenerator none c.next.start c = some (f, c') ∧
        mods.fit f.params = true := by
  unfold method
  rw [Parser.peek_bind]
  simp only [Parser.bind_eq_some, Parser.check_eq_some, Parser.pure_eq_some]
  constructor
  · rintro ⟨f, c₁, hf, _, c₂, ⟨hfit, rfl⟩, rfl, rfl⟩
    exact ⟨hf, hfit⟩
  · rintro ⟨hf, hfit⟩
    exact ⟨f, c', hf, (), c', ⟨hfit, rfl⟩, rfl, rfl⟩

end Grammar

theorem Seam.Sees.left_start {c : Cursor} (h : σ.Sees c) :
    slice (σ.moved c).left (σ.moved c).next.start = slice c.left c.next.start := by
  rw [h.next]
  exact Seam.slice_shift_shift _ h.start

namespace Agrees

open Grammar

variable {g g' : Grammar} (h : Agrees σ g g') (m : Mode) (inside : Bool)

include h

/-! ## Parameters and bodies -/

theorem parameter : Follows σ never (g.parameter m) (g'.parameter (m.widen inside)) :=
  .sees_never fun _ =>
    .ite (h.bindingRest_before m inside .closeParen) (h.bindingItem m inside).follows

theorem parameters : Opens σ halts (g.parameters m) (g'.parameters (m.widen inside)) := by
  refine .peek fun l _ => Opens.expect.bind fun _ => ?_
  refine (h.listUntil .closeParen (h.parameter m inside)).follows.bind fun _ => ?_
  exact (Follows.textFrom l.start).bind fun _ => .pure _

theorem item (hc : σ.Closes halts) (prologue : Bool) :
    Leads σ halts (g.item m prologue) (g'.item (m.widen inside) prologue) := by
  have hs := h.statement hc.blocks m inside true
  refine ⟨fun hp => ?_, fun {c r c'} hp hok => ?_⟩
  · obtain ⟨s, hst, -⟩ := item_eq_some.mp hp
    exact hs.moves hst
  · obtain ⟨s, hst, rfl⟩ := item_eq_some.mp hp
    have hm := hs.moves hst
    refine item_eq_some.mpr ⟨s, (hs.leads hc).keeps hst hok, ?_⟩
    exact (Seam.itemOf_moved (Seam.passed_of_moves hm hok) hok.left prologue s).symm

theorem bodyStep (hc : σ.Closes halts) (state : List Item × Bool) :
    Follows σ halts (g.bodyStep m state) (g'.bodyStep (m.widen inside) state) := by
  refine ⟨fun hp => ?_, fun {c r c'} hp hok => ?_⟩
  · rcases bodyStep_cases hp with ⟨-, rfl, -⟩ | ⟨-, x, hx, -⟩
    · exact .refl
    · exact ((h.item m inside hc state.2).moves hx).to_reflTransGen
  · rcases bodyStep_cases hp with ⟨he, rfl, rfl⟩ | ⟨he, x, hx, rfl⟩
    · have hend : endsBody (σ.moved c').next = true ∧
          slice (σ.moved c').left (σ.moved c').next.start = slice c'.left c'.next.start := by
        rcases hok with hpass | ⟨hat, hh⟩
        · exact ⟨by rw [hpass.next]; exact he, hpass.sees.left_start⟩
        · obtain ⟨-, hs, ho, hn⟩ := hc _ hh
          refine ⟨by simp [endsBody, Lexeme.is, hat.token, hs, Stop.token, Closer.punctuator], ?_⟩
          rw [hn, ho]
          exact σ.slice_shift c'.left []
      rw [bodyStep_end hend.1, hend.2]
    · have hi := h.item m inside hc state.2
      have hn := (Seam.passed_of_moves (hi.moves hx) hok).next
      exact bodyStep_item (by rw [hn]; exact he) (hi.keeps hx hok)

theorem body (hc : σ.Closes halts) : Follows σ halts (g.body m) (g'.body (m.widen inside)) := by
  rw [body_eq, body_eq]
  exact .iterate h.fuel (h.bodyStep m inside hc) _

theorem functionBody : Opens σ halts (g.functionBody m) (g'.functionBody (m.widen inside)) := by
  refine Opens.expect.bind fun _ => ?_
  refine Leads.follows ((h.body m inside .never).looks.bind fun body => ?_)
  exact Opens.expect.leads.bind fun _ => .pure body

/-! ## Functions -/

theorem functionRest (isAsync isGenerator : Bool) (name : Option String) (start : List Char) :
    Leads σ halts (g.functionRest isAsync isGenerator name start)
      (g'.functionRest isAsync isGenerator name (σ.shift start)) := by
  have hp : Opens σ halts _ _ := h.parameters (functionMode isAsync isGenerator) false
  have hb : Opens σ halts _ _ := h.functionBody (functionMode isAsync isGenerator) false
  refine ⟨fun hf => ?_, fun {c f c'} hf hok => ?_⟩
  · obtain ⟨params, text, c₁, body, hparams, hbody, -⟩ := functionRest_eq_some.mp hf
    exact (hp.moves hparams).trans (hb.moves hbody)
  · obtain ⟨params, text, c₁, body, hparams, hbody, rfl⟩ := functionRest_eq_some.mp hf
    have hp₁ := Seam.passed_of_moves (hb.moves hbody) hok
    have hpass := hp₁.of_moves (hp.moves hparams)
    refine functionRest_eq_some.mpr ⟨params, text, σ.moved c₁, body,
      hp.leads.keeps hparams (.of_passed hp₁), hb.leads.keeps hbody hok, ?_⟩
    rw [hp₁.sees.left_start, hpass.next]
    exact congrArg (Function.mk _ _ _ · _ _ _ _ _)
      (Seam.slice_shift_shift start hpass.sees.start).symm

theorem method (mods : Modifiers) : Leads σ halts (g.method mods) (g'.method mods) := by
  refine .peek fun l => ?_
  have rest : Leads σ halts _ _ := h.functionRest mods.isAsync mods.isGenerator none l.start
  exact rest.bind fun f => Follows.check.bind fun _ => .pure f

theorem functionBehind (isDeclaration : Bool) (start : List Char) (isAsync : Bool) :
    Opens σ halts (g.functionBehind m isDeclaration start isAsync)
      (g'.functionBehind (m.widen inside) isDeclaration (σ.shift start) isAsync) := by
  refine Opens.expectWord.bind fun _ => Leads.follows (.accept_both fun isGenerator => ?_)
  have name : Opens σ never
      (Parser.identifier (if isDeclaration then m else functionMode isAsync isGenerator))
      (Parser.identifier
        (if isDeclaration then m.widen inside else functionMode isAsync isGenerator)) := by
    cases isDeclaration
    · exact .identifier (functionMode isAsync isGenerator) false
    · exact .identifier m inside
  have rest (name : Option String) : Leads σ halts _ _ :=
    h.functionRest isAsync isGenerator name start
  exact .sees fun _ => .ite (rest none) ((name.follows.map some).looks.bind rest)

theorem function (isDeclaration : Bool) :
    Opens σ halts (g.function m isDeclaration) (g'.function (m.widen inside) isDeclaration) :=
  .peek fun l _ => .acceptWord_both fun isAsync =>
    h.functionBehind m inside isDeclaration l.start isAsync

/-- Behind `async` a function takes its keyword too. -/
theorem function_moves {isDeclaration : Bool} {c c' : Cursor} {f : Function}
    (hf : g.function m isDeclaration c = some (f, c')) (hn : c.next.isWord "function" = false) :
    TransGen Move (.front .inside c.next.rest) c' := by
  have hf : (Parser.acceptWord "async" >>= g.functionBehind m isDeclaration c.next.start) c =
      some (f, c') := hf
  have behind (isAsync : Bool) : Opens σ never _ _ :=
    h.functionBehind m false isDeclaration c.next.start isAsync
  by_cases ha : c.next.token = .word "async" false
  · rw [(Parser.acceptWord_accepts "async").bind_true ha] at hf
    exact (behind true).moves hf
  · rw [(Parser.acceptWord_accepts "async").bind_false ha] at hf
    have hw : c.next.token ≠ .word "function" false := by simpa [Lexeme.isWord] using hn
    obtain ⟨_, c₁, he, -⟩ := Parser.bind_eq_some.mp hf
    unfold Parser.expectWord at he
    rw [(Parser.acceptWord_accepts "function").bind_false hw] at he
    cases he

end Agrees

/-! ## Where a function begins -/

namespace Grammar

/-- Whether a function begins with two lexemes. -/
def functionAt (next second : Lexeme) : Bool :=
  next.isWord "function" || (next.isWord "async" && (second.isWord "function" && !second.newline))

theorem seesFunction_eq (c : Cursor) : seesFunction c = some (functionAt c.next c.second, c) := by
  unfold seesFunction functionAt
  rw [Parser.peek_bind]
  cases hf : c.next.isWord "function" with
  | true => rfl
  | false =>
    cases ha : c.next.isWord "async" with
    | true =>
      simp only [Bool.false_eq_true, if_false, if_true]
      rw [Parser.bind_of_eq_some (Parser.peekSecond_eq c)]
      rfl
    | false => rfl

end Grammar

open Grammar in
/-- The two sides agree on whether a function begins, unless the seam stands behind `async`. -/
theorem Seam.Meets.functionAt {c d c' : Cursor} (hd : σ.Meets c d) (hm : TransGen Move c c')
    (hok : σ.Ok halts c') :
    functionAt d.next d.second = functionAt c.next c.second ∨
      (c' = .front .inside c.next.rest ∧ σ.AtSeam c' ∧ halts c' ∧
        c.next.isWord "function" = false ∧ functionAt c.next c.second = true ∧
        functionAt d.next d.second = false) := by
  obtain ⟨newline, hn⟩ := id hd
  have hword (word : String) : d.next.isWord word = c.next.isWord word := by rw [hn]; rfl
  unfold Grammar.functionAt
  rw [hword, hword]
  cases hf : c.next.isWord "function" with
  | true => exact .inl rfl
  | false =>
    cases ha : c.next.isWord "async" with
    | false => exact .inl rfl
    | true =>
      obtain ⟨id, escaped, hw⟩ := Lexeme.word_of_isWord ha
      rcases hd.second hm hok hw with hs | ⟨hs, hc, hat, hh⟩
      · rw [hs]
        exact .inl rfl
      · have : d.second.isWord "function" = false := by simp [Lexeme.isWord, hs]
        cases hb : c.second.isWord "function" && !c.second.newline with
        | false => simp [this]
        | true => exact .inr ⟨hc, hat, hh, by simp [this]⟩

theorem Opens.seesFunction {β : Type} {k k' : Bool → Parser β}
    (hk : ∀ b, Opens σ halts (k b) (k' b))
    (ht : ∀ {c a c'}, k true c = some (a, c') → c.next.isWord "function" = false →
      TransGen Move (.front .inside c.next.rest) c') :
    Opens σ halts (Grammar.seesFunction >>= k) (Grammar.seesFunction >>= k') := by
  refine ⟨fun {c a c'} hb => ?_, fun {c d a c'} hm hb hok => ?_⟩
  · rw [Parser.bind_of_eq_some (Grammar.seesFunction_eq c)] at hb
    exact (hk _).moves hb
  · rw [Parser.bind_of_eq_some (Grammar.seesFunction_eq c)] at hb
    rw [Parser.bind_of_eq_some (Grammar.seesFunction_eq d)]
    rcases hm.functionAt ((hk _).moves hb) hok with hf | ⟨rfl, hat, -, hn, hf, -⟩
    · rw [hf]
      exact (hk _).meets hm hb hok
    · rw [hf] at hb
      exact (hat.not_moves (ht hb hn) hok).elim

/-! ## Modifiers -/

theorem Stop.beginsKey_eq (stop : Stop) {l : Lexeme} (h : l.token = stop.token) :
    Grammar.beginsKey l = false := by
  rcases stop with (_ | _ | _) | _ <;> simp [Grammar.beginsKey, h, token, Closer.punctuator]

theorem Looks.acceptModifier (word : String) :
    Looks σ halts (Grammar.acceptModifier word) (Grammar.acceptModifier word) := by
  refine takeWhen_looks (fun next second => next.isWord word && Grammar.beginsKey second) ?_
  refine ⟨fun {next second} h => ?_, fun _ _ => rfl, fun next {second} h => ?_⟩
  · exact Lexeme.word_of_isWord (Bool.and_eq_true_iff.mp h).1
  · simp [σ.stop.beginsKey_eq h]

theorem Looks.acceptAsync : Looks σ halts Grammar.acceptAsync Grammar.acceptAsync := by
  refine takeWhen_looks (fun next second => next.isWord "async" &&
    (Grammar.beginsKey second || second.is .star) && !second.newline) ?_
  refine ⟨fun {next second} h => ?_, fun _ _ => rfl, fun next {second} h => ?_⟩
  · rw [Bool.and_assoc] at h
    exact Lexeme.word_of_isWord (Bool.and_eq_true_iff.mp h).1
  · have hs : second.is .star = false := Stop.is_eq_false h (by decide)
    simp [σ.stop.beginsKey_eq h, hs]

theorem Looks.pure (a : α) : Looks σ halts (pure a : Parser α) (pure a) := (Follows.pure a).looks

theorem Looks.ite {condition : Prop} [Decidable condition] {p q p' q' : Parser α}
    (ht : Looks σ halts p p') (hf : Looks σ halts q q') :
    Looks σ halts (if condition then p else q) (if condition then p' else q') := by
  split
  · exact ht
  · exact hf

theorem Looks.modifiers : Looks σ halts Grammar.modifiers Grammar.modifiers := by
  refine (Looks.acceptModifier "get").andThen fun _ => .ite (.pure _) ?_
  refine (Looks.acceptModifier "set").andThen fun _ => .ite (.pure _) ?_
  refine Looks.acceptAsync.andThen fun isAsync => ?_
  exact Follows.looks (.accept (Stop.ne (by decide) _) (.pure _) (.pure _))

end Collector.Script
