import Collector.Script.Grammar.Statement
import Collector.Proofs.Script.Expressions

/-!
# The ends of statements across a seam

A statement may end before a brace without a semicolon. If a semicolon stands at the seam on the
new side, the statement takes it. So `Ends` asks less of the place behind a statement than
`Follows` does, and `Finishes` is what the last part of a statement has.
-/

namespace Collector.Script

open Relation

variable {α β : Type} {σ : Seam} {halts : Cursor → Prop}

/-- `q` reads on the new side what `p` reads on the old one, and perhaps the semicolon behind; `p`
need not take anything. -/
structure Finishes (σ : Seam) (halts : Cursor → Prop) (p q : Parser α) : Prop where
  moves {c a c'} (h : p c = some (a, c')) : ReflTransGen Move c c'
  keeps {c a c'} (h : p c = some (a, c')) (hok : σ.Ok halts c') :
    ∃ d, q (σ.moved c) = some (a, d) ∧ σ.Done halts c' d

theorem Ends.finishes {p q : Parser α} (h : Ends σ halts p q) : Finishes σ halts p q :=
  ⟨fun hp => (h.moves hp).to_reflTransGen, h.keeps⟩

theorem Follows.finishes {p q : Parser α} (h : Follows σ halts p q) : Finishes σ halts p q :=
  ⟨h.moves, fun hp hok => ⟨_, h.keeps hp hok, .inl rfl⟩⟩

theorem Leads.ends {p q : Parser α} (h : Leads σ halts p q) : Ends σ halts p q :=
  ⟨h.moves, fun hp hok => ⟨_, h.keeps hp hok, .inl rfl⟩⟩

/-! ## One part after another -/

section Bind

variable {p q : Parser α} {k k' : α → Parser β}

theorem Follows.then_finish (h : Follows σ halts p q) (hk : ∀ a, Finishes σ halts (k a) (k' a)) :
    Finishes σ halts (p >>= k) (q >>= k') := by
  refine ⟨fun hb => ?_, fun hb hok => ?_⟩
  · obtain ⟨a, c₁, hp, hb⟩ := Parser.bind_eq_some.mp hb
    exact (h.moves hp).trans ((hk a).moves hb)
  · obtain ⟨a, c₁, hp, hb⟩ := Parser.bind_eq_some.mp hb
    rw [Parser.bind_of_eq_some (h.keeps hp (Seam.ok_of_moves ((hk a).moves hb) hok))]
    exact (hk a).keeps hb hok

theorem Leads.then_finish (h : Leads σ halts p q) (hk : ∀ a, Finishes σ halts (k a) (k' a)) :
    Ends σ halts (p >>= k) (q >>= k') := by
  refine ⟨fun hb => ?_, (h.follows.then_finish hk).keeps⟩
  obtain ⟨a, c₁, hp, hb⟩ := Parser.bind_eq_some.mp hb
  exact (h.moves hp).trans_left ((hk a).moves hb)

theorem Looks.then_end (h : Looks σ halts p q) (hk : ∀ a, Ends σ halts (k a) (k' a)) :
    Ends σ halts (p >>= k) (q >>= k') := by
  refine ⟨fun hb => ?_, fun hb hok => ?_⟩
  · obtain ⟨a, c₁, hp, hb⟩ := Parser.bind_eq_some.mp hb
    exact TransGen.trans_right (h.moves hp) ((hk a).moves hb)
  · obtain ⟨a, c₁, hp, hb⟩ := Parser.bind_eq_some.mp hb
    rw [Parser.bind_of_eq_some (h.keeps hp ((hk a).moves hb) hok)]
    exact (hk a).keeps hb hok

/-- A parser that stays where it is and answers the same everywhere. -/
def Still (p : Parser α) (answer : Option α) : Prop := ∀ c, p c = answer.map (·, c)

theorem Still.pure (a : α) : Still (pure a : Parser α) (some a) := fun _ => rfl

theorem Still.check (condition : Bool) (a : α) :
    Still (Parser.check condition >>= fun _ => Pure.pure a : Parser α)
      (if condition then some a else none) := by
  cases condition <;> exact fun _ => rfl

theorem Finishes.then_still {f : α → Option β} (h : Finishes σ halts p q)
    (hk : ∀ a, Still (k a) (f a)) (hk' : ∀ a, Still (k' a) (f a)) :
    Finishes σ halts (p >>= k) (q >>= k') := by
  refine ⟨fun {c b c'} hb => ?_, fun {c b c'} hb hok => ?_⟩
  · obtain ⟨a, c₁, hp, hb⟩ := Parser.bind_eq_some.mp hb
    rw [hk a c₁] at hb
    obtain ⟨b', -, hb⟩ := Option.map_eq_some_iff.mp hb
    obtain ⟨-, rfl⟩ := Prod.mk.inj hb
    exact h.moves hp
  · obtain ⟨a, c₁, hp, hb⟩ := Parser.bind_eq_some.mp hb
    rw [hk a c₁] at hb
    obtain ⟨b', ha, hb⟩ := Option.map_eq_some_iff.mp hb
    obtain ⟨rfl, rfl⟩ := Prod.mk.inj hb
    obtain ⟨d, hq, hd⟩ := h.keeps hp hok
    refine ⟨d, ?_, hd⟩
    rw [Parser.bind_of_eq_some hq, hk' a d, ha]
    rfl

theorem Ends.then_still {f : α → Option β} (h : Ends σ halts p q)
    (hk : ∀ a, Still (k a) (f a)) (hk' : ∀ a, Still (k' a) (f a)) :
    Ends σ halts (p >>= k) (q >>= k') := by
  refine ⟨fun {c b c'} hb => ?_, (h.finishes.then_still hk hk').keeps⟩
  obtain ⟨a, c₁, hp, hb⟩ := Parser.bind_eq_some.mp hb
  rw [hk a c₁] at hb
  obtain ⟨b', -, hb⟩ := Option.map_eq_some_iff.mp hb
  obtain ⟨-, rfl⟩ := Prod.mk.inj hb
  exact h.moves hp

end Bind

theorem Finishes.then_pure {p q : Parser α} (h : Finishes σ halts p q) (f : α → β) :
    Finishes σ halts (p >>= fun a => pure (f a)) (q >>= fun a => pure (f a)) :=
  h.then_still (fun a => .pure (f a)) fun a => .pure (f a)

theorem Ends.then_pure {p q : Parser α} (h : Ends σ halts p q) (f : α → β) :
    Ends σ halts (p >>= fun a => pure (f a)) (q >>= fun a => pure (f a)) :=
  h.then_still (fun a => .pure (f a)) fun a => .pure (f a)

/-! ## Parts that finish a statement -/

section Finish

variable {p q p' q' : Parser α} {k k' : Bool → Parser β}

theorem Finishes.pure (a : α) : Finishes σ halts (pure a) (pure a) := (Follows.pure a).finishes

theorem Finishes.ite {condition : Prop} [Decidable condition] (ht : Finishes σ halts p p')
    (hf : Finishes σ halts q q') :
    Finishes σ halts (if condition then p else q) (if condition then p' else q') := by
  split
  · exact ht
  · exact hf

theorem Ends.ite {condition : Prop} [Decidable condition] (ht : Ends σ halts p p')
    (hf : Ends σ halts q q') :
    Ends σ halts (if condition then p else q) (if condition then p' else q') := by
  split
  · exact ht
  · exact hf

theorem Ends.of_none (h : ∀ c, p c = none) (q : Parser α) : Ends σ halts p q :=
  (Opens.of_none h q).leads.ends

theorem Ends.failure (q : Parser α) : Ends σ halts failure q := .of_none (fun _ => rfl) q

/-- A token that closes nothing is taken on both sides, or on neither. -/
theorem Follows.accept_self {p : Punctuator} (hp : .punctuator p ≠ σ.stop.token) :
    Follows σ halts (Parser.accept p) (Parser.accept p) := by
  rw [← bind_pure (Parser.accept p)]
  exact .accept hp (.pure true) (.pure false)

theorem Follows.acceptWord_self (word : String) :
    Follows σ halts (Parser.acceptWord word) (Parser.acceptWord word) := by
  rw [← bind_pure (Parser.acceptWord word)]
  exact .acceptWord (.pure true) (.pure false)

/-- A condition that may be weaker on the new side. -/
theorem Follows.check_imp {condition condition' : Bool} (h : condition = true → condition' = true) :
    Follows σ halts (Parser.check condition) (Parser.check condition') := by
  cases condition with
  | false => exact (Opens.failure _).follows
  | true =>
    rw [h rfl]
    exact .pure ()

theorem Ends.peek {k k' : Lexeme → Parser β} (h : ∀ l, Ends σ halts (k l) (k' (σ.shiftLexeme l))) :
    Ends σ halts (Parser.peek >>= k) (Parser.peek >>= k') := by
  refine ⟨fun hb => (h _).moves hb, fun {c a c'} hb hok => ?_⟩
  rw [Parser.peek_bind, (Seam.passed_of_moves ((h _).moves hb) hok).next]
  exact (h _).keeps hb hok

theorem Ends.sees {p : Punctuator} (h : ∀ b, Ends σ halts (k b) (k' b)) :
    Ends σ halts (Parser.sees p >>= k) (Parser.sees p >>= k') := by
  rw [Parser.sees_bind, Parser.sees_bind]
  exact .peek fun l => h (l.is p)

theorem Ends.check {condition : Bool} {k k' : Unit → Parser β} (h : Ends σ halts (k ()) (k' ())) :
    Ends σ halts (Parser.check condition >>= k) (Parser.check condition >>= k') := by
  cases condition
  · exact .of_none (fun _ => rfl) _
  · exact h

theorem Ends.onToken {test : Token → Bool} (h : Ends σ halts p q) :
    Ends σ halts (onToken test p) (onToken test q) := by
  refine ⟨fun hp => h.moves (onToken_eq_some.mp hp).2, fun {c a c'} hp hok => ?_⟩
  obtain ⟨ht, hp⟩ := onToken_eq_some.mp hp
  obtain ⟨d, hq, hd⟩ := h.keeps hp hok
  have hn := (Seam.passed_of_moves (h.moves hp) hok).next
  exact ⟨d, onToken_eq_some.mpr ⟨by rw [hn]; exact ht, hq⟩, hd⟩

/-- A look at a token that stays known. -/
theorem Ends.peek_known {k k' : Lexeme → Parser β}
    (h : ∀ l, Ends σ halts (Script.onToken (· == l.token) (k l))
      (Script.onToken (· == l.token) (k' (σ.shiftLexeme l)))) :
    Ends σ halts (Parser.peek >>= k) (Parser.peek >>= k') := by
  have run (k : Lexeme → Parser β) (c : Cursor) : (Parser.peek >>= k) c =
      Script.onToken (· == c.next.token) (k c.next) c := by
    rw [onToken_of_true (by simp), Parser.peek_bind]
  refine ⟨fun {c a c'} hb => ?_, fun {c a c'} hb hok => ?_⟩
  · rw [run] at hb
    exact (h c.next).moves hb
  · rw [run] at hb ⊢
    rw [(Seam.passed_of_moves ((h c.next).moves hb) hok).next]
    exact (h c.next).keeps hb hok

/-- A look at the token behind a known word. At the seam only the word is taken. -/
theorem Ends.peekSecond_word {id : String} {escaped : Bool} {k k' : Lexeme → Parser β}
    (hw : ∀ second, Ends σ halts (k second) (k' (σ.shiftLexeme second)))
    (hs : ∀ {c b second}, c.next.token = .word id escaped →
      σ.AtSeam (.front .inside c.next.rest) → halts (.front .inside c.next.rest) →
      σ.Passed c → k c.second c = some (b, .front .inside c.next.rest) →
      second.token = σ.stop.token →
      ∃ d, k' second (σ.moved c) = some (b, d) ∧ σ.Done halts (.front .inside c.next.rest) d) :
    Ends σ halts (Script.onToken (· == .word id escaped) (Parser.peekSecond >>= k))
      (Script.onToken (· == .word id escaped) (Parser.peekSecond >>= k')) := by
  have run (k : Lexeme → Parser β) (c : Cursor) : (Parser.peekSecond >>= k) c = k c.second c :=
    Parser.bind_of_eq_some (Parser.peekSecond_eq c)
  refine ⟨fun {c b c'} hb => ?_, fun {c b c'} hb hok => ?_⟩
  · obtain ⟨-, hb⟩ := onToken_eq_some.mp hb
    rw [run] at hb
    exact (hw _).moves hb
  · obtain ⟨ht, hb⟩ := onToken_eq_some.mp hb
    rw [run] at hb
    have hm := (hw _).moves hb
    have hp := Seam.passed_of_moves hm hok
    have hword : c.next.token = .word id escaped := by simpa using ht
    rw [onToken_of_true (by rw [hp.next]; exact ht), run]
    rcases hp.meets.second hm hok hword with hsecond | ⟨hsecond, rfl, hat, hh⟩
    · rw [hsecond]
      exact (hw _).keeps hb hok
    · exact hs hword hat hh hp hb hsecond

/-- A part that may end the statement, in front of one that need not take anything: where the
semicolon at the seam was taken, the second part does nothing. -/
theorem Ends.bind {k k' : α → Parser β} (h : Ends σ halts p q)
    (hk : ∀ a, Finishes σ halts (k a) (k' a))
    (hs : ∀ a b c, σ.AtSeam c → halts c → σ.stop = .closer .semicolon → k a c = some (b, c) →
      k' a (.front .inside σ.new.tail) = some (b, .front .inside σ.new.tail)) :
    Ends σ halts (p >>= k) (q >>= k') := by
  refine ⟨fun hb => ?_, fun hb hok => ?_⟩
  · obtain ⟨a, c₁, hp, hb⟩ := Parser.bind_eq_some.mp hb
    exact (h.moves hp).trans_left ((hk a).moves hb)
  · obtain ⟨a, c₁, hp, hb⟩ := Parser.bind_eq_some.mp hb
    have hok₁ := Seam.ok_of_moves ((hk a).moves hb) hok
    obtain ⟨d, hq, hd⟩ := h.keeps hp hok₁
    rw [Parser.bind_of_eq_some hq]
    rcases hd with rfl | ⟨hstop, hat, hh, rfl⟩
    · exact (hk a).keeps hb hok
    · rcases reflTransGen_iff_eq_or_transGen.mp ((hk a).moves hb) with rfl | hm
      · exact ⟨_, hs a _ _ hat hh hstop.1 hb, .inr ⟨hstop, hat, hh, rfl⟩⟩
      · exact (hat.not_moves hm hok).elim

end Finish

theorem Ends.map {p q : Parser α} (h : Ends σ halts p q) (f : α → β) :
    Ends σ halts (f <$> p) (f <$> q) := by
  rw [Parser.map_eq_bind, Parser.map_eq_bind]
  exact h.then_pure f

/-- A condition on the next two tokens, in front of a parser that takes both if it holds. -/
theorem Ends.peekTest (test : Lexeme → Lexeme → Bool) (hm : σ.Marks test) {k k' : Bool → Parser β}
    (hk : ∀ b, Ends σ halts (k b) (k' b))
    (ht : ∀ {c b c'}, k true c = some (b, c') → (∃ id escaped, c.next.token = .word id escaped) →
      TransGen Move (.front .inside c.next.rest) c') :
    Ends σ halts
      (Parser.peek >>= fun next => Parser.peekSecond >>= fun second => k (test next second))
      (Parser.peek >>= fun next => Parser.peekSecond >>= fun second => k' (test next second)) := by
  have run (k : Bool → Parser β) (c : Cursor) :
      (Parser.peek >>= fun next => Parser.peekSecond >>= fun second => k (test next second)) c =
        k (test c.next c.second) c := by
    rw [Parser.peek_bind, Parser.bind_of_eq_some (Parser.peekSecond_eq c)]
  refine ⟨fun {c b c'} hb => ?_, fun {c b c'} hb hok => ?_⟩
  · rw [run] at hb
    exact (hk _).moves hb
  · rw [run] at hb ⊢
    have hmoves := (hk _).moves hb
    have hp := Seam.passed_of_moves hmoves hok
    suffices hsame : test (σ.moved c).next (σ.moved c).second = test c.next c.second by
      rw [hsame]
      exact (hk _).keeps hb hok
    rw [hp.next]
    by_cases hw : ∃ id escaped, c.next.token = .word id escaped
    · obtain ⟨id, escaped, hw⟩ := hw
      rcases hp.meets.second hmoves hok hw with hs | ⟨hs, rfl, hat, hh⟩
      · rw [hs, hm.shift]
      · rw [hm.stop _ hs]
        cases htest : test c.next c.second with
        | false => rfl
        | true =>
          rw [htest] at hb
          exact (hat.not_moves (ht hb ⟨id, escaped, hw⟩) hok).elim
    · have hfalse (next second : Lexeme) (hn : next.token = c.next.token) :
          test next second = false := by
        refine Bool.eq_false_iff.mpr fun htest => hw ?_
        rw [← hn]
        exact hm.word htest
      rw [hfalse c.next _ rfl, hfalse (σ.shiftLexeme c.next) _ rfl]

theorem Ends.seesFunction {k k' : Bool → Parser β} (hk : ∀ b, Ends σ halts (k b) (k' b))
    (ht : ∀ {c a c'}, k true c = some (a, c') → c.next.isWord "function" = false →
      TransGen Move (.front .inside c.next.rest) c') :
    Ends σ halts (Grammar.seesFunction >>= k) (Grammar.seesFunction >>= k') := by
  refine ⟨fun {c a c'} hb => ?_, fun {c a c'} hb hok => ?_⟩
  · rw [Parser.bind_of_eq_some (Grammar.seesFunction_eq c)] at hb
    exact (hk _).moves hb
  · rw [Parser.bind_of_eq_some (Grammar.seesFunction_eq c)] at hb
    rw [Parser.bind_of_eq_some (Grammar.seesFunction_eq (σ.moved c))]
    have hm := (hk _).moves hb
    rcases (Seam.passed_of_moves hm hok).meets.functionAt hm hok with hf | ⟨rfl, hat, -, hn, hf, -⟩
    · rw [hf]
      exact (hk _).keeps hb hok
    · rw [hf] at hb
      exact (hat.not_moves (ht hb hn) hok).elim

/-- What no closer is may be looked for at the seam too, if something is taken where it is
found. -/
theorem Finishes.look {k k' : Bool → Parser β} (test : Lexeme → Bool)
    (hshift : ∀ l, test (σ.shiftLexeme l) = test l)
    (hstop : ∀ l, l.token = σ.stop.token → test l = false)
    (ht : Ends σ halts (k true) (k' true)) (hf : Finishes σ halts (k false) (k' false)) :
    Finishes σ halts (Parser.peek >>= fun l => k (test l))
      (Parser.peek >>= fun l => k' (test l)) := by
  have h (b : Bool) : Finishes σ halts (k b) (k' b) := by
    cases b
    · exact hf
    · exact ht.finishes
  refine ⟨fun {c b c'} hb => (h _).moves hb, fun {c b c'} hb hok => ?_⟩
  rw [Parser.peek_bind] at hb ⊢
  rcases Seam.ok_of_moves ((h _).moves hb) hok with hp | ⟨hat, -⟩
  · rw [hp.next, hshift]
    exact (h _).keeps hb hok
  · rw [hstop _ hat.token]
    cases htest : test c.next with
    | true =>
      rw [htest] at hb
      exact (hat.not_moves (ht.moves hb) hok).elim
    | false =>
      rw [htest] at hb
      exact hf.keeps hb hok

/-! ## The end of a statement -/

/-- What may stand at the seam: a brace or a semicolon. -/
theorem Seam.AtSeam.ends {c : Cursor} (hat : σ.AtSeam c) (hb : σ.Blocks halts) (hh : halts c) :
    (c.next.token = .punctuator .closeBrace ∨ c.next.token = .punctuator .semicolon) ∧
      ((σ.stop = .closer .brace ∧ (σ.moved c).next.token = .punctuator .closeBrace) ∨
        (σ.stop = .closer .semicolon ∧ (σ.moved c).next.token = .punctuator .semicolon ∧
          (σ.moved c).next.rest = σ.new.tail)) := by
  obtain ⟨ht, hp, -⟩ := hb c hh
  refine ⟨ht.imp_right And.left, ?_⟩
  have htoken := hat.token
  rcases hp with hs | hs
  · rw [hs] at htoken
    exact .inl ⟨hs, htoken⟩
  · rw [hs] at htoken
    exact .inr ⟨hs, htoken, hat.rest⟩

theorem Finishes.endStatement (hb : σ.Blocks halts) :
    Finishes σ halts Parser.endStatement Parser.endStatement := by
  have run (c : Cursor) : Parser.endStatement c =
      (if c.next.is .semicolon then Parser.advance
        else Parser.check (c.next.newline || c.next.is .closeBrace || c.next.token == .finish)) c :=
    rfl
  refine ⟨fun {c u c'} h => ?_, fun {c u c'} h hok => ?_⟩
  · rw [run] at h
    split at h
    · obtain ⟨hr, rfl⟩ := Parser.advance_eq_some.mp h
      exact .single (.next hr)
    · obtain ⟨-, rfl⟩ := Parser.check_eq_some.mp h
      exact .refl
  · rw [run] at h
    split at h
    next hsemi =>
      obtain ⟨hr, rfl⟩ := Parser.advance_eq_some.mp h
      have hn := (Seam.passed_of_move (.next hr) hok).next
      refine ⟨_, ?_, .inl rfl⟩
      rw [run, if_pos (by rw [hn]; exact hsemi), Parser.advance_of_real (by rw [hn]; exact hr), hn]
      rfl
    next hsemi =>
      obtain ⟨hc, rfl⟩ := Parser.check_eq_some.mp h
      rcases hok with hp | ⟨hat, hh⟩
      · refine ⟨_, ?_, .inl rfl⟩
        rw [run, if_neg (by rw [hp.next]; exact hsemi), hp.next]
        exact Parser.check_eq_some.mpr ⟨hc, rfl⟩
      · obtain ⟨ho, hn⟩ := hat.ends hb hh
        have ho := ho.resolve_right fun ho => hsemi (by simp [Lexeme.is, ho])
        rcases hn with ⟨-, hn⟩ | ⟨hs, hn, hrest⟩
        · refine ⟨_, ?_, .inl rfl⟩
          rw [run, if_neg (by simp [Lexeme.is, hn])]
          exact Parser.check_eq_some.mpr ⟨by simp [Lexeme.is, hn], rfl⟩
        · refine ⟨_, ?_, .inr ⟨⟨hs, ho⟩, hat, hh, rfl⟩⟩
          rw [run, if_pos (by simp [Lexeme.is, hn]),
            Parser.advance_of_real (by rw [hn]; rfl), hrest]

/-- A semicolon that may end a statement but need not. -/
theorem Finishes.accept_semicolon (hb : σ.Blocks halts) (a : α) :
    Finishes σ halts (Parser.accept .semicolon >>= fun _ => Pure.pure a)
      (Parser.accept .semicolon >>= fun _ => Pure.pure a) := by
  have accepts := Parser.accept_accepts .semicolon
  refine ⟨fun {c b c'} h => ?_, fun {c b c'} h hok => ?_⟩
  · by_cases hc : c.next.token = .punctuator .semicolon
    · rw [accepts.bind_true hc] at h
      obtain ⟨-, rfl⟩ := Parser.pure_eq_some.mp h
      exact .single (accepts.move hc)
    · rw [accepts.bind_false hc] at h
      obtain ⟨-, rfl⟩ := Parser.pure_eq_some.mp h
      exact .refl
  · by_cases hc : c.next.token = .punctuator .semicolon
    · rw [accepts.bind_true hc] at h
      obtain ⟨rfl, rfl⟩ := Parser.pure_eq_some.mp h
      have hn := (Seam.passed_of_move (accepts.move hc) hok).next
      refine ⟨_, ?_, .inl rfl⟩
      rw [accepts.bind_true (by rw [hn]; exact hc), hn]
      rfl
    · rw [accepts.bind_false hc] at h
      obtain ⟨rfl, rfl⟩ := Parser.pure_eq_some.mp h
      rcases hok with hp | ⟨hat, hh⟩
      · exact ⟨_, accepts.bind_false (by rw [hp.next]; exact hc), .inl rfl⟩
      · obtain ⟨ho, hn⟩ := hat.ends hb hh
        rcases hn with ⟨-, hn⟩ | ⟨hs, hn, hrest⟩
        · exact ⟨_, accepts.bind_false (by rw [hn]; decide), .inl rfl⟩
        · refine ⟨_, accepts.bind_true hn, .inr ⟨⟨hs, ho.resolve_right hc⟩, hat, hh, ?_⟩⟩
          rw [hrest]

/-- Where a statement may end on the old side, it may on the new one. -/
theorem Finishes.seesEnd (hb : σ.Blocks halts) {k k' : Bool → Parser β}
    (ht : Finishes σ halts (k true) (k' true)) (hf : Ends σ halts (k false) (k' false)) :
    Finishes σ halts (Grammar.seesEnd >>= k) (Grammar.seesEnd >>= k') := by
  have run (k : Bool → Parser β) (c : Cursor) : (Grammar.seesEnd >>= k) c =
      k (c.next.newline || c.next.is .semicolon || c.next.is .closeBrace ||
        c.next.token == .finish) c := rfl
  have h (b : Bool) : Finishes σ halts (k b) (k' b) := by
    cases b
    · exact hf.finishes
    · exact ht
  refine ⟨fun {c b c'} hp => (h _).moves hp, fun {c b c'} hp hok => ?_⟩
  rw [run] at hp ⊢
  rcases Seam.ok_of_moves ((h _).moves hp) hok with hpass | ⟨hat, hh⟩
  · rw [hpass.next]
    exact (h _).keeps hp hok
  · obtain ⟨ho, hn⟩ := hat.ends hb hh
    have hold : (c.next.newline || c.next.is .semicolon || c.next.is .closeBrace ||
        c.next.token == .finish) = true := by
      rcases ho with ho | ho <;> simp [Lexeme.is, ho]
    have hnew : ((σ.moved c).next.newline || (σ.moved c).next.is .semicolon ||
        (σ.moved c).next.is .closeBrace || (σ.moved c).next.token == .finish) = true := by
      rcases hn with ⟨-, hn⟩ | ⟨-, hn, -⟩ <;> simp [Lexeme.is, hn]
    rw [hold] at hp
    rw [hnew]
    exact ht.keeps hp hok

end Collector.Script
