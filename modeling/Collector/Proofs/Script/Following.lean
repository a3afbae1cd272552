import Collector.Proofs.Script.Seam

/-!
# Parsers that follow each other across a seam

`Follows σ halts p q` says that `q` reads on the new side of a seam what `p` reads on the old side,
if `p` stops before a token both sides share, or at the seam where `halts` holds. Three more
predicates vary it.

* `Leads`: `p` also takes something.
* `Opens`: the two sides need to agree on the next token only, and not on what stands before it.
* `Looks`: `p` has to be followed by a parser that takes something.

The lemmas below build these predicates along the combinators of `Collector.Script.Parser`. At the
seam the two sides see different tokens, so a lemma about a look at the next token asks either
that something is taken afterwards, or that the closer on the new side decides as the old token.
-/

namespace Collector.Script

open Relation

variable {α β γ : Type} {σ : Seam} {halts : Cursor → Prop}

/-! ## Runs of parsers -/

namespace Parser

theorem bind_eq_some {p : Parser α} {k : α → Parser β} {c c' : Cursor} {b : β} :
    (p >>= k) c = some (b, c') ↔ ∃ a c₁, p c = some (a, c₁) ∧ k a c₁ = some (b, c') := by
  show (p c).bind (fun r => k r.1 r.2) = _ ↔ _
  constructor
  · intro h
    obtain ⟨⟨a, c₁⟩, hp, hk⟩ := Option.bind_eq_some_iff.mp h
    exact ⟨a, c₁, hp, hk⟩
  · rintro ⟨a, c₁, hp, hk⟩
    simp [hp, hk]

theorem bind_of_eq_some {p : Parser α} {k : α → Parser β} {c c₁ : Cursor} {a : α}
    (h : p c = some (a, c₁)) : (p >>= k) c = k a c₁ := by
  show (p c).bind (fun r => k r.1 r.2) = _
  simp [h]

theorem bind_of_none {p : Parser α} {k : α → Parser β} {c : Cursor}
    (h : p c = none) : (p >>= k) c = none :=
  Option.bind_eq_none_iff.mpr fun _ hp => nomatch h.symm.trans hp

theorem pure_eq_some {a b : α} {c c' : Cursor} :
    (pure a : Parser α) c = some (b, c') ↔ a = b ∧ c = c' := by
  show some (a, c) = some (b, c') ↔ _
  simp

theorem failure_eq_some {b : α} {c c' : Cursor} :
    (failure : Parser α) c = some (b, c') ↔ False := by
  show none = some (b, c') ↔ _
  simp

theorem check_eq_some {condition : Bool} {u : Unit} {c c' : Cursor} :
    check condition c = some (u, c') ↔ condition = true ∧ c = c' := by
  cases condition
  · exact failure_eq_some.trans (by simp)
  · exact pure_eq_some.trans (by simp)

theorem lift_eq_some {o : Option α} {a : α} {c c' : Cursor} :
    lift o c = some (a, c') ↔ o = some a ∧ c = c' := by
  cases o
  · exact failure_eq_some.trans (by simp)
  · exact pure_eq_some.trans (by simp)

theorem jump_eq_some {text : List Char} {u : Unit} {c c' : Cursor} :
    jump text c = some (u, c') ↔ c' = .front .inside text := by
  show some ((), _) = some (u, c') ↔ _
  simp [eq_comm]

theorem map_eq_bind (f : α → β) (p : Parser α) : f <$> p = p >>= fun a => pure (f a) :=
  map_eq_pure_bind f p

theorem map_eq_some {f : α → β} {p : Parser α} {c c' : Cursor} {b : β} :
    (f <$> p) c = some (b, c') ↔ ∃ a, p c = some (a, c') ∧ f a = b := by
  rw [map_eq_bind, bind_eq_some]
  constructor
  · rintro ⟨a, c₁, hp, hb⟩
    obtain ⟨rfl, rfl⟩ := pure_eq_some.mp hb
    exact ⟨a, hp, rfl⟩
  · rintro ⟨a, hp, rfl⟩
    exact ⟨a, c', hp, rfl⟩

theorem peek_bind {k : Lexeme → Parser β} (c : Cursor) : (peek >>= k) c = k c.next c := rfl

theorem left_bind {k : List Char → Parser β} (c : Cursor) : (left >>= k) c = k c.left c := rfl

theorem advance_eq_some {c c' : Cursor} {u : Unit} :
    advance c = some (u, c') ↔ c.next.token.isReal = true ∧ c' = .front .inside c.next.rest := by
  unfold advance
  rw [peek_bind]
  cases c.next.token <;>
    simp [Token.isReal, jump, failure_eq_some, eq_comm]

theorem advance_of_real {c : Cursor} (h : c.next.token.isReal = true) :
    advance c = some ((), .front .inside c.next.rest) :=
  advance_eq_some.mpr ⟨h, rfl⟩

end Parser

/-! ## The predicates -/

/-- `q` reads on the new side what `p` reads on the old one. -/
structure Follows (σ : Seam) (halts : Cursor → Prop) (p q : Parser α) : Prop where
  moves {c a c'} (h : p c = some (a, c')) : ReflTransGen Move c c'
  keeps {c a c'} (h : p c = some (a, c')) (hok : σ.Ok halts c') :
    q (σ.moved c) = some (a, σ.moved c')

/-- `q` reads on the new side what `p` reads on the old one, and `p` takes something. -/
structure Leads (σ : Seam) (halts : Cursor → Prop) (p q : Parser α) : Prop where
  moves {c a c'} (h : p c = some (a, c')) : TransGen Move c c'
  keeps {c a c'} (h : p c = some (a, c')) (hok : σ.Ok halts c') :
    q (σ.moved c) = some (a, σ.moved c')

/-- The next token is the same on both sides, but a line may end before it on one side only. -/
def Seam.Meets (σ : Seam) (c d : Cursor) : Prop :=
  ∃ newline, d.next = { σ.shiftLexeme c.next with newline := newline }

/-- `q` reads on the new side what `p` reads on the old one, wherever the next token is the same. -/
structure Opens (σ : Seam) (halts : Cursor → Prop) (p q : Parser α) : Prop where
  moves {c a c'} (h : p c = some (a, c')) : TransGen Move c c'
  meets {c d a c'} (hm : σ.Meets c d) (h : p c = some (a, c')) (hok : σ.Ok halts c') :
    q d = some (a, σ.moved c')

/-- `q` reads on the new side what `p` reads on the old one, if something is taken afterwards. -/
structure Looks (σ : Seam) (halts : Cursor → Prop) (p q : Parser α) : Prop where
  moves {c a c'} (h : p c = some (a, c')) : ReflTransGen Move c c'
  keeps {c a c' c₁} (h : p c = some (a, c')) (hm : TransGen Move c' c₁) (hok : σ.Ok halts c₁) :
    q (σ.moved c) = some (a, σ.moved c')

/-- No place at the seam. -/
def never : Cursor → Prop := fun _ => False

theorem Seam.Ok.of_passed {c : Cursor} (h : σ.Passed c) : σ.Ok halts c := .inl h

theorem Leads.follows {p q : Parser α} (h : Leads σ halts p q) : Follows σ halts p q :=
  ⟨fun hp => (h.moves hp).to_reflTransGen, h.keeps⟩

theorem Opens.leads {p q : Parser α} (h : Opens σ halts p q) : Leads σ halts p q :=
  ⟨h.moves, fun hp hok =>
    h.meets ⟨_, (Seam.passed_of_moves (h.moves hp) hok).sees.next⟩ hp hok⟩

theorem Opens.follows {p q : Parser α} (h : Opens σ halts p q) : Follows σ halts p q :=
  h.leads.follows

/-- A parser that is never followed at the seam may stand before one that takes something. -/
theorem Follows.looks {p q : Parser α} (h : Follows σ never p q) : Looks σ halts p q :=
  ⟨h.moves, fun hp hm hok => h.keeps hp (.of_passed (Seam.passed_of_moves hm hok))⟩

/-! ## One parser after another -/

theorem Follows.pure (a : α) : Follows σ halts (pure a) (pure a) := by
  refine ⟨fun h => ?_, fun h _ => ?_⟩
  · obtain ⟨rfl, rfl⟩ := Parser.pure_eq_some.mp h
    exact .refl
  · obtain ⟨rfl, rfl⟩ := Parser.pure_eq_some.mp h
    rfl

/-- A parser that always fails. -/
theorem Opens.of_none {p : Parser α} (h : ∀ c, p c = none) (q : Parser α) : Opens σ halts p q := by
  refine ⟨fun hp => ?_, fun _ hp _ => ?_⟩
  · simp [h] at hp
  · simp [h] at hp

theorem Opens.failure (q : Parser α) : Opens σ halts failure q := .of_none (fun _ => rfl) q

section Bind

variable {p q : Parser α} {k k' : α → Parser β}

theorem Follows.bind (h : Follows σ halts p q) (hk : ∀ a, Follows σ halts (k a) (k' a)) :
    Follows σ halts (p >>= k) (q >>= k') := by
  refine ⟨fun hb => ?_, fun hb hok => ?_⟩
  · obtain ⟨a, c₁, hp, hb⟩ := Parser.bind_eq_some.mp hb
    exact (h.moves hp).trans ((hk a).moves hb)
  · obtain ⟨a, c₁, hp, hb⟩ := Parser.bind_eq_some.mp hb
    have hok₁ := Seam.ok_of_moves ((hk a).moves hb) hok
    rw [Parser.bind_of_eq_some (h.keeps hp hok₁)]
    exact (hk a).keeps hb hok

theorem Leads.bind (h : Leads σ halts p q) (hk : ∀ a, Follows σ halts (k a) (k' a)) :
    Leads σ halts (p >>= k) (q >>= k') := by
  refine ⟨fun hb => ?_, (h.follows.bind hk).keeps⟩
  obtain ⟨a, c₁, hp, hb⟩ := Parser.bind_eq_some.mp hb
  exact (h.moves hp).trans_left ((hk a).moves hb)

theorem Opens.bind (h : Opens σ halts p q) (hk : ∀ a, Follows σ halts (k a) (k' a)) :
    Opens σ halts (p >>= k) (q >>= k') := by
  refine ⟨(h.leads.bind hk).moves, fun hm hb hok => ?_⟩
  obtain ⟨a, c₁, hp, hb⟩ := Parser.bind_eq_some.mp hb
  have hok₁ := Seam.ok_of_moves ((hk a).moves hb) hok
  rw [Parser.bind_of_eq_some (h.meets hm hp hok₁)]
  exact (hk a).keeps hb hok

/-- Where the second parser takes nothing, the first one stops before a token that the second one
leaves. -/
theorem Opens.bind_at {stops : Cursor → Prop} (h : Opens σ stops p q)
    (hk : ∀ a, Follows σ halts (k a) (k' a))
    (hs : ∀ a b c, σ.AtSeam c → halts c → k a c = some (b, c) → stops c) :
    Opens σ halts (p >>= k) (q >>= k') := by
  have stop {a b c₁ c'} (hb : k a c₁ = some (b, c')) (hok : σ.Ok halts c') : σ.Ok stops c₁ := by
    rcases Seam.ok_of_moves ((hk a).moves hb) hok with hp | ⟨hat, hh⟩
    · exact .inl hp
    · rcases reflTransGen_iff_eq_or_transGen.mp ((hk a).moves hb) with rfl | hm
      · exact .inr ⟨hat, hs a b _ hat hh hb⟩
      · exact (hat.not_moves hm hok).elim
  refine ⟨fun hb => ?_, fun hm hb hok => ?_⟩
  · obtain ⟨a, c₁, hp, hb⟩ := Parser.bind_eq_some.mp hb
    exact (h.moves hp).trans_left ((hk a).moves hb)
  · obtain ⟨a, c₁, hp, hb⟩ := Parser.bind_eq_some.mp hb
    rw [Parser.bind_of_eq_some (h.meets hm hp (stop hb hok))]
    exact (hk a).keeps hb hok

/-- A parser before one that takes something. -/
theorem Looks.bind (h : Looks σ halts p q) (hk : ∀ a, Leads σ halts (k a) (k' a)) :
    Leads σ halts (p >>= k) (q >>= k') := by
  refine ⟨fun hb => ?_, fun hb hok => ?_⟩
  · obtain ⟨a, c₁, hp, hb⟩ := Parser.bind_eq_some.mp hb
    exact TransGen.trans_right (h.moves hp) ((hk a).moves hb)
  · obtain ⟨a, c₁, hp, hb⟩ := Parser.bind_eq_some.mp hb
    rw [Parser.bind_of_eq_some (h.keeps hp ((hk a).moves hb) hok)]
    exact (hk a).keeps hb hok

theorem Looks.andThen (h : Looks σ halts p q) (hk : ∀ a, Looks σ halts (k a) (k' a)) :
    Looks σ halts (p >>= k) (q >>= k') := by
  refine ⟨fun hb => ?_, fun hb hm hok => ?_⟩
  · obtain ⟨a, c₁, hp, hb⟩ := Parser.bind_eq_some.mp hb
    exact (h.moves hp).trans ((hk a).moves hb)
  · obtain ⟨a, c₁, hp, hb⟩ := Parser.bind_eq_some.mp hb
    rw [Parser.bind_of_eq_some
      (h.keeps hp (TransGen.trans_right ((hk a).moves hb) hm) hok)]
    exact (hk a).keeps hb hm hok

end Bind

/-! ## Looks at the next token -/

theorem Seam.Passed.next {c : Cursor} (h : σ.Passed c) :
    (σ.moved c).next = σ.shiftLexeme c.next := h.sees.next

section Peek

variable {k k' : Lexeme → Parser β}

theorem Opens.peek
    (h : ∀ l newline, Opens σ halts (k l) (k' { σ.shiftLexeme l with newline := newline })) :
    Opens σ halts (Parser.peek >>= k) (Parser.peek >>= k') := by
  refine ⟨fun hb => (h _ true).moves hb, fun hm hb hok => ?_⟩
  obtain ⟨newline, hd⟩ := id hm
  rw [Parser.peek_bind, hd]
  exact (h _ newline).meets hm hb hok

theorem Leads.peek (h : ∀ l, Leads σ halts (k l) (k' (σ.shiftLexeme l))) :
    Leads σ halts (Parser.peek >>= k) (Parser.peek >>= k') := by
  refine ⟨fun hb => (h _).moves hb, fun {c a c'} hb hok => ?_⟩
  rw [Parser.peek_bind, (Seam.passed_of_moves ((h _).moves hb) hok).next]
  exact (h _).keeps hb hok

/-- At the seam the two sides see different tokens. -/
theorem Follows.peek (h : ∀ l, Follows σ halts (k l) (k' (σ.shiftLexeme l)))
    (hs : ∀ c a, σ.AtSeam c → halts c → k c.next c = some (a, c) →
      k' (σ.moved c).next (σ.moved c) = some (a, σ.moved c)) :
    Follows σ halts (Parser.peek >>= k) (Parser.peek >>= k') := by
  refine ⟨fun hb => (h _).moves hb, fun {c a c'} hb hok => ?_⟩
  rw [Parser.peek_bind]
  rcases Seam.ok_of_moves ((h _).moves hb) hok with hp | ⟨hat, hh⟩
  · rw [hp.next]
    exact (h _).keeps hb hok
  · rcases reflTransGen_iff_eq_or_transGen.mp ((h _).moves hb) with rfl | hm
    · exact hs _ _ hat hh hb
    · exact (hat.not_moves hm hok).elim

/-- Away from the seam any look at the next token is the same on both sides. -/
theorem Follows.peek_never (h : ∀ l, Follows σ never (k l) (k' (σ.shiftLexeme l))) :
    Follows σ never (Parser.peek >>= k) (Parser.peek >>= k') :=
  .peek h fun _ _ _ hh _ => hh.elim

end Peek

/-- At the seam nothing is taken, so that a parser that takes something is not run there. -/
theorem Leads.not_atSeam {p q : Parser α} (h : Leads σ halts p q) {c c' : Cursor} {a : α}
    (hp : p c = some (a, c')) (hok : σ.Ok halts c') (hs : σ.AtSeam c) : False :=
  hs.not_moves (h.moves hp) hok

/-! ## Taking tokens -/

theorem Opens.advance : Opens σ halts Parser.advance Parser.advance := by
  refine ⟨fun h => ?_, fun {c d u c'} hm h hok => ?_⟩
  · obtain ⟨hr, rfl⟩ := Parser.advance_eq_some.mp h
    exact .single (.next hr)
  · obtain ⟨hr, rfl⟩ := Parser.advance_eq_some.mp h
    obtain ⟨newline, hd⟩ := hm
    exact Parser.advance_eq_some.mpr ⟨by rw [hd]; exact hr, by rw [hd]; rfl⟩

/-- A parser that takes a certain token if it comes next, and tells whether it does. -/
structure Accepts (token : Token) (p : Parser Bool) : Prop where
  real : token.isReal = true
  run (c : Cursor) : p c = if c.next.token = token then some (true, .front .inside c.next.rest)
    else some (false, c)

theorem Parser.accept_accepts (p : Punctuator) : Accepts (.punctuator p) (Parser.accept p) := by
  refine ⟨rfl, fun c => ?_⟩
  show (if (c.next.token == .punctuator p) = true then
    (Parser.advance >>= fun _ => Pure.pure true : Parser Bool) else Pure.pure false) c = _
  by_cases h : c.next.token = .punctuator p
  · rw [if_pos h, if_pos (by simp [h]),
      Parser.bind_of_eq_some (Parser.advance_of_real (by rw [h]; rfl))]
    rfl
  · rw [if_neg h, if_neg (by simpa using h)]
    rfl

theorem Parser.acceptWord_accepts (word : String) :
    Accepts (.word word false) (Parser.acceptWord word) := by
  refine ⟨rfl, fun c => ?_⟩
  show (if (c.next.token == .word word false) = true then
    (Parser.advance >>= fun _ => Pure.pure true : Parser Bool) else Pure.pure false) c = _
  by_cases h : c.next.token = .word word false
  · rw [if_pos h, if_pos (by simp [h]),
      Parser.bind_of_eq_some (Parser.advance_of_real (by rw [h]; rfl))]
    rfl
  · rw [if_neg h, if_neg (by simpa using h)]
    rfl

section Accept

variable {token : Token} {p : Parser Bool} {k k' : Bool → Parser β}

theorem Accepts.bind_true (h : Accepts token p) {c : Cursor} (hc : c.next.token = token) :
    (p >>= k) c = k true (.front .inside c.next.rest) :=
  Parser.bind_of_eq_some (by rw [h.run, if_pos hc])

theorem Accepts.bind_false (h : Accepts token p) {c : Cursor} (hc : c.next.token ≠ token) :
    (p >>= k) c = k false c :=
  Parser.bind_of_eq_some (by rw [h.run, if_neg hc])

theorem Accepts.move (h : Accepts token p) {c : Cursor} (hc : c.next.token = token) :
    Move c (.front .inside c.next.rest) :=
  .next (by rw [hc]; exact h.real)

theorem Accepts.opens (h : Accepts token p) (ht : Follows σ halts (k true) (k' true))
    (hf : Opens σ halts (k false) (k' false)) : Opens σ halts (p >>= k) (p >>= k') := by
  refine ⟨fun {c a c'} hb => ?_, fun {c d a c'} hm hb hok => ?_⟩
  · by_cases hc : c.next.token = token
    · rw [h.bind_true hc] at hb
      exact .head' (h.move hc) (ht.moves hb)
    · rw [h.bind_false hc] at hb
      exact hf.moves hb
  · obtain ⟨newline, hd⟩ := id hm
    by_cases hc : c.next.token = token
    · rw [h.bind_true hc] at hb
      rw [h.bind_true (by rw [hd]; exact hc), hd]
      exact ht.keeps hb hok
    · rw [h.bind_false hc] at hb
      rw [h.bind_false (by rw [hd]; exact hc)]
      exact hf.meets hm hb hok

theorem Accepts.leads (h : Accepts token p) (ht : Follows σ halts (k true) (k' true))
    (hf : Leads σ halts (k false) (k' false)) : Leads σ halts (p >>= k) (p >>= k') := by
  have moves {c a c'} (hb : (p >>= k) c = some (a, c')) : TransGen Move c c' := by
    by_cases hc : c.next.token = token
    · rw [h.bind_true hc] at hb
      exact .head' (h.move hc) (ht.moves hb)
    · rw [h.bind_false hc] at hb
      exact hf.moves hb
  refine ⟨moves, fun {c a c'} hb hok => ?_⟩
  have hd := (Seam.passed_of_moves (moves hb) hok).next
  by_cases hc : c.next.token = token
  · rw [h.bind_true hc] at hb
    rw [h.bind_true (by rw [hd]; exact hc), hd]
    exact ht.keeps hb hok
  · rw [h.bind_false hc] at hb
    rw [h.bind_false (by rw [hd]; exact hc)]
    exact hf.keeps hb hok

/-- A token other than the closer may be taken, or not, at the seam too. -/
theorem Accepts.follows (h : Accepts token p) (hne : token ≠ σ.stop.token)
    (ht : Follows σ halts (k true) (k' true)) (hf : Follows σ halts (k false) (k' false)) :
    Follows σ halts (p >>= k) (p >>= k') := by
  have moves {c a c'} (hb : (p >>= k) c = some (a, c')) : ReflTransGen Move c c' := by
    by_cases hc : c.next.token = token
    · rw [h.bind_true hc] at hb
      exact .head (h.move hc) (ht.moves hb)
    · rw [h.bind_false hc] at hb
      exact hf.moves hb
  refine ⟨moves, fun {c a c'} hb hok => ?_⟩
  by_cases hc : c.next.token = token
  · rw [h.bind_true hc] at hb
    have hd := (Seam.passed_of_moves (.head' (h.move hc) (ht.moves hb)) hok).next
    rw [h.bind_true (by rw [hd]; exact hc), hd]
    exact ht.keeps hb hok
  · rw [h.bind_false hc] at hb
    have hd : (σ.moved c).next.token ≠ token := by
      rcases Seam.ok_of_moves (hf.moves hb) hok with hp | ⟨hat, -⟩
      · rw [hp.next]
        exact hc
      · rw [hat.token]
        exact hne.symm
    rw [h.bind_false hd]
    exact hf.keeps hb hok

end Accept

section Take

variable {k k' : Bool → Parser β} {p : Punctuator} {word : String}

theorem Opens.accept (ht : Follows σ halts (k true) (k' true))
    (hf : Opens σ halts (k false) (k' false)) :
    Opens σ halts (Parser.accept p >>= k) (Parser.accept p >>= k') :=
  (Parser.accept_accepts p).opens ht hf

theorem Leads.accept (ht : Follows σ halts (k true) (k' true))
    (hf : Leads σ halts (k false) (k' false)) :
    Leads σ halts (Parser.accept p >>= k) (Parser.accept p >>= k') :=
  (Parser.accept_accepts p).leads ht hf

theorem Follows.accept (hp : .punctuator p ≠ σ.stop.token) (ht : Follows σ halts (k true) (k' true))
    (hf : Follows σ halts (k false) (k' false)) :
    Follows σ halts (Parser.accept p >>= k) (Parser.accept p >>= k') :=
  (Parser.accept_accepts p).follows hp ht hf

theorem Opens.acceptWord (ht : Follows σ halts (k true) (k' true))
    (hf : Opens σ halts (k false) (k' false)) :
    Opens σ halts (Parser.acceptWord word >>= k) (Parser.acceptWord word >>= k') :=
  (Parser.acceptWord_accepts word).opens ht hf

theorem Leads.acceptWord (ht : Follows σ halts (k true) (k' true))
    (hf : Leads σ halts (k false) (k' false)) :
    Leads σ halts (Parser.acceptWord word >>= k) (Parser.acceptWord word >>= k') :=
  (Parser.acceptWord_accepts word).leads ht hf

theorem Follows.acceptWord (ht : Follows σ halts (k true) (k' true))
    (hf : Follows σ halts (k false) (k' false)) :
    Follows σ halts (Parser.acceptWord word >>= k) (Parser.acceptWord word >>= k') :=
  (Parser.acceptWord_accepts word).follows (Stop.token_ne_word _ _ _).symm ht hf

theorem Leads.accept_both (h : ∀ b, Leads σ halts (k b) (k' b)) :
    Leads σ halts (Parser.accept p >>= k) (Parser.accept p >>= k') :=
  .accept (h true).follows (h false)

theorem Opens.acceptWord_both (h : ∀ b, Opens σ halts (k b) (k' b)) :
    Opens σ halts (Parser.acceptWord word >>= k) (Parser.acceptWord word >>= k') :=
  .acceptWord (h true).follows (h false)

theorem Opens.expect : Opens σ halts (Parser.expect p) (Parser.expect p) :=
  .accept (.pure ()) (.failure _)

theorem Parser.expectWord_eq_some {c c' : Cursor} {u : Unit} :
    Parser.expectWord word c = some (u, c') ↔
      c.next.token = .word word false ∧ c' = .front .inside c.next.rest := by
  unfold Parser.expectWord
  by_cases h : c.next.token = .word word false
  · rw [(Parser.acceptWord_accepts word).bind_true h, Parser.check_eq_some]
    simp [h, eq_comm]
  · rw [(Parser.acceptWord_accepts word).bind_false h, Parser.check_eq_some]
    simp [h]

theorem Parser.expect_of_token {c : Cursor} (h : c.next.token = .punctuator p) :
    Parser.expect p c = some ((), .front .inside c.next.rest) := by
  unfold Parser.expect
  rw [(Parser.accept_accepts p).bind_true h]
  rfl

theorem Opens.expectWord : Opens σ halts (Parser.expectWord word) (Parser.expectWord word) :=
  .acceptWord (.pure ()) (.failure _)

theorem Parser.sees_bind :
    (Parser.sees p >>= k) = Parser.peek >>= fun l => k (l.is p) := rfl

theorem Parser.seesWord_bind :
    (Parser.seesWord word >>= k) = Parser.peek >>= fun l => k (l.isWord word) := rfl

theorem Opens.sees (h : ∀ b, Opens σ halts (k b) (k' b)) :
    Opens σ halts (Parser.sees p >>= k) (Parser.sees p >>= k') := by
  rw [Parser.sees_bind, Parser.sees_bind]
  exact .peek fun l _ => h (l.is p)

theorem Leads.sees (h : ∀ b, Leads σ halts (k b) (k' b)) :
    Leads σ halts (Parser.sees p >>= k) (Parser.sees p >>= k') := by
  rw [Parser.sees_bind, Parser.sees_bind]
  exact .peek fun l => h (l.is p)

theorem Opens.seesWord (h : ∀ b, Opens σ halts (k b) (k' b)) :
    Opens σ halts (Parser.seesWord word >>= k) (Parser.seesWord word >>= k') := by
  rw [Parser.seesWord_bind, Parser.seesWord_bind]
  exact .peek fun l _ => h (l.isWord word)

/-- What no closer is may be looked for at the seam too, if something is taken where it is
found. -/
theorem Follows.look (test : Lexeme → Bool) (hshift : ∀ l, test (σ.shiftLexeme l) = test l)
    (hstop : ∀ l, l.token = σ.stop.token → test l = false)
    (ht : Leads σ halts (k true) (k' true)) (hf : Follows σ halts (k false) (k' false)) :
    Follows σ halts (Parser.peek >>= fun l => k (test l)) (Parser.peek >>= fun l => k' (test l)) := by
  have h (b : Bool) : Follows σ halts (k b) (k' b) := by
    cases b
    · exact hf
    · exact ht.follows
  refine .peek (fun l => by rw [hshift]; exact h (test l)) fun c a hat hh hb => ?_
  rw [hstop _ hat.token]
  cases hc : test c.next with
  | true =>
    rw [hc] at hb
    exact (ht.not_atSeam hb (.inr ⟨hat, hh⟩) hat).elim
  | false =>
    rw [hc] at hb
    exact hf.keeps hb (.inr ⟨hat, hh⟩)

theorem Follows.sees (hp : .punctuator p ≠ σ.stop.token) (ht : Leads σ halts (k true) (k' true))
    (hf : Follows σ halts (k false) (k' false)) :
    Follows σ halts (Parser.sees p >>= k) (Parser.sees p >>= k') := by
  rw [Parser.sees_bind, Parser.sees_bind]
  exact .look (·.is p) (fun _ => rfl) (fun l hl => by simpa [Lexeme.is, hl] using hp.symm) ht hf

theorem Follows.sees_never (h : ∀ b, Follows σ never (k b) (k' b)) :
    Follows σ never (Parser.sees p >>= k) (Parser.sees p >>= k') := by
  rw [Parser.sees_bind, Parser.sees_bind]
  exact .peek_never fun l => h (l.is p)

end Take

/-! ## Conditions and options -/

section Check

variable {k k' : Unit → Parser β} {condition : Bool}

theorem Follows.check : Follows σ halts (Parser.check condition) (Parser.check condition) := by
  cases condition
  · exact (Opens.failure _).follows
  · exact .pure ()

theorem Opens.check (h : Opens σ halts (k ()) (k' ())) :
    Opens σ halts (Parser.check condition >>= k) (Parser.check condition >>= k') := by
  cases condition
  · exact .of_none (fun _ => rfl) _
  · exact h

theorem Leads.check (h : Leads σ halts (k ()) (k' ())) :
    Leads σ halts (Parser.check condition >>= k) (Parser.check condition >>= k') := by
  cases condition
  · exact (Opens.of_none (fun _ => rfl) _).leads
  · exact h

end Check

theorem Follows.lift (o : Option α) : Follows σ halts (Parser.lift o) (Parser.lift o) := by
  cases o
  · exact (Opens.failure _).follows
  · exact .pure _

theorem Opens.lift {o : Option α} {k k' : α → Parser β} (h : ∀ a, Opens σ halts (k a) (k' a)) :
    Opens σ halts (Parser.lift o >>= k) (Parser.lift o >>= k') := by
  cases o
  · exact .of_none (fun _ => rfl) _
  · exact h _

theorem Leads.lift {o : Option α} {k k' : α → Parser β} (h : ∀ a, Leads σ halts (k a) (k' a)) :
    Leads σ halts (Parser.lift o >>= k) (Parser.lift o >>= k') := by
  cases o
  · exact (Opens.of_none (fun _ => rfl) _).leads
  · exact h _

/-! ## Choices -/

section Choice

variable {condition : Prop} [Decidable condition] {p q p' q' : Parser α}

theorem Opens.ite (ht : Opens σ halts p p') (hf : Opens σ halts q q') :
    Opens σ halts (if condition then p else q) (if condition then p' else q') := by
  split
  · exact ht
  · exact hf

theorem Leads.ite (ht : Leads σ halts p p') (hf : Leads σ halts q q') :
    Leads σ halts (if condition then p else q) (if condition then p' else q') := by
  split
  · exact ht
  · exact hf

theorem Follows.ite (ht : Follows σ halts p p') (hf : Follows σ halts q q') :
    Follows σ halts (if condition then p else q) (if condition then p' else q') := by
  split
  · exact ht
  · exact hf

end Choice

/-! ## Texts -/

theorem Follows.textFrom (start : List Char) :
    Follows σ halts (Parser.textFrom start) (Parser.textFrom (σ.shift start)) := by
  have run (start : List Char) (c : Cursor) :
      Parser.textFrom start c = some (slice start c.left, c) := rfl
  refine ⟨fun {c a c'} h => ?_, fun {c a c'} h hok => ?_⟩
  · rw [run] at h
    obtain ⟨rfl, rfl⟩ := Prod.mk.inj (Option.some.inj h)
    exact .refl
  · rw [run] at h ⊢
    obtain ⟨rfl, rfl⟩ := Prod.mk.inj (Option.some.inj h)
    obtain ⟨front, hf⟩ := hok.left
    have : (σ.moved c).left = front ++ σ.new := by
      show σ.shift c.left = _
      rw [← hf, Seam.shift_append]
    rw [this, ← hf, Seam.slice_shift]

/-! ## Repetitions -/

section Iterate

variable {ρ : Type} {n n' : Nat} {step step' : ρ → Parser (ρ ⊕ α)}

theorem Follows.iterate (hn : n ≤ n') (h : ∀ s, Follows σ halts (step s) (step' s)) (s : ρ) :
    Follows σ halts (Parser.iterate n step s) (Parser.iterate n' step' s) := by
  induction n generalizing n' s with
  | zero => exact (Opens.of_none (fun _ => rfl) _).follows
  | succ n ih =>
    obtain ⟨n', rfl⟩ := Nat.exists_eq_add_of_lt (Nat.lt_of_lt_of_le n.lt_succ_self hn)
    refine (h s).bind fun r => ?_
    cases r with
    | inl s => exact ih (by omega) s
    | inr a => exact .pure a

/-- A repetition takes something if every step does. -/
theorem Leads.iterate (hn : n ≤ n') (h : ∀ s, Leads σ halts (step s) (step' s)) (s : ρ) :
    Leads σ halts (Parser.iterate n step s) (Parser.iterate n' step' s) := by
  cases n with
  | zero => exact (Opens.of_none (fun _ => rfl) _).leads
  | succ n =>
    obtain ⟨n', rfl⟩ := Nat.exists_eq_add_of_lt (Nat.lt_of_lt_of_le n.lt_succ_self hn)
    refine (h s).bind fun r => ?_
    cases r with
    | inl s => exact .iterate (by omega) (fun s => (h s).follows) s
    | inr a => exact .pure a

theorem Opens.iterate (hn : n ≤ n') (h : ∀ s, Opens σ halts (step s) (step' s)) (s : ρ) :
    Opens σ halts (Parser.iterate n step s) (Parser.iterate n' step' s) := by
  cases n with
  | zero => exact .of_none (fun _ => rfl) _
  | succ n =>
    obtain ⟨n', rfl⟩ := Nat.exists_eq_add_of_lt (Nat.lt_of_lt_of_le n.lt_succ_self hn)
    refine (h s).bind fun r => ?_
    cases r with
    | inl s => exact .iterate (by omega) (fun s => (h s).follows) s
    | inr a => exact .pure a

theorem Parser.iterate_succ (n : Nat) (step : ρ → Parser (ρ ⊕ α)) (s : ρ) :
    Parser.iterate (n + 1) step s = step s >>= Sum.elim (Parser.iterate n step) pure := by
  rw [Parser.iterate]
  congr 1
  funext r
  cases r <;> rfl

/-- A repetition ends with a round that answers. -/
theorem Parser.iterate_last {s : ρ} {c c' : Cursor} {a : α}
    (h : Parser.iterate n step s c = some (a, c')) : ∃ s' c₁, step s' c₁ = some (.inr a, c') := by
  induction n generalizing s c with
  | zero => cases h
  | succ n ih =>
    rw [Parser.iterate_succ] at h
    obtain ⟨r, c₁, hs, hr⟩ := Parser.bind_eq_some.mp h
    cases r with
    | inl s' => exact ih hr
    | inr b =>
      obtain ⟨rfl, rfl⟩ := Parser.pure_eq_some.mp hr
      exact ⟨s, c, hs⟩

/-- A repetition in which a round that is not the last one is followed by another, in front of
another parser. -/
theorem Leads.iterate_then {k k' : α → Parser β} (hn : n ≤ n')
    (h : ∀ s (j j' : ρ → Parser β), (∀ s, Leads σ halts (j s) (j' s)) →
      Leads σ halts (step s >>= Sum.elim j k) (step' s >>= Sum.elim j' k')) (s : ρ) :
    Leads σ halts (Parser.iterate n step s >>= k) (Parser.iterate n' step' s >>= k') := by
  induction n generalizing n' s with
  | zero => exact (Opens.of_none (fun _ => rfl) _).leads
  | succ n ih =>
    obtain ⟨n', rfl⟩ := Nat.exists_eq_add_of_lt (Nat.lt_of_lt_of_le n.lt_succ_self hn)
    have join (n : Nat) (step : ρ → Parser (ρ ⊕ α)) (k : α → Parser β) :
        Parser.iterate (n + 1) step s >>= k =
          step s >>= Sum.elim (fun s => Parser.iterate n step s >>= k) k := by
      rw [Parser.iterate_succ, bind_assoc]
      congr 1
      funext r
      cases r <;> rfl
    rw [join, join]
    exact h s _ _ fun s => ih (by omega) s

/-- A repetition in which a round that is not the last one is followed by another. -/
theorem Leads.iterate_rounds (hn : n ≤ n')
    (h : ∀ s (j j' : ρ → Parser α), (∀ s, Leads σ halts (j s) (j' s)) →
      Leads σ halts (step s >>= Sum.elim j pure) (step' s >>= Sum.elim j' pure)) (s : ρ) :
    Leads σ halts (Parser.iterate n step s) (Parser.iterate n' step' s) := by
  have := Leads.iterate_then hn h s
  rwa [bind_pure, bind_pure] at this

/-- A repetition that may end in its first round, in front of another parser. -/
theorem Opens.iterate_then {k k' : α → Parser β} (hn : n ≤ n')
    (h : ∀ s, Follows σ halts (step s) (step' s)) (s : ρ)
    (first : ∀ j j' : ρ ⊕ α → Parser β, (∀ r, Follows σ halts (j r) (j' r)) →
      (∀ a, Opens σ halts (j (.inr a)) (j' (.inr a))) →
      Opens σ halts (step s >>= j) (step' s >>= j'))
    (hk : ∀ a, Opens σ halts (k a) (k' a)) :
    Opens σ halts (Parser.iterate n step s >>= k) (Parser.iterate n' step' s >>= k') := by
  cases n with
  | zero => exact .of_none (fun _ => rfl) _
  | succ n =>
    obtain ⟨n', rfl⟩ := Nat.exists_eq_add_of_lt (Nat.lt_of_lt_of_le n.lt_succ_self hn)
    rw [Parser.iterate_succ, Parser.iterate_succ, bind_assoc, bind_assoc]
    refine first _ _ (fun r => ?_) hk
    cases r with
    | inl s => exact (Follows.iterate (by omega) h s).bind fun a => (hk a).follows
    | inr a => exact (hk a).follows

end Iterate

/-! ## Names -/

/-- The same mode, perhaps inside a function. -/
def Mode.widen (m : Mode) (inside : Bool) : Mode := { m with isFunction := m.isFunction || inside }

theorem Lexeme.identifier?_word {l : Lexeme} {m : Mode} {id : String}
    (h : l.identifier? m = some id) : ∃ escaped, l.token = .word id escaped := by
  unfold identifier? at h
  split at h
  next word escaped ht =>
    split at h
    · obtain rfl := Option.some.inj h
      exact ⟨escaped, ht⟩
    · cases h
  next => cases h

theorem Parser.identifier_eq_some {m : Mode} {c c' : Cursor} {id : String} :
    Parser.identifier m c = some (id, c') ↔
      c.next.identifier? m = some id ∧ c' = .front .inside c.next.rest := by
  unfold Parser.identifier
  simp only [Parser.peek_bind, Parser.bind_eq_some, Parser.lift_eq_some, Parser.pure_eq_some,
    Parser.advance_eq_some]
  constructor
  · rintro ⟨id', c₁, ⟨hi, rfl⟩, -, c₂, ⟨-, rfl⟩, rfl, rfl⟩
    exact ⟨hi, rfl⟩
  · rintro ⟨hi, rfl⟩
    obtain ⟨escaped, ht⟩ := Lexeme.identifier?_word hi
    exact ⟨id, c, ⟨hi, rfl⟩, (), _, ⟨by rw [ht]; rfl, rfl⟩, rfl, rfl⟩

theorem Opens.identifier (m : Mode) (inside : Bool) :
    Opens σ halts (Parser.identifier m) (Parser.identifier (m.widen inside)) :=
  .peek fun _ _ => .lift fun id => .bind .advance fun _ => .pure id

theorem Follows.map {p q : Parser α} (h : Follows σ halts p q) (f : α → β) :
    Follows σ halts (f <$> p) (f <$> q) := by
  rw [Parser.map_eq_bind, Parser.map_eq_bind]
  exact h.bind fun a => .pure (f a)

theorem Opens.map {p q : Parser α} (h : Opens σ halts p q) (f : α → β) :
    Opens σ halts (f <$> p) (f <$> q) := by
  rw [Parser.map_eq_bind, Parser.map_eq_bind]
  exact h.bind fun a => .pure (f a)

end Collector.Script
