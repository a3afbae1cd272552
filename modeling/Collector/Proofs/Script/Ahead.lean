import Collector.Proofs.Script.Following

/-!
# Looks further ahead

What a word means may depend on the token behind it. If something is taken from the word on, the
two sides of a seam agree on that token, or the seam stands there and on the new side it is the
closer. A token that is known already decides what may follow.
-/

namespace Collector.Script

open Relation

variable {α β : Type} {σ : Seam} {halts : Cursor → Prop}

/-! ## The second token -/

/-- The token behind the next one. -/
def Cursor.second (c : Cursor) : Lexeme :=
  if c.next.token.isReal then lex .inside c.next.rest else c.next

theorem Cursor.second_of_real {c : Cursor} (h : c.next.token.isReal = true) :
    c.second = lex .inside c.next.rest := by
  simp [second, h]

theorem Parser.peekSecond_eq (c : Cursor) : Parser.peekSecond c = some (c.second, c) := by
  unfold Parser.peekSecond Cursor.second
  rw [Parser.peek_bind]
  cases c.next.token <;> rfl

theorem Cursor.second_of_word {c : Cursor} {id : String} {escaped : Bool}
    (h : c.next.token = .word id escaped) : c.second = lex .inside c.next.rest :=
  c.second_of_real (by rw [h]; rfl)

theorem Seam.Passed.meets {c : Cursor} (h : σ.Passed c) : σ.Meets c (σ.moved c) := ⟨_, h.next⟩

/-- If something is taken from a word on, the token behind it is the same on both sides, or the
seam stands there. -/
theorem Seam.Meets.second {c d c' : Cursor} (hd : σ.Meets c d) (hm : TransGen Move c c')
    (hok : σ.Ok halts c') {id : String} {escaped : Bool} (hw : c.next.token = .word id escaped) :
    d.second = σ.shiftLexeme c.second ∨
      d.second.token = σ.stop.token ∧ c' = .front .inside c.next.rest ∧
        σ.AtSeam c' ∧ halts c' := by
  obtain ⟨newline, hd⟩ := hd
  have hmoves := moves_behind_word hm (by rw [hw]; rfl)
  have hs : d.second = (σ.moved (.front .inside c.next.rest)).next := by
    rw [Cursor.second_of_word (show d.next.token = _ by rw [hd]; exact hw), hd]
    rfl
  rw [hs, Cursor.second_of_word hw]
  rcases Seam.ok_of_moves hmoves hok with hp | ⟨hat, hh⟩
  · exact .inl hp.next
  · rcases reflTransGen_iff_eq_or_transGen.mp hmoves with rfl | hmoves
    · exact .inr ⟨hat.token, rfl, hat, hh⟩
    · exact (hat.not_moves hmoves hok).elim

section PeekSecond

variable {k k' : Lexeme → Lexeme → Parser β}

/-- The next two tokens, in front of a parser that takes something. The second one matters only
behind a word. -/
theorem Leads.peekSecond
    (hw : ∀ next second,
      Leads σ never (k next second) (k' (σ.shiftLexeme next) (σ.shiftLexeme second)))
    (hn : ∀ next second second', (∀ id escaped, next.token ≠ .word id escaped) →
      Leads σ never (k next second) (k' (σ.shiftLexeme next) second')) :
    Leads σ never (Parser.peek >>= fun next => Parser.peekSecond >>= fun second => k next second)
      (Parser.peek >>= fun next => Parser.peekSecond >>= fun second => k' next second) := by
  have run (k : Lexeme → Lexeme → Parser β) (c : Cursor) :
      (Parser.peek >>= fun next => Parser.peekSecond >>= fun second => k next second) c =
        k c.next c.second c := by
    rw [Parser.peek_bind, Parser.bind_of_eq_some (Parser.peekSecond_eq c)]
  refine ⟨fun {c a c'} hb => ?_, fun {c a c'} hb hok => ?_⟩
  · rw [run] at hb
    exact (hw _ _).moves hb
  · rw [run] at hb ⊢
    have hm := (hw _ _).moves hb
    rw [(Seam.passed_of_moves hm hok).next]
    by_cases hword : ∃ id escaped, c.next.token = .word id escaped
    · obtain ⟨id, escaped, hc⟩ := hword
      rcases (Seam.passed_of_moves hm hok).meets.second hm hok hc with hs | ⟨-, -, -, hh⟩
      · rw [hs]
        exact (hw _ _).keeps hb hok
      · exact hh.elim
    · exact (hn _ _ _ fun id escaped hc => hword ⟨id, escaped, hc⟩).keeps hb hok

end PeekSecond

/-! ## Words that are taken by the token behind them -/

/-- A condition on a word and on the token behind it that does not hold before a closer. -/
structure Seam.Marks (σ : Seam) (test : Lexeme → Lexeme → Bool) : Prop where
  word {next second} (h : test next second = true) : ∃ id escaped, next.token = .word id escaped
  shift (next second) : test (σ.shiftLexeme next) (σ.shiftLexeme second) = test next second
  stop (next) {second} (h : second.token = σ.stop.token) :
    test next second = false

/-- Takes a word where a condition on it and on the token behind it holds. -/
def takeWhen (test : Lexeme → Lexeme → Bool) : Parser Bool := do
  let next ← Parser.peek
  let second ← Parser.peekSecond
  if test next second then
    Parser.advance
    return true
  else return false

variable {test : Lexeme → Lexeme → Bool}

theorem takeWhen_bind (c : Cursor) : takeWhen test c =
    (if test c.next c.second then Parser.advance >>= fun _ => pure true
      else pure false : Parser Bool) c := by
  unfold takeWhen
  rw [Parser.peek_bind, Parser.bind_of_eq_some (Parser.peekSecond_eq c)]

theorem takeWhen_of_false {c : Cursor} (h : test c.next c.second = false) :
    takeWhen test c = some (false, c) := by
  rw [takeWhen_bind, h]
  rfl

theorem takeWhen_of_true {c : Cursor} (h : test c.next c.second = true)
    (hr : c.next.token.isReal = true) :
    takeWhen test c = some (true, .front .inside c.next.rest) := by
  rw [takeWhen_bind, h, if_pos rfl,
    Parser.bind_of_eq_some (Parser.advance_of_real hr)]
  rfl

/-- A word that modifies what stands behind it may be taken before something else is. -/
theorem takeWhen_looks (test : Lexeme → Lexeme → Bool) (hm : σ.Marks test) : Looks σ halts (takeWhen test) (takeWhen test) := by
  have real {c : Cursor} (ht : test c.next c.second = true) : c.next.token.isReal = true := by
    obtain ⟨id, escaped, hw⟩ := hm.word ht
    rw [hw]
    rfl
  refine ⟨fun {c a c'} h => ?_, fun {c a c' c₁} h hmoves hok => ?_⟩
  · cases ht : test c.next c.second with
    | false =>
      obtain ⟨rfl, rfl⟩ := Prod.mk.inj (Option.some.inj ((takeWhen_of_false ht).symm.trans h))
      exact .refl
    | true =>
      obtain ⟨rfl, rfl⟩ :=
        Prod.mk.inj (Option.some.inj ((takeWhen_of_true ht (real ht)).symm.trans h))
      exact .single (.next (real ht))
  · cases ht : test c.next c.second with
    | false =>
      obtain ⟨rfl, rfl⟩ := Prod.mk.inj (Option.some.inj ((takeWhen_of_false ht).symm.trans h))
      have hn := (Seam.passed_of_moves hmoves hok).next
      refine takeWhen_of_false ?_
      rw [hn]
      by_cases hw : ∃ id escaped, c.next.token = .word id escaped
      · obtain ⟨id, escaped, hw⟩ := hw
        rcases (Seam.passed_of_moves hmoves hok).meets.second hmoves hok hw with hs | ⟨hs, -⟩
        · rw [hs, hm.shift]
          exact ht
        · exact hm.stop _ hs
      · refine Bool.eq_false_iff.mpr fun ht' => hw ?_
        have ht' : test (σ.shiftLexeme c.next) (σ.moved c).second = true := ht'
        obtain ⟨id, escaped, hw⟩ := hm.word ht'
        exact ⟨id, escaped, hw⟩
    | true =>
      obtain ⟨rfl, rfl⟩ :=
        Prod.mk.inj (Option.some.inj ((takeWhen_of_true ht (real ht)).symm.trans h))
      have hp₁ := Seam.passed_of_moves hmoves hok
      have hn := (hp₁.of_move (.next (real ht))).next
      have hs : (σ.moved c).second = σ.shiftLexeme c.second := by
        rw [Cursor.second_of_real (real ht), Cursor.second_of_real (by rw [hn]; exact real ht), hn]
        exact hp₁.next
      rw [takeWhen_of_true (by rw [hn, hs, hm.shift]; exact ht) (by rw [hn]; exact real ht), hn]
      rfl

/-! ## Tokens that are known -/

/-- A parser that is run before certain tokens only. -/
def onToken (test : Token → Bool) (p : Parser α) : Parser α := fun c =>
  if test c.next.token then p c else none

section OnToken

variable {test : Token → Bool} {p q : Parser α}

theorem onToken_of_true {c : Cursor} (h : test c.next.token = true) (p : Parser α) :
    onToken test p c = p c := by
  simp [onToken, h]

theorem onToken_eq_some {c c' : Cursor} {a : α} :
    onToken test p c = some (a, c') ↔ test c.next.token = true ∧ p c = some (a, c') := by
  unfold onToken
  split <;> simp_all

theorem Opens.onToken (h : Opens σ halts p q) :
    Opens σ halts (onToken test p) (onToken test q) := by
  refine ⟨fun hp => h.moves (onToken_eq_some.mp hp).2, fun {c d a c'} hm hp hok => ?_⟩
  obtain ⟨ht, hp⟩ := onToken_eq_some.mp hp
  obtain ⟨newline, hd⟩ := id hm
  exact onToken_eq_some.mpr ⟨by rw [hd]; exact ht, h.meets hm hp hok⟩

theorem Opens.onToken_congr {p' q' : Parser α} (h : Opens σ halts p q)
    (hp : ∀ c, test c.next.token = true → p' c = p c)
    (hq : ∀ c, test c.next.token = true → q' c = q c) :
    Opens σ halts (Script.onToken test p') (Script.onToken test q') := by
  have same {p p' : Parser α} (hp : ∀ c, test c.next.token = true → p' c = p c) :
      Script.onToken test p' = Script.onToken test p := by
    funext c
    unfold Script.onToken
    split
    next ht => exact hp c ht
    next => rfl
  rw [same hp, same hq]
  exact h.onToken

/-- A look at a token that stays known. -/
theorem Opens.peek_known {k k' : Lexeme → Parser β}
    (h : ∀ l newline, Opens σ halts (Script.onToken (· == l.token) (k l))
      (Script.onToken (· == l.token) (k' { σ.shiftLexeme l with newline := newline }))) :
    Opens σ halts (Parser.peek >>= k) (Parser.peek >>= k') := by
  have run (k : Lexeme → Parser β) (c : Cursor) : (Parser.peek >>= k) c =
      Script.onToken (· == c.next.token) (k c.next) c := by
    rw [onToken_of_true (by simp), Parser.peek_bind]
  refine ⟨fun {c a c'} hb => ?_, fun {c d a c'} hm hb hok => ?_⟩
  · rw [run] at hb
    exact (h c.next true).moves hb
  · obtain ⟨newline, hd⟩ := id hm
    rw [run] at hb ⊢
    have := (h c.next newline).meets hm hb hok
    rw [hd]
    exact this

/-- A token that is taken, or left to another parser. At the seam the closer is left to it too. -/
theorem Follows.peek_or {k k' : Lexeme → Parser β} {r r' : Parser β} (hr : Follows σ halts r r')
    (hstop : ∀ l, l.token = σ.stop.token → k' l = r')
    (h : ∀ l, Leads σ halts (Script.onToken (· == l.token) (k l))
      (Script.onToken (· == l.token) (k' (σ.shiftLexeme l))) ∨
        k l = r ∧ k' (σ.shiftLexeme l) = r') :
    Follows σ halts (Parser.peek >>= k) (Parser.peek >>= k') := by
  have known (c : Cursor) (p : Parser β) : Script.onToken (· == c.next.token) p c = p c :=
    onToken_of_true (by simp) p
  refine ⟨fun {c a c'} hb => ?_, fun {c a c'} hb hok => ?_⟩
  · rw [Parser.peek_bind] at hb
    rcases h c.next with hl | ⟨hk, -⟩
    · rw [← known c (k c.next)] at hb
      exact (hl.moves hb).to_reflTransGen
    · rw [hk] at hb
      exact hr.moves hb
  · rw [Parser.peek_bind] at hb ⊢
    rcases h c.next with hl | ⟨hk, hk'⟩
    · rw [← known c (k c.next)] at hb
      have hn := (Seam.passed_of_moves (hl.moves hb) hok).next
      rw [hn]
      exact (onToken_eq_some.mp (hl.keeps hb hok)).2
    · rw [hk] at hb
      rcases Seam.ok_of_moves (hr.moves hb) hok with hp | ⟨hat, -⟩
      · rw [hp.next, hk']
        exact hr.keeps hb hok
      · rw [hstop _ hat.token]
        exact hr.keeps hb hok

theorem Leads.onToken (h : Leads σ halts p q) :
    Leads σ halts (Script.onToken test p) (Script.onToken test q) := by
  refine ⟨fun hp => h.moves (onToken_eq_some.mp hp).2, fun {c a c'} hp hok => ?_⟩
  obtain ⟨ht, hp⟩ := onToken_eq_some.mp hp
  have hn := (Seam.passed_of_moves (h.moves hp) hok).next
  exact onToken_eq_some.mpr ⟨by rw [hn]; exact ht, h.keeps hp hok⟩

end OnToken

end Collector.Script
