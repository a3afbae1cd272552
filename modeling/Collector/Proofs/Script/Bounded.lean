import Collector.Proofs.Script.Statements
import Collector.Proofs.Script.Reading

/-!
# Parsers that are alike on short texts

`Parser.Alike n must p q` says that `p` and `q` answer the same where fewer than `n` characters are
left, and that they never go back. An answer that satisfies `must` is given behind a token only, so
that what comes after it has fewer characters left.

Two grammars whose productions are alike up to `n` characters have productions that are alike up to
`n + 1` of them, for a production is called again behind a token only: `Alike.behind` and
`Alike.first` go up by one character. `Alike.iterate` bounds the rounds of a repetition by the
characters that are left.
-/

namespace Collector.Script

open Relation

variable {α β ρ : Type} {n fuel fuel' : Nat}

/-! ## What is left behind a token -/

theorem Move.length_lt {c c' : Cursor} (h : Move c c') : c'.left.length < c.left.length :=
  Nat.lt_of_le_of_lt h.suffix.length_le
    (Nat.lt_of_lt_of_le (Cursor.rest_lt_start h.real) c.start_le_left)

theorem length_le_of_moves {c c' : Cursor} (h : ReflTransGen Move c c') :
    c'.left.length ≤ c.left.length :=
  (suffix_of_moves h).length_le

theorem length_lt_of_moves {c c' : Cursor} (h : TransGen Move c c') :
    c'.left.length < c.left.length := by
  obtain ⟨c₁, hm, hrest⟩ := TransGen.head'_iff.mp h
  exact Nat.lt_of_le_of_lt (length_le_of_moves hrest) hm.length_lt

/-! ## Answers that need a token -/

/-- No answer needs a token. -/
abbrev freely : α → Prop := fun _ => False

/-- Every answer needs a token. -/
abbrev taking : α → Prop := fun _ => True

/-- A new round needs a token, the result of a repetition does not. -/
abbrev onward : ρ ⊕ α → Prop := fun r => r.isLeft = true

namespace Parser

/-- Two parsers that answer the same where fewer than `n` characters are left, and behind a token
where `must` holds. -/
def Alike (n : Nat) (must : α → Prop) (p q : Parser α) : Prop :=
  ∀ c : Cursor, c.left.length < n → p c = q c ∧ ∀ a c', p c = some (a, c') →
    c'.left.length ≤ c.left.length ∧ (must a → c'.left.length < c.left.length)

namespace Alike

variable {must must' : α → Prop} {need : β → Prop} {p q p' q' : Parser α}
  {k k' : α → Parser β}

theorem zero : Alike 0 must p q := fun _ hc => absurd hc (Nat.not_lt_zero _)

theorem eq_of_lt (h : Alike n must p q) {c : Cursor} (hc : c.left.length < n) : p c = q c :=
  (h c hc).1

theorem mono (h : Alike (n + 1) must p q) : Alike n must p q :=
  fun c hc => h c (Nat.lt_succ_of_lt hc)

theorem freely (h : Alike n must p q) : Alike n freely p q := fun c hc =>
  ⟨(h c hc).1, fun a c' ha => ⟨((h c hc).2 a c' ha).1, False.elim⟩⟩

/-- What takes a token takes one whatever it answers. -/
theorem of_taking (h : Alike n taking p q) : Alike n must p q := fun c hc =>
  ⟨(h c hc).1, fun a c' ha =>
    ⟨((h c hc).2 a c' ha).1, fun _ => ((h c hc).2 a c' ha).2 trivial⟩⟩

/-! ## Parsers that no grammar changes -/

theorem of_follows (h : Follows .same never p q) : Alike n Script.freely p p := fun _ _ =>
  ⟨rfl, fun _ _ ha => ⟨length_le_of_moves (h.moves ha), False.elim⟩⟩

theorem of_looks (h : Looks .same never p q) : Alike n Script.freely p p := fun _ _ =>
  ⟨rfl, fun _ _ ha => ⟨length_le_of_moves (h.moves ha), False.elim⟩⟩

theorem of_leads (h : Leads .same never p q) : Alike n taking p p := fun _ _ =>
  ⟨rfl, fun _ _ ha =>
    have hlt := length_lt_of_moves (h.moves ha)
    ⟨Nat.le_of_lt hlt, fun _ => hlt⟩⟩

theorem of_opens (h : Opens .same never p q) : Alike n taking p p := of_leads h.leads

theorem failure : Alike n must failure failure := fun _ _ => ⟨rfl, fun _ _ h => nomatch h⟩

theorem of_not {a : α} (ha : ¬ must a) : Alike n must (pure a) (pure a) := by
  refine fun c _ => ⟨rfl, fun b c' hb => ?_⟩
  obtain ⟨rfl, rfl⟩ := pure_eq_some.mp hb
  exact ⟨Nat.le_refl _, fun hm => absurd hm ha⟩

theorem pure (a : α) : Alike n Script.freely (pure a) (pure a) := of_not id

/-- The result of a repetition. -/
theorem result (a : α) : Alike n (onward (ρ := ρ)) (Pure.pure (.inr a)) (Pure.pure (.inr a)) :=
  of_not (by simp)

theorem textFrom (start : List Char) :
    Alike n Script.freely (Parser.textFrom start) (Parser.textFrom start) :=
  of_follows (.textFrom start)

/-! ## One parser after another -/

theorem bind (h : Alike n must p q) (hk : ∀ a, Alike n need (k a) (k' a)) :
    Alike n need (p >>= k) (q >>= k') := by
  intro c hc
  obtain ⟨hpq, hp⟩ := h c hc
  have next {a : α} {c₁ : Cursor} (ha : p c = some (a, c₁)) := hk a c₁
    (Nat.lt_of_le_of_lt (hp a c₁ ha).1 hc)
  constructor
  · show (p c).bind _ = (q c).bind _
    rw [← hpq]
    exact Option.bind_congr fun r hr => (next hr).1
  · intro b c' hb
    obtain ⟨a, c₁, ha, hb⟩ := bind_eq_some.mp hb
    obtain ⟨hle, hlt⟩ := (next ha).2 b c' hb
    have := (hp a c₁ ha).1
    exact ⟨Nat.le_trans hle this, fun hm => Nat.lt_of_lt_of_le (hlt hm) this⟩

/-- Behind a token fewer characters are left. -/
theorem behind (h : Alike (n + 1) taking p q) (hk : ∀ a, Alike n Script.freely (k a) (k' a)) :
    Alike (n + 1) taking (p >>= k) (q >>= k') := by
  intro c hc
  obtain ⟨hpq, hp⟩ := h c hc
  have next {a : α} {c₁ : Cursor} (ha : p c = some (a, c₁)) := hk a c₁
    (Nat.lt_of_lt_of_le ((hp a c₁ ha).2 trivial) (Nat.le_of_lt_succ hc))
  constructor
  · show (p c).bind _ = (q c).bind _
    rw [← hpq]
    exact Option.bind_congr fun r hr => (next hr).1
  · intro b c' hb
    obtain ⟨a, c₁, ha, hb⟩ := bind_eq_some.mp hb
    have hlt := Nat.lt_of_le_of_lt ((next ha).2 b c' hb).1 ((hp a c₁ ha).2 trivial)
    exact ⟨Nat.le_of_lt hlt, fun _ => hlt⟩

/-- What stands behind a token needs no other one. -/
theorem lead (h : Alike n taking p q) (hk : ∀ a, Alike n Script.freely (k a) (k' a)) :
    Alike n taking (p >>= k) (q >>= k') := by
  cases n with
  | zero => exact zero
  | succ n => exact h.behind fun a => (hk a).mono

/-- The second parser needs a token only where the first one has taken none. -/
theorem bind_unless (h : Alike n must p q)
    (hk : ∀ a, Alike n (fun b => need b ∧ ¬ must a) (k a) (k' a)) :
    Alike n need (p >>= k) (q >>= k') := by
  refine fun c hc => ⟨(h.freely.bind fun a => (hk a).freely).eq_of_lt hc, fun b c' hb => ?_⟩
  obtain ⟨a, c₁, ha, hb⟩ := bind_eq_some.mp hb
  obtain ⟨hle, hlt⟩ := (h c hc).2 a c₁ ha
  obtain ⟨hle', hlt'⟩ := (hk a c₁ (Nat.lt_of_le_of_lt hle hc)).2 b c' hb
  refine ⟨Nat.le_trans hle' hle, fun hneed => ?_⟩
  by_cases hm : must a
  · exact Nat.lt_of_le_of_lt hle' (hlt hm)
  · exact Nat.lt_of_lt_of_le (hlt' ⟨hneed, hm⟩) hle

theorem map (h : Alike n must p q) (f : α → β) : Alike n Script.freely (f <$> p) (f <$> q) := by
  rw [map_eq_bind, map_eq_bind]
  exact h.bind fun a => pure (f a)

theorem map_taking (h : Alike n taking p q) (f : α → β) :
    Alike n taking (f <$> p) (f <$> q) := by
  rw [map_eq_bind, map_eq_bind]
  exact h.lead fun a => pure (f a)

/-! ## Conditions and options -/

theorem ite {condition : Prop} [Decidable condition] (ht : Alike n must p q)
    (hf : Alike n must p' q') :
    Alike n must (if condition then p else p') (if condition then q else q') := by
  split
  · exact ht
  · exact hf

theorem lift {o : Option α} (hk : ∀ a, Alike n need (k a) (k' a)) :
    Alike n need (lift o >>= k) (lift o >>= k') := by
  cases o
  · exact failure
  · exact hk _

theorem check {condition : Bool} {k k' : Unit → Parser β} (hk : Alike n need (k ()) (k' ())) :
    Alike n need (check condition >>= k) (check condition >>= k') := by
  cases condition
  · exact failure
  · exact hk

/-! ## Looks at the next tokens -/

theorem peek {k k' : Lexeme → Parser β} (hk : ∀ l, Alike n need (k l) (k' l)) :
    Alike n need (peek >>= k) (peek >>= k') :=
  fun c hc => hk c.next c hc

theorem left {k k' : List Char → Parser β} (hk : ∀ text, Alike n need (k text) (k' text)) :
    Alike n need (left >>= k) (left >>= k') :=
  fun c hc => hk c.left c hc

/-- A parser that looks only. -/
theorem look {p : Parser α} {answer : Cursor → α} (hp : ∀ c, p c = some (answer c, c))
    (hk : ∀ a, Alike n need (k a) (k' a)) : Alike n need (p >>= k) (p >>= k') := by
  intro c hc
  rw [bind_of_eq_some (hp c), bind_of_eq_some (hp c)]
  exact hk _ c hc

theorem peekSecond {k k' : Lexeme → Parser β} (hk : ∀ l, Alike n need (k l) (k' l)) :
    Alike n need (peekSecond >>= k) (peekSecond >>= k') :=
  look peekSecond_eq hk

theorem sees {punctuator : Punctuator} {k k' : Bool → Parser β}
    (hk : ∀ b, Alike n need (k b) (k' b)) :
    Alike n need (sees punctuator >>= k) (sees punctuator >>= k') :=
  fun c hc => hk (c.next.is punctuator) c hc

theorem seesWord {word : String} {k k' : Bool → Parser β} (hk : ∀ b, Alike n need (k b) (k' b)) :
    Alike n need (seesWord word >>= k) (seesWord word >>= k') :=
  fun c hc => hk (c.next.isWord word) c hc

/-! ## Taking tokens -/

theorem advance : Alike n taking advance advance := of_opens .advance

theorem expect {punctuator : Punctuator} : Alike n taking (expect punctuator) (expect punctuator) :=
  of_opens .expect

theorem expectWord {word : String} : Alike n taking (expectWord word) (expectWord word) :=
  of_opens .expectWord

theorem identifier (m : Mode) : Alike n taking (identifier m) (identifier m) :=
  of_opens (.identifier m false)

end Alike

end Parser

/-- A token that may stand first. -/
theorem Accepts.alike {token : Token} {accepts : Parser Bool} {need : β → Prop}
    {k k' : Bool → Parser β} (h : Accepts token accepts)
    (ht : Parser.Alike n freely (k true) (k' true))
    (hf : Parser.Alike (n + 1) need (k false) (k' false)) :
    Parser.Alike (n + 1) need (accepts >>= k) (accepts >>= k') := by
  intro c hc
  by_cases htoken : c.next.token = token
  · rw [h.bind_true htoken, h.bind_true htoken]
    have hlt := (h.move htoken).length_lt
    obtain ⟨heq, hle⟩ := ht _ (Nat.lt_of_lt_of_le hlt (Nat.le_of_lt_succ hc))
    refine ⟨heq, fun b c' hb => ?_⟩
    have := Nat.lt_of_le_of_lt (hle b c' hb).1 hlt
    exact ⟨Nat.le_of_lt this, fun _ => this⟩
  · rw [h.bind_false htoken, h.bind_false htoken]
    exact hf c hc

namespace Parser.Alike

section Accept

variable {need : β → Prop} {k k' : Bool → Parser β} {punctuator : Punctuator} {word : String}

theorem first (ht : Alike n Script.freely (k true) (k' true))
    (hf : Alike (n + 1) need (k false) (k' false)) :
    Alike (n + 1) need (accept punctuator >>= k) (accept punctuator >>= k') :=
  (accept_accepts punctuator).alike ht hf

theorem firstWord (ht : Alike n Script.freely (k true) (k' true))
    (hf : Alike (n + 1) need (k false) (k' false)) :
    Alike (n + 1) need (acceptWord word >>= k) (acceptWord word >>= k') :=
  (acceptWord_accepts word).alike ht hf

theorem accept (ht : Alike n Script.freely (k true) (k' true)) (hf : Alike n need (k false) (k' false)) :
    Alike n need (accept punctuator >>= k) (accept punctuator >>= k') := by
  cases n with
  | zero => exact zero
  | succ n => exact first ht.mono hf

theorem acceptWord (ht : Alike n Script.freely (k true) (k' true)) (hf : Alike n need (k false) (k' false)) :
    Alike n need (acceptWord word >>= k) (acceptWord word >>= k') := by
  cases n with
  | zero => exact zero
  | succ n => exact firstWord ht.mono hf

end Accept

/-! ## Repetitions -/

/-- A round that is not the last one takes a token, so that there are no more rounds than characters
and one. -/
theorem iterate {step step' : ρ → Parser (ρ ⊕ α)} (h : ∀ s, Alike n onward (step s) (step' s))
    (hf : n ≤ fuel) (hf' : n ≤ fuel') (s : ρ) :
    Alike n Script.freely (iterate fuel step s) (iterate fuel' step' s) := by
  induction n generalizing fuel fuel' s with
  | zero => exact zero
  | succ n ih =>
    obtain ⟨fuel, rfl⟩ := Nat.exists_eq_add_of_le' (Nat.le_trans (Nat.le_add_left 1 n) hf)
    obtain ⟨fuel', rfl⟩ := Nat.exists_eq_add_of_le' (Nat.le_trans (Nat.le_add_left 1 n) hf')
    have rounds := ih (fun s => (h s).mono) (Nat.le_of_succ_le_succ hf)
      (Nat.le_of_succ_le_succ hf')
    intro c hc
    obtain ⟨heq, hle⟩ := h s c hc
    rw [iterate_succ, iterate_succ]
    cases hs : step s c with
    | none =>
      rw [bind_of_none hs, bind_of_none (heq ▸ hs)]
      exact ⟨rfl, fun _ _ h => nomatch h⟩
    | some answer =>
      obtain ⟨r, c₁⟩ := answer
      rw [bind_of_eq_some hs, bind_of_eq_some (heq ▸ hs)]
      obtain ⟨hc₁, hlt⟩ := hle r c₁ hs
      cases r with
      | inl s' =>
        have hlt := hlt rfl
        obtain ⟨heq, hle⟩ := rounds s' c₁ (Nat.lt_of_lt_of_le hlt (Nat.le_of_lt_succ hc))
        exact ⟨heq, fun a c' ha =>
          ⟨Nat.le_trans (hle a c' ha).1 (Nat.le_of_lt hlt), False.elim⟩⟩
      | inr a =>
        refine ⟨rfl, fun b c' hb => ?_⟩
        obtain ⟨rfl, rfl⟩ := pure_eq_some.mp hb
        exact ⟨hc₁, False.elim⟩

end Parser.Alike

end Collector.Script
