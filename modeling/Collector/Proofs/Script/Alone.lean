import Collector.Proofs.Script.Rereading

/-!
# Texts that stand alone

What was read somewhere in a script is also read where its text stands alone, with nothing behind
it. The seam is crossed twice: the text is put in front of a closer first, and then the closer is
taken away (`readsAlone`). So a function expression or an arrow function that is cut out of a script
is the expression that its text is (`parseExpression?_of_assignment`).

A property may begin with words that are only looked at, so that its production is no `Opens`. It is
`Settled` all the same: what stands before its first token does not matter.
-/

namespace Collector.Script

open Relation

variable {α β : Type} {c c' : Cursor} {a : α}

/-! ## What stands before a token -/

/-- A parser that reads the same where only what stands before the next token is different. -/
def Settled (p : Parser α) : Prop :=
  ∀ (c d c' : Cursor) (a : α) (newline : Bool), d.next = { c.next with newline := newline } →
    p c = some (a, c') → p d = some (a, c')

/-- So does a parser that may also stay where it is. -/
def Stays (p : Parser α) : Prop :=
  ∀ (c d c' : Cursor) (a : α) (newline : Bool), d.next = { c.next with newline := newline } →
    p c = some (a, c') → p d = some (a, c') ∨ c' = c ∧ p d = some (a, d)

namespace Stays

theorem pure (a : α) : Stays (pure a : Parser α) := by
  intro c d c' b newline _ hp
  obtain ⟨rfl, rfl⟩ := Parser.pure_eq_some.mp hp
  exact .inr ⟨rfl, rfl⟩

theorem bind {p : Parser α} {k : α → Parser β} (h : Stays p) (hk : ∀ a, Stays (k a)) :
    Stays (p >>= k) := by
  intro c d c' b newline hd hb
  obtain ⟨a, c₁, hp, hr⟩ := Parser.bind_eq_some.mp hb
  rcases h _ _ _ _ _ hd hp with hd' | ⟨rfl, hd'⟩
  · exact .inl ((Parser.bind_of_eq_some hd').trans hr)
  · rw [Parser.bind_of_eq_some hd']
    exact hk a _ _ _ _ _ hd hr

theorem ite {condition : Prop} [Decidable condition] {p q : Parser α} (hp : Stays p)
    (hq : Stays q) : Stays (if condition then p else q) := by
  split
  · exact hp
  · exact hq

theorem accept (p : Punctuator) : Stays (Parser.accept p) := by
  intro c d c' a newline hd hp
  rw [(Parser.accept_accepts p).run] at hp ⊢
  rw [hd]
  split at hp
  · exact .inl (by rw [if_pos ‹_›]; exact hp)
  · obtain ⟨rfl, rfl⟩ := Prod.mk.inj (Option.some.inj hp)
    exact .inr ⟨rfl, by rw [if_neg ‹_›]⟩

theorem takeWhen (test : Lexeme → Lexeme → Bool)
    (hn : ∀ next second newline, test { next with newline := newline } second = test next second)
    (hr : ∀ {next second}, test next second = true → next.token.isReal = true) :
    Stays (takeWhen test) := by
  intro c d c' a newline hd hp
  have htest : test d.next d.second = test c.next c.second := by
    by_cases hreal : c.next.token.isReal = true
    · rw [Cursor.second_of_real hreal, Cursor.second_of_real (by rw [hd]; exact hreal), hd, hn]
    · rw [Bool.eq_false_iff.mpr fun h => hreal (hr h)]
      refine Bool.eq_false_iff.mpr fun h => hreal ?_
      have := hr h
      rwa [hd] at this
  cases ht : test c.next c.second with
  | true =>
    have hreal := hr ht
    rw [takeWhen_of_true ht hreal] at hp
    rw [takeWhen_of_true (htest.trans ht) (by rw [hd]; exact hreal), hd]
    exact .inl hp
  | false =>
    obtain ⟨rfl, rfl⟩ := Prod.mk.inj (Option.some.inj ((takeWhen_of_false ht).symm.trans hp))
    exact .inr ⟨rfl, takeWhen_of_false (htest.trans ht)⟩

theorem acceptModifier (word : String) : Stays (Grammar.acceptModifier word) := by
  refine takeWhen (fun next second => next.isWord word && Grammar.beginsKey second)
    (fun _ _ _ => rfl) fun h => ?_
  obtain ⟨_, _, hw⟩ := Lexeme.word_of_isWord (Bool.and_eq_true_iff.mp h).1
  rw [hw]
  rfl

theorem modifiers : Stays Grammar.modifiers := by
  refine (acceptModifier "get").bind fun _ => .ite (pure _) ?_
  refine (acceptModifier "set").bind fun _ => .ite (pure _) ?_
  refine Stays.bind (takeWhen _ (fun _ _ _ => rfl) fun h => ?_) fun _ =>
    (accept .star).bind fun _ => pure _
  rw [Bool.and_assoc] at h
  obtain ⟨_, _, hw⟩ := Lexeme.word_of_isWord (Bool.and_eq_true_iff.mp h).1
  rw [hw]
  rfl

end Stays

namespace Grammar

variable {g : Grammar} {m : Mode}

theorem property_of_ellipsis (h : c.next.token = .punctuator .ellipsis) {value : Expr}
    (hv : g.assignment m.withIn (.front .inside c.next.rest) = some (value, c')) :
    g.property m c = some (.spread value, c') := by
  unfold property
  rw [(Parser.accept_accepts .ellipsis).bind_true h, if_pos rfl, Parser.bind_of_eq_some hv]
  rfl

theorem property_of_named {mods : Modifiers} {c₁ c₂ : Cursor} {key : Key} {p : Property}
    (h : c.next.token ≠ .punctuator .ellipsis) (hm : modifiers c = some (mods, c₁))
    (hk : g.key m c₁ = some (key, c₂))
    (hr : g.propertyRest m c.next mods key c₂ = some (p, c')) :
    g.property m c = some (p, c') := by
  unfold property
  rw [(Parser.accept_accepts .ellipsis).bind_false h, if_neg Bool.false_ne_true, Parser.peek_bind,
    Parser.bind_of_eq_some hm, Parser.bind_of_eq_some hk]
  exact hr

theorem key_settled (g : Grammar) (m : Mode) : Settled (g.key m) := by
  intro c d c' a newline hd hp
  unfold key at hp ⊢
  rw [Parser.peek_bind] at hp ⊢
  have hadvance {k : Unit → Parser Key} : (Parser.advance >>= k) d = (Parser.advance >>= k) c := by
    have hrun : Parser.advance d = Parser.advance c := by
      unfold Parser.advance
      rw [Parser.peek_bind, Parser.peek_bind, hd]
      cases c.next.token <;> rfl
    show (Parser.advance d).bind _ = (Parser.advance c).bind _
    rw [hrun]
  rw [hd]
  cases ht : c.next.token with
  | punctuator p =>
    rw [ht] at hp
    cases p <;> first | exact hadvance.trans hp | cases hp
  | _ =>
    rw [ht] at hp
    first | exact hadvance.trans hp | cases hp

theorem property_settled (g : Grammar) (m : Mode) : Settled (g.property m) := by
  intro c d c' p newline hd hp
  have htoken : d.next.token = c.next.token := by rw [hd]
  rcases property_cases hp with ⟨value, he, rfl, hv⟩ | ⟨he, mods, c₁, key, c₂, hm, hk, hr⟩
  · exact property_of_ellipsis (htoken.trans he) (by rw [hd]; exact hv)
  · rw [← htoken] at he
    rcases Stays.modifiers _ _ _ _ _ hd hm with hm' | ⟨rfl, hm'⟩
    · exact property_of_named he hm' hk (by rw [hd]; exact hr)
    · exact property_of_named he hm' (key_settled g m _ _ _ _ _ hd hk) (by rw [hd]; exact hr)

end Grammar

theorem Leads.opens {σ : Seam} {halts : Cursor → Prop} {p q : Parser α} (h : Leads σ halts p q)
    (hq : Settled q) : Opens σ halts p q := by
  refine ⟨h.moves, fun {c d a c'} hm hp hok => ?_⟩
  obtain ⟨newline, hd⟩ := hm
  have hnext : (σ.moved c).next = σ.shiftLexeme c.next :=
    (Seam.passed_of_moves (h.moves hp) hok).next
  exact hq (σ.moved c) d _ a newline (by rw [hd, hnext]) (h.keeps hp hok)

/-- A property is read alike where the next token is the same. -/
theorem Agrees.property_opens {σ : Seam} {halts : Cursor → Prop} {g g' : Grammar}
    (h : Agrees σ g g') (m : Mode) (inside : Bool) :
    Opens σ halts (g.property m) (g'.property (m.widen inside)) :=
  (h.property m inside).opens (Grammar.property_settled g' _)

/-! ## At the end of a text -/

/-- A parser reads a text as a value where the text stands alone. -/
def ReadsAlone (p : Grammar → Parser α) (text : String) (a : α) : Prop :=
  ∀ᶠ g in large, p g (.front .expression text.toList) = some (a, .front .inside [])

/-- The front of a text counts as the front of a line, where an arrow of hyphens is a comment. -/
theorem Cursor.next_alone (h : c.next.token.isReal = true)
    (hn : ¬ ['-', '-', '>'] <+: c.next.start) :
    (Cursor.front .expression c.next.start).next = { c.next with newline := true } := by
  have hb : Begins true c.next.start := { c.begins h with noClosing := fun hc => hn hc.2 }
  have hskip : skipBefore .expression c.next.start = some (true, c.next.start) :=
    skipGap_of_begins hb
  show lex .expression c.next.start = _
  rw [lex, hskip]
  dsimp only
  rw [c.tokenAt_start h]

/-- The seam where a closing brace is taken away. -/
def Seam.opened : Seam := ⟨[Closer.brace.char], [], .finish, .inr rfl, nofun⟩

namespace Seam

theorem opened_shift (text : List Char) : opened.shift (text ++ [Closer.brace.char]) = text :=
  (opened.shift_append text).trans (List.append_nil text)

theorem opened_moved : opened.moved (.front .inside [Closer.brace.char]) = .front .inside [] :=
  congrArg (Cursor.front .inside) opened.shift_old

theorem opened_ok :
    opened.Ok (fun _ => True) (.front .inside [Closer.brace.char]) := by
  refine .inr ⟨⟨List.suffix_rfl, Cursor.start_le_left _, ?_, ?_⟩, trivial⟩
  · rw [opened_moved]
    rfl
  · rw [opened_moved]
    rfl

end Seam

/-- What does not begin with a decrement may stand at the front of a line. -/
theorem not_closing (h : c.next.token.isReal = true) (hd : c.next.token ≠ .punctuator .decrement)
    {text behind : List Char} (ht : c.next.start = text ++ behind) :
    ¬ ['-', '-', '>'] <+: text := by
  rintro ⟨rest, rfl⟩
  have htoken := c.tokenAt_start h
  rw [ht] at htoken
  exact hd (congrArg Prod.fst htoken).symm

/-- What was read is read where its text stands alone. -/
theorem readsAlone {p : Grammar → Parser α} {fuel level : Nat}
    (hp : ∀ {σ : Seam} {g g' : Grammar}, Agrees σ g g' → Opens σ (fun _ => True) (p g) (p g'))
    (h : p (grammar fuel level) c = some (a, c')) (hd : c.next.token ≠ .punctuator .decrement) :
    ReadsAlone p (slice c.next.start c'.left) a := by
  have hm := (hp (agrees_same (Nat.le_refl fuel) (Nat.le_refl level))).moves h
  obtain ⟨hstart, hread⟩ := readsText hp h
  have hclosing := not_closing (TransGen.isReal hm) hd hstart
  generalize slice c.next.start c'.left = text at hread hclosing ⊢
  obtain ⟨hfront, hclosed⟩ := hread .brace []
  obtain ⟨fuel', level', hg⟩ := exists_grammar hclosed
  generalize Cursor.front .inside (text.toList ++ [Closer.brace.char]) = d at hfront hg
  have hopens {g g' : Grammar} (hag : Agrees .opened g g') :
      Opens .opened (fun _ => True) (p g) (p g') := hp hag
  have hmoves := (hopens (agrees_grammar (Nat.le_refl fuel') (Nat.le_refl level'))).moves hg
  have hnext := (Seam.passed_of_moves hmoves Seam.opened_ok).next
  have hmoved : (Seam.opened.moved d).next.start = text.toList := by
    rw [hnext]
    exact (congrArg Seam.opened.shift hfront).trans (Seam.opened_shift _)
  have halone := Cursor.next_alone (c := Seam.opened.moved d)
    (by rw [hnext]; exact TransGen.isReal hmoves) (by rw [hmoved]; exact hclosing)
  rw [hmoved, hnext] at halone
  refine eventually_large.mpr ⟨fuel', level', fun _ _ hf hl => ?_⟩
  rw [(hopens (agrees_grammar hf hl)).meets ⟨true, halone⟩ hg Seam.opened_ok, Seam.opened_moved]

/-- What was read as an expression without commas is the expression that its text is. -/
theorem parseExpression?_of_assignment {fuel level : Nat} {e : Expr}
    (h : (grammar fuel level).assignment Mode.script c = some (e, c'))
    (hd : c.next.token ≠ .punctuator .decrement) (hpending : e.tree.isPending = false) :
    parseExpression? (slice c.next.start c'.left) = some e := by
  have opens {σ : Seam} {g g' : Grammar} (hag : Agrees σ g g') :
      Opens σ (fun _ => True) (g.assignment Mode.script) (g'.assignment Mode.script) :=
    hag.assignment Mode.script false
  refine parseExpression?_of_eventually (c := .front .inside []) ?_ rfl hpending
  filter_upwards [readsAlone (p := fun g => g.assignment Mode.script) opens h hd, eventually_fuel 1]
    with g hg hfuel
  refine (Parser.bind_of_eq_some hg).trans (Grammar.commaList_ended hfuel ?_)
  show Token.finish ≠ _
  simp

end Collector.Script
