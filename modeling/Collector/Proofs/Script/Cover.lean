import Mathlib.Data.List.Forall2
import Collector.Proofs.Script.Portable
import Collector.Proofs.Script.Wholes

/-!
# Parameters that are read as expressions first

What stands in parentheses before an arrow is read as expressions, and they are turned into
patterns once the arrow is seen. Read as a parameter list in the first place, the text gives the
same patterns: `parameters_of_parenthesized`.

The proof goes along the levels of the grammar. `Covers` is what one level owes the next: an
expression that stands for a pattern of new names is read as that pattern by the productions for
patterns. `Listed` compares lists item by item.
-/

namespace Collector.Script

open Relation

variable {α β : Type}

/-! ## Lists, item by item -/

/-- The items of a list up to its closing bracket, with the number of rounds that reading them
takes. The flags tell whether a comma stands before the list and before its bracket. -/
inductive Listed (stop : Punctuator) (item : Parser α) :
    Nat → Bool → Cursor → List α → Bool → Cursor → Prop
  | done {comma : Bool} {c : Cursor} (h : c.next.token = .punctuator stop) :
      Listed stop item 1 comma c [] comma (.front .inside c.next.rest)
  | more {n : Nat} {before comma : Bool} {c c₁ c' : Cursor} {a : α} {rest : List α}
      (h : c.next.token ≠ .punctuator stop) (ha : item c = some (a, c₁))
      (hc : c₁.next.token = .punctuator .comma)
      (hr : Listed stop item n true (.front .inside c₁.next.rest) rest comma c') :
      Listed stop item (n + 1) before c (a :: rest) comma c'
  | last {before : Bool} {c c₁ : Cursor} {a : α} (h : c.next.token ≠ .punctuator stop)
      (ha : item c = some (a, c₁)) (hc : c₁.next.token ≠ .punctuator .comma)
      (hs : c₁.next.token = .punctuator stop) :
      Listed stop item 1 before c [a] false (.front .inside c₁.next.rest)

theorem Parser.expect_eq_some {p : Punctuator} {c c' : Cursor} {u : Unit} :
    Parser.expect p c = some (u, c') ↔
      c.next.token = .punctuator p ∧ c' = .front .inside c.next.rest := by
  unfold Parser.expect
  by_cases h : c.next.token = .punctuator p
  · rw [(Parser.accept_accepts p).bind_true h, Parser.check_eq_some]
    simp [h, eq_comm]
  · rw [(Parser.accept_accepts p).bind_false h, Parser.check_eq_some]
    simp [h]

/-- Whether an expression may stand alone: it is no gap and does not spread. -/
def Expr.isBare : Expr → Bool
  | .hole | .spread _ => false
  | _ => true

namespace Grammar

section Steps

variable {stop : Punctuator} {item : Parser α} {c c₁ : Cursor} {a : α}

theorem listStep_done (h : c.next.token = .punctuator stop) (state : List α × Bool) :
    listStep stop item state c =
      some (.inr (state.1.reverse, state.2), .front .inside c.next.rest) :=
  (Parser.accept_accepts stop).bind_true h

theorem listStep_item (h : c.next.token ≠ .punctuator stop) (ha : item c = some (a, c₁))
    (state : List α × Bool) : listStep stop item state c =
      (Parser.accept .comma >>= fun comma =>
        if comma then pure (.inl (a :: state.1, true))
        else Parser.expect stop >>= fun _ => pure (.inr ((a :: state.1).reverse, false))) c₁ := by
  unfold listStep
  rw [(Parser.accept_accepts stop).bind_false h]
  exact Parser.bind_of_eq_some ha

theorem listStep_more (h : c.next.token ≠ .punctuator stop) (ha : item c = some (a, c₁))
    (hc : c₁.next.token = .punctuator .comma) (state : List α × Bool) :
    listStep stop item state c = some (.inl (a :: state.1, true), .front .inside c₁.next.rest) := by
  rw [listStep_item h ha, (Parser.accept_accepts .comma).bind_true hc]
  rfl

theorem listStep_last (h : c.next.token ≠ .punctuator stop) (ha : item c = some (a, c₁))
    (hc : c₁.next.token ≠ .punctuator .comma) (hs : c₁.next.token = .punctuator stop)
    (state : List α × Bool) : listStep stop item state c =
      some (.inr ((a :: state.1).reverse, false), .front .inside c₁.next.rest) := by
  rw [listStep_item h ha, (Parser.accept_accepts .comma).bind_false hc]
  exact Parser.bind_of_eq_some (Parser.expect_of_token hs)

end Steps

theorem listed_of_iterate {stop : Punctuator} {item : Parser α} {n : Nat}
    {state : List α × Bool} {c c' : Cursor} {items : List α} {comma : Bool}
    (h : Parser.iterate n (listStep stop item) state c = some ((items, comma), c')) :
    ∃ k rest, k ≤ n ∧ items = state.1.reverse ++ rest ∧
      Listed stop item k state.2 c rest comma c' := by
  induction n generalizing state c with
  | zero => cases h
  | succ n ih =>
    rw [Parser.iterate_succ] at h
    obtain ⟨r, c₁, hs, hr⟩ := Parser.bind_eq_some.mp h
    unfold listStep at hs
    by_cases hc : c.next.token = .punctuator stop
    · rw [(Parser.accept_accepts stop).bind_true hc] at hs
      obtain ⟨rfl, rfl⟩ := Parser.pure_eq_some.mp hs
      obtain ⟨hitems, rfl⟩ := Parser.pure_eq_some.mp hr
      obtain ⟨rfl, rfl⟩ := Prod.mk.inj hitems
      exact ⟨1, [], by omega, by simp, .done hc⟩
    · rw [(Parser.accept_accepts stop).bind_false hc] at hs
      obtain ⟨a, c₂, ha, hs⟩ := Parser.bind_eq_some.mp hs
      by_cases hcomma : c₂.next.token = .punctuator .comma
      · rw [(Parser.accept_accepts .comma).bind_true hcomma] at hs
        obtain ⟨rfl, rfl⟩ := Parser.pure_eq_some.mp hs
        obtain ⟨k, rest, hk, rfl, hl⟩ := ih hr
        exact ⟨k + 1, a :: rest, by omega, by simp, .more hc ha hcomma hl⟩
      · rw [(Parser.accept_accepts .comma).bind_false hcomma] at hs
        obtain ⟨_, c₃, he, hs⟩ := Parser.bind_eq_some.mp hs
        obtain ⟨rfl, rfl⟩ := Parser.pure_eq_some.mp hs
        obtain ⟨hitems, rfl⟩ := Parser.pure_eq_some.mp hr
        obtain ⟨rfl, rfl⟩ := Prod.mk.inj hitems
        obtain ⟨hstop, rfl⟩ := Parser.expect_eq_some.mp he
        exact ⟨1, [a], by omega, by simp, .last hc ha hcomma hstop⟩

theorem iterate_of_listed {stop : Punctuator} {item : Parser α} {k n : Nat} {before comma : Bool}
    {c c' : Cursor} {items : List α} (h : Listed stop item k before c items comma c') (hk : k ≤ n)
    (read : List α) : Parser.iterate n (listStep stop item) (read, before) c =
      some ((read.reverse ++ items, comma), c') := by
  induction h generalizing n read with
  | done h =>
    obtain ⟨n, rfl⟩ := Nat.exists_eq_add_of_le' hk
    rw [Parser.iterate_succ, Parser.bind_of_eq_some (listStep_done h _), List.append_nil]
    rfl
  | more h ha hc hr ih =>
    obtain ⟨n, rfl⟩ := Nat.exists_eq_add_of_le' (Nat.le_trans (Nat.le_add_left 1 _) hk)
    rw [Parser.iterate_succ, Parser.bind_of_eq_some (listStep_more h ha hc _), Sum.elim_inl,
      ih (by omega)]
    simp
  | last h ha hc hs =>
    obtain ⟨n, rfl⟩ := Nat.exists_eq_add_of_le' hk
    rw [Parser.iterate_succ, Parser.bind_of_eq_some (listStep_last h ha hc hs _), Sum.elim_inr,
      List.reverse_cons]
    rfl

theorem listUntil_iff {g : Grammar} {stop : Punctuator} {item : Parser α} {c c' : Cursor}
    {items : List α} {comma : Bool} : g.listUntil stop item c = some ((items, comma), c') ↔
      ∃ k ≤ g.fuel, Listed stop item k false c items comma c' := by
  constructor
  · intro h
    have hrounds : Parser.iterate g.fuel (listStep stop item) (([], false) : List α × Bool) c =
        some ((items, comma), c') := h
    obtain ⟨k, rest, hk, rfl, hl⟩ := listed_of_iterate hrounds
    exact ⟨k, hk, hl⟩
  · rintro ⟨k, hk, hl⟩
    exact iterate_of_listed hl hk []

/-! ## What one level owes the next -/

/-- Expressions that stand for patterns of new names are read as those patterns. -/
structure Covers (g : Grammar) (m : Mode) : Prop where
  bare {c c' : Cursor} {e : Expr} : g.assignment m.withIn c = some (e, c') → e.isBare = true
  name {c c' : Cursor} {id : String} :
    g.assignment m.withIn c = some (.name id, c') → Parser.identifier m c = some (id, c')
  item {c c' : Cursor} {e : Expr} {target pattern : Pattern} :
    g.assignment m.withIn c = some (e, c') → e.target? = some target →
      target.binding? = some pattern → g.bindingItem m c = some (pattern, c')
  binding {c c' : Cursor} {e : Expr} {target pattern : Pattern} :
    g.assignment m.withIn c = some (e, c') → e.target? = some target →
      target.binding? = some pattern → target.isDefaulted = false →
        g.binding m c = some (pattern, c')

section Items

variable {g : Grammar} {m : Mode} {c c' : Cursor}

theorem targetItems?_bare {e : Expr} (h : e.isBare = true) (comma : Bool) (rest : List Expr) :
    targetItems? comma (e :: rest) =
      e.target? >>= fun pattern => targetItems? comma rest >>= fun patterns =>
        some (pattern :: patterns) := by
  cases e <;> first | rfl | cases h

/-- What spreads stands last, and no comma stands behind it. -/
theorem targetItems?_spread {items : Expr} {comma : Bool} {rest : List Expr}
    {targets : List Pattern} (h : targetItems? comma (.spread items :: rest) = some targets) :
    rest = [] ∧ comma = false ∧ ∃ pattern, items.target? = some pattern ∧
      pattern.isDefaulted = false ∧ targets = [.rest pattern] := by
  unfold targetItems? at h
  cases rest with
  | cons e rest => cases h
  | nil =>
    cases comma with
    | true => cases h
    | false =>
      cases ht : items.target? with
      | none => simp [ht] at h
      | some pattern =>
        cases pattern with
        | withValue pattern value => simp [ht] at h
        | _ =>
          simp only [ht, Option.some.injEq] at h
          exact ⟨rfl, rfl, _, rfl, rfl, h.symm⟩

theorem bindings?_cons_eq_some {p : Pattern} {rest patterns : List Pattern}
    (h : bindings? (p :: rest) = some patterns) :
    ∃ q qs, p.binding? = some q ∧ bindings? rest = some qs ∧ patterns = q :: qs := by
  obtain ⟨q, hq, h⟩ := Option.bind_eq_some_iff.mp h
  obtain ⟨qs, hqs, h⟩ := Option.bind_eq_some_iff.mp h
  exact ⟨q, qs, hq, hqs, (Option.some.inj h).symm⟩

/-! ## Arrays -/

/-- What an item of an array is read from. -/
theorem arrayItem_cases {e : Expr} (h : g.arrayItem m.withIn c = some (e, c')) :
    (c.next.token = .punctuator .comma ∧ e = .hole ∧ c' = c) ∨
      (∃ items, c.next.token = .punctuator .ellipsis ∧ e = .spread items ∧
        g.assignment m.withIn (.front .inside c.next.rest) = some (items, c')) ∨
      (c.next.token ≠ .punctuator .comma ∧ c.next.token ≠ .punctuator .ellipsis ∧
        g.assignment m.withIn c = some (e, c')) := by
  unfold arrayItem at h
  rw [Parser.sees_bind, Parser.peek_bind] at h
  by_cases hc : c.next.token = .punctuator .comma
  · rw [if_pos (by simp [Lexeme.is, hc])] at h
    obtain ⟨rfl, rfl⟩ := Parser.pure_eq_some.mp h
    exact .inl ⟨hc, rfl, rfl⟩
  · rw [if_neg (by simp [Lexeme.is, hc])] at h
    unfold element at h
    by_cases hd : c.next.token = .punctuator .ellipsis
    · rw [(Parser.accept_accepts .ellipsis).bind_true hd] at h
      obtain ⟨items, c₁, hi, h⟩ := Parser.bind_eq_some.mp h
      obtain ⟨rfl, rfl⟩ := Parser.pure_eq_some.mp h
      exact .inr (.inl ⟨items, hd, rfl, hi⟩)
    · rw [(Parser.accept_accepts .ellipsis).bind_false hd] at h
      exact .inr (.inr ⟨hc, hd, h⟩)

theorem arrayBinding_hole (h : c.next.token = .punctuator .comma) :
    g.arrayBinding m c = some (.hole, c) := by
  unfold arrayBinding
  rw [Parser.sees_bind, Parser.peek_bind, if_pos (by simp [Lexeme.is, h])]
  rfl

theorem bindingRest_of_binding {pattern : Pattern} (h : c.next.token = .punctuator .ellipsis)
    (hb : g.binding m (.front .inside c.next.rest) = some (pattern, c')) :
    g.bindingRest m c = some (.rest pattern, c') := by
  unfold bindingRest
  rw [Parser.bind_of_eq_some (Parser.expect_of_token h), Parser.bind_of_eq_some hb]
  rfl

theorem sees_check {p : Punctuator} (h : c.next.token = .punctuator p) (a : α) :
    (Parser.sees p >>= fun sees => Parser.check sees >>= fun _ => pure a : Parser α) c =
      some (a, c) := by
  rw [Parser.sees_bind, Parser.peek_bind, show c.next.is p = true by simp [Lexeme.is, h]]
  rfl

theorem arrayBinding_rest {pattern : Pattern} (h : c.next.token = .punctuator .ellipsis)
    (hb : g.binding m (.front .inside c.next.rest) = some (pattern, c'))
    (hs : c'.next.token = .punctuator .closeBracket) :
    g.arrayBinding m c = some (.rest pattern, c') := by
  unfold arrayBinding
  rw [Parser.sees_bind, Parser.peek_bind, if_neg (by simp [Lexeme.is, h]), Parser.sees_bind,
    Parser.peek_bind, if_pos (by simp [Lexeme.is, h]),
    Parser.bind_of_eq_some (bindingRest_of_binding h hb)]
  exact sees_check hs _

theorem arrayBinding_item (hc : c.next.token ≠ .punctuator .comma)
    (hd : c.next.token ≠ .punctuator .ellipsis) : g.arrayBinding m c = g.bindingItem m c := by
  unfold arrayBinding
  rw [Parser.sees_bind, Parser.peek_bind, if_neg (by simp [Lexeme.is, hc]), Parser.sees_bind,
    Parser.peek_bind, if_neg (by simp [Lexeme.is, hd])]

theorem listed_arrayBinding (hg : g.Covers m) {k : Nat} {before comma : Bool} {items : List Expr}
    (h : Listed .closeBracket (g.arrayItem m.withIn) k before c items comma c')
    {targets patterns : List Pattern} (ht : targetItems? comma items = some targets)
    (hp : bindings? targets = some patterns) :
    Listed .closeBracket (g.arrayBinding m) k before c patterns comma c' := by
  induction h generalizing targets patterns with
  | done h =>
    cases ht
    cases hp
    exact .done h
  | @more n before comma c c₁ c' e rest h ha hc hr ih =>
    rcases arrayItem_cases ha with ⟨hcomma, rfl, rfl⟩ | ⟨items, hd, rfl, hi⟩ | ⟨hcomma, hd, he⟩
    · obtain ⟨targets, hts, rfl⟩ := Option.map_eq_some_iff.mp ht
      obtain ⟨q, qs, hq, hqs, rfl⟩ := bindings?_cons_eq_some hp
      cases hq
      exact .more h (arrayBinding_hole hcomma) hc (ih hts hqs)
    · -- A comma stands behind what spreads, so it is no pattern.
      obtain ⟨rfl, rfl, -⟩ := targetItems?_spread ht
      cases hr
    · rw [targetItems?_bare (hg.bare he)] at ht
      obtain ⟨target, hte, ht⟩ := Option.bind_eq_some_iff.mp ht
      obtain ⟨targets, hts, ht⟩ := Option.bind_eq_some_iff.mp ht
      obtain rfl := Option.some.inj ht
      obtain ⟨q, qs, hq, hqs, rfl⟩ := bindings?_cons_eq_some hp
      refine .more h ?_ hc (ih hts hqs)
      rw [arrayBinding_item hcomma hd]
      exact hg.item he hte hq
  | @last before c c₁ e h ha hc hs =>
    rcases arrayItem_cases ha with ⟨hcomma, rfl, rfl⟩ | ⟨items, hd, rfl, hi⟩ | ⟨hcomma, hd, he⟩
    · exact (hc hcomma).elim
    · obtain ⟨-, -, target, hte, hd', rfl⟩ := targetItems?_spread ht
      obtain ⟨q, qs, hq, hqs, rfl⟩ := bindings?_cons_eq_some hp
      obtain ⟨pattern, hb, rfl⟩ := Option.map_eq_some_iff.mp hq
      cases hqs
      exact .last h (arrayBinding_rest hd (hg.binding hi hte hb hd') hs) hc hs
    · rw [targetItems?_bare (hg.bare he)] at ht
      obtain ⟨target, hte, ht⟩ := Option.bind_eq_some_iff.mp ht
      cases ht
      obtain ⟨q, qs, hq, hqs, rfl⟩ := bindings?_cons_eq_some hp
      cases hqs
      refine .last h ?_ hc hs
      rw [arrayBinding_item hcomma hd]
      exact hg.item he hte hq

/-! ## Objects -/

theorem takeWhen_eq_false {test : Lexeme → Lexeme → Bool}
    (h : takeWhen test c = some (false, c')) : c' = c := by
  rw [takeWhen_bind] at h
  split at h
  · obtain ⟨_, c₁, -, h⟩ := Parser.bind_eq_some.mp h
    cases (Parser.pure_eq_some.mp h).1
  · exact (Parser.pure_eq_some.mp h).2.symm

/-- A word is the name of a property. -/
theorem key_of_word {id : String} {escaped : Bool} (h : c.next.token = .word id escaped) :
    g.key m c = some (.name id, .front .inside c.next.rest) := by
  unfold key
  rw [Parser.peek_bind, h]
  dsimp only
  rw [Parser.bind_of_eq_some (Parser.advance_of_real (by rw [h]; rfl))]
  rfl

/-- Where no modifier demands a method, none is taken. -/
theorem modifiers_none {mods : Modifiers} (h : modifiers c = some (mods, c'))
    (hm : mods.demandMethod = false) : c' = c := by
  obtain ⟨get, c₁, hget, hrest⟩ := Parser.bind_eq_some.mp h
  cases get with
  | true =>
    obtain ⟨rfl, -⟩ := Parser.pure_eq_some.mp hrest
    cases hm
  | false =>
    rw [if_neg Bool.false_ne_true, takeWhen_eq_false hget] at hrest
    obtain ⟨set, c₂, hset, hrest⟩ := Parser.bind_eq_some.mp hrest
    cases set with
    | true =>
      obtain ⟨rfl, -⟩ := Parser.pure_eq_some.mp hrest
      cases hm
    | false =>
      rw [if_neg Bool.false_ne_true, takeWhen_eq_false hset] at hrest
      obtain ⟨isAsync, c₃, hasync, hrest⟩ := Parser.bind_eq_some.mp hrest
      obtain ⟨isGenerator, c₄, hstar, hrest⟩ := Parser.bind_eq_some.mp hrest
      obtain ⟨rfl, rfl⟩ := Parser.pure_eq_some.mp hrest
      simp only [Modifiers.demandMethod, Option.isSome_none, Bool.false_or, Bool.or_eq_false_iff]
        at hm
      obtain ⟨rfl, rfl⟩ := hm
      rw [(Parser.accept_accepts .star).run] at hstar
      split at hstar
      · cases hstar
      · exact (Prod.mk.inj (Option.some.inj hstar)).2.symm.trans (takeWhen_eq_false hasync)

/-- What a property is read from that holds a value, behind its name. -/
theorem propertyRest_cases {start : Lexeme} {mods : Modifiers} {key : Key} {p : Property}
    (h : g.propertyRest m start mods key c = some (p, c')) :
    (∃ key f text, p = .method key f text) ∨ (∃ kind key f text, p = .accessor kind key f text) ∨
      (mods.demandMethod = false ∧
        ((∃ value text, c.next.token = .punctuator .colon ∧ p = .field key value false text ∧
            g.assignment m.withIn (.front .inside c.next.rest) = some (value, c')) ∨
          c.next.token ≠ .punctuator .colon ∧ ∃ id, start.identifier? m = some id ∧
            ((∃ value, c.next.token = .punctuator .assign ∧ p = .pending id value ∧
                g.assignment m.withIn (.front .inside c.next.rest) = some (value, c')) ∨
              (∃ text, c.next.token ≠ .punctuator .assign ∧
                p = .field (.name id) (.name id) true text ∧ c' = c)))) := by
  obtain ⟨_, c₁, hk, h⟩ := Parser.bind_eq_some.mp h
  obtain ⟨-, rfl⟩ := Parser.check_eq_some.mp hk
  rw [Parser.sees_bind, Parser.peek_bind] at h
  by_cases hd : (mods.demandMethod || c.next.is .openParen) = true
  · rw [if_pos hd] at h
    obtain ⟨f, c₂, -, h⟩ := Parser.bind_eq_some.mp h
    obtain ⟨text, c₃, -, h⟩ := Parser.bind_eq_some.mp h
    obtain ⟨rfl, -⟩ := Parser.pure_eq_some.mp h
    split
    · exact .inr (.inl ⟨_, _, _, _, rfl⟩)
    · exact .inl ⟨_, _, _, rfl⟩
  · rw [if_neg hd] at h
    refine .inr (.inr ⟨by simpa using (Bool.or_eq_false_iff.mp (by simpa using hd)).1, ?_⟩)
    by_cases hc : c.next.token = .punctuator .colon
    · rw [(Parser.accept_accepts .colon).bind_true hc, if_pos rfl, Parser.peek_bind] at h
      obtain ⟨value, c₂, hv, h⟩ := Parser.bind_eq_some.mp h
      obtain ⟨text, c₃, htext, h⟩ := Parser.bind_eq_some.mp h
      obtain ⟨-, rfl⟩ := Prod.mk.inj (Option.some.inj htext)
      obtain ⟨rfl, rfl⟩ := Parser.pure_eq_some.mp h
      exact .inl ⟨value, text, hc, rfl, hv⟩
    · rw [(Parser.accept_accepts .colon).bind_false hc] at h
      obtain ⟨id, c₂, hl, h⟩ := Parser.bind_eq_some.mp h
      obtain ⟨hid, rfl⟩ := Parser.lift_eq_some.mp hl
      refine .inr ⟨hc, id, hid, ?_⟩
      by_cases ha : c.next.token = .punctuator .assign
      · rw [(Parser.accept_accepts .assign).bind_true ha] at h
        obtain ⟨value, c₂, hv, h⟩ := Parser.bind_eq_some.mp h
        obtain ⟨rfl, rfl⟩ := Parser.pure_eq_some.mp h
        exact .inl ⟨value, ha, rfl, hv⟩
      · rw [(Parser.accept_accepts .assign).bind_false ha] at h
        obtain ⟨rfl, rfl⟩ := Parser.pure_eq_some.mp h
        exact .inr ⟨_, ha, rfl, rfl⟩

/-- What a property is read from. -/
theorem property_cases {p : Property} (h : g.property m c = some (p, c')) :
    (∃ value, c.next.token = .punctuator .ellipsis ∧ p = .spread value ∧
        g.assignment m.withIn (.front .inside c.next.rest) = some (value, c')) ∨
      (c.next.token ≠ .punctuator .ellipsis ∧ ∃ mods c₁ key c₂, modifiers c = some (mods, c₁) ∧
        g.key m c₁ = some (key, c₂) ∧ g.propertyRest m c.next mods key c₂ = some (p, c')) := by
  unfold property at h
  by_cases hd : c.next.token = .punctuator .ellipsis
  · rw [(Parser.accept_accepts .ellipsis).bind_true hd] at h
    obtain ⟨value, c₁, hv, h⟩ := Parser.bind_eq_some.mp h
    obtain ⟨rfl, rfl⟩ := Parser.pure_eq_some.mp h
    exact .inl ⟨value, hd, rfl, hv⟩
  · rw [(Parser.accept_accepts .ellipsis).bind_false hd, if_neg Bool.false_ne_true,
      Parser.peek_bind] at h
    obtain ⟨mods, c₁, hm, h⟩ := Parser.bind_eq_some.mp h
    obtain ⟨key, c₂, hk, h⟩ := Parser.bind_eq_some.mp h
    exact .inr ⟨hd, mods, c₁, key, c₂, hm, hk, h⟩

theorem withDefault_none (h : c.next.token ≠ .punctuator .assign) (pattern : Pattern) :
    g.withDefault m pattern c = some (pattern, c) :=
  (Parser.accept_accepts .assign).bind_false h

theorem withDefault_some {value : Expr} (h : c.next.token = .punctuator .assign)
    (hv : g.assignment m.withIn (.front .inside c.next.rest) = some (value, c'))
    (pattern : Pattern) : g.withDefault m pattern c = some (.withValue pattern value, c') := by
  unfold withDefault
  rw [(Parser.accept_accepts .assign).bind_true h, if_pos rfl, Parser.bind_of_eq_some hv]
  rfl

theorem objectBinding_rest {id : String} (h : c.next.token = .punctuator .ellipsis)
    (hi : Parser.identifier m (.front .inside c.next.rest) = some (id, c'))
    (hs : c'.next.token = .punctuator .closeBrace) :
    g.objectBinding m c = some (.rest (.bind id), c') := by
  unfold objectBinding
  rw [(Parser.accept_accepts .ellipsis).bind_true h, if_pos rfl, Parser.bind_of_eq_some hi]
  exact sees_check hs _

theorem objectBinding_field {key : Key} {c₁ : Cursor} {value : Pattern}
    (h : c.next.token ≠ .punctuator .ellipsis) (hk : g.key m c = some (key, c₁))
    (hc : c₁.next.token = .punctuator .colon)
    (hv : g.bindingItem m (.front .inside c₁.next.rest) = some (value, c')) :
    g.objectBinding m c = some (.field key value false, c') := by
  unfold objectBinding
  rw [(Parser.accept_accepts .ellipsis).bind_false h, if_neg Bool.false_ne_true, Parser.peek_bind,
    Parser.bind_of_eq_some hk, (Parser.accept_accepts .colon).bind_true hc, if_pos rfl,
    Parser.bind_of_eq_some hv]
  rfl

theorem objectBinding_shorthand {key : Key} {c₁ : Cursor} {id : String} {value : Pattern}
    (h : c.next.token ≠ .punctuator .ellipsis) (hk : g.key m c = some (key, c₁))
    (hc : c₁.next.token ≠ .punctuator .colon) (hi : c.next.identifier? m = some id)
    (hv : g.withDefault m (.bind id) c₁ = some (value, c')) :
    g.objectBinding m c = some (.field (.name id) value true, c') := by
  unfold objectBinding
  rw [(Parser.accept_accepts .ellipsis).bind_false h, if_neg Bool.false_ne_true, Parser.peek_bind,
    Parser.bind_of_eq_some hk, (Parser.accept_accepts .colon).bind_false hc,
    if_neg Bool.false_ne_true, Parser.bind_of_eq_some (Parser.lift_eq_some.mpr ⟨hi, rfl⟩),
    Parser.bind_of_eq_some hv]
  rfl

/-- A property that holds a value and stands for a pattern is read as that pattern. -/
theorem objectBinding_of_property (hg : g.Covers m) {p : Property} {comma : Bool}
    {rest : List Property} {targets patterns : List Pattern}
    (h : g.property m.withIn c = some (p, c')) (hs : ∀ value, p ≠ .spread value)
    (ht : targetFields? comma (p :: rest) = some targets) (hp : bindings? targets = some patterns) :
    ∃ others pattern more, targetFields? comma rest = some others ∧
      bindings? others = some more ∧ patterns = pattern :: more ∧
        g.objectBinding m c = some (pattern, c') := by
  rcases property_cases h with ⟨value, -, rfl, -⟩ | ⟨hd, mods, c₁, key, c₂, hm, hk, hr⟩
  · exact (hs value rfl).elim
  · rcases propertyRest_cases hr with ⟨_, _, _, rfl⟩ | ⟨_, _, _, _, rfl⟩ | ⟨hmods, hr⟩
    · cases ht
    · cases ht
    · obtain rfl : c₁ = c := modifiers_none hm hmods
      rcases hr with ⟨value, text, hc, rfl, hv⟩ | ⟨hc, id, hid, hr⟩
      · obtain ⟨target, hte, ht⟩ := Option.bind_eq_some_iff.mp ht
        obtain ⟨others, hos, ht⟩ := Option.bind_eq_some_iff.mp ht
        obtain rfl := Option.some.inj ht
        obtain ⟨q, qs, hq, hqs, rfl⟩ := bindings?_cons_eq_some hp
        obtain ⟨pattern, hb, rfl⟩ := Option.map_eq_some_iff.mp hq
        exact ⟨others, _, qs, hos, hqs, rfl, objectBinding_field hd hk hc (hg.item hv hte hb)⟩
      · rcases hr with ⟨value, ha, rfl, hv⟩ | ⟨text, ha, rfl, rfl⟩
        · obtain ⟨others, hos, ht⟩ := Option.bind_eq_some_iff.mp ht
          obtain rfl := Option.some.inj ht
          obtain ⟨q, qs, hq, hqs, rfl⟩ := bindings?_cons_eq_some hp
          obtain rfl := Option.some.inj hq
          exact ⟨others, _, qs, hos, hqs, rfl,
            objectBinding_shorthand hd hk hc hid (withDefault_some ha hv _)⟩
        · obtain ⟨others, hos, ht⟩ := Option.bind_eq_some_iff.mp ht
          obtain rfl := Option.some.inj ht
          obtain ⟨q, qs, hq, hqs, rfl⟩ := bindings?_cons_eq_some hp
          obtain rfl := Option.some.inj hq
          exact ⟨others, _, qs, hos, hqs, rfl,
            objectBinding_shorthand hd hk hc hid (withDefault_none ha _)⟩

/-- A property that spreads stands last, and names what is left. -/
theorem targetFields?_spread {value : Expr} {comma : Bool} {rest : List Property}
    {targets patterns : List Pattern}
    (h : targetFields? comma (.spread value :: rest) = some targets)
    (hp : bindings? targets = some patterns) :
    rest = [] ∧ comma = false ∧ ∃ id, value = .name id ∧ patterns = [.rest (.bind id)] := by
  unfold targetFields? at h
  cases rest with
  | cons p rest => cases h
  | nil =>
    cases comma with
    | true => cases h
    | false =>
      obtain ⟨target, ht, rfl⟩ := Option.map_eq_some_iff.mp h
      obtain ⟨ht, hsimple⟩ := Option.filter_eq_some_iff.mp ht
      obtain ⟨q, qs, hq, hqs, rfl⟩ := bindings?_cons_eq_some hp
      obtain ⟨pattern, hb, rfl⟩ := Option.map_eq_some_iff.mp hq
      cases hqs
      refine ⟨rfl, rfl, ?_⟩
      rcases target?_cases ht with ⟨_, _, _, rfl, -, rfl⟩ | ⟨_, _, _, rfl, -, rfl⟩ |
        ⟨_, _, rfl, rfl⟩ | rfl
      · cases hsimple
      · cases hsimple
      · cases hsimple
      · by_cases hname : ∃ id, value = .name id
        · obtain ⟨id, rfl⟩ := hname
          obtain rfl := Option.some.inj hb
          exact ⟨id, rfl, rfl⟩
        · rw [binding?_place (not_exists.mp hname)] at hb
          cases hb

theorem listed_objectBinding (hg : g.Covers m) {k : Nat} {before comma : Bool}
    {properties : List Property}
    (h : Listed .closeBrace (g.property m.withIn) k before c properties comma c')
    {targets patterns : List Pattern} (ht : targetFields? comma properties = some targets)
    (hp : bindings? targets = some patterns) :
    Listed .closeBrace (g.objectBinding m) k before c patterns comma c' := by
  induction h generalizing targets patterns with
  | done h =>
    cases ht
    cases hp
    exact .done h
  | @more n before comma c c₁ c' p rest h ha hc hr ih =>
    by_cases hs : ∃ value, p = .spread value
    · obtain ⟨value, rfl⟩ := hs
      obtain ⟨rfl, rfl, -⟩ := targetFields?_spread ht hp
      cases hr
    · obtain ⟨others, pattern, more, hos, hmore, rfl, hb⟩ :=
        objectBinding_of_property hg ha (not_exists.mp hs) ht hp
      exact .more h hb hc (ih hos hmore)
  | @last before c c₁ p h ha hc hstop =>
    by_cases hs : ∃ value, p = .spread value
    · obtain ⟨value, rfl⟩ := hs
      obtain ⟨-, -, id, rfl, rfl⟩ := targetFields?_spread ht hp
      rcases property_cases ha with ⟨value, hd, hv, ha⟩ | ⟨-, _, _, _, _, -, -, hr⟩
      · cases hv
        exact .last h (objectBinding_rest hd (hg.name ha) hstop) hc hstop
      · rcases propertyRest_cases hr with ⟨_, _, _, hv⟩ | ⟨_, _, _, _, hv⟩ |
          ⟨-, ⟨_, _, -, hv, -⟩ | ⟨-, _, -, ⟨_, -, hv, -⟩ | ⟨_, -, hv, -⟩⟩⟩
        all_goals cases hv
    · obtain ⟨others, pattern, more, hos, hmore, rfl, hb⟩ :=
        objectBinding_of_property hg ha (not_exists.mp hs) ht hp
      cases hos
      cases hmore
      exact .last h hb hc hstop

/-! ## Operands -/

theorem identifier_withIn (m : Mode) : Parser.identifier m.withIn = Parser.identifier m := rfl

theorem bindingTarget_of_identifier {id : String} (h : Parser.identifier m c = some (id, c')) :
    g.bindingTarget m c = some (.bind id, c') := by
  obtain ⟨escaped, hword⟩ := Lexeme.identifier?_word (Parser.identifier_eq_some.mp h).1
  unfold bindingTarget
  rw [(Parser.accept_accepts .openBracket).bind_false (by rw [hword]; nofun),
    if_neg Bool.false_ne_true,
    (Parser.accept_accepts .openBrace).bind_false (by rw [hword]; nofun),
    if_neg Bool.false_ne_true, Parser.bind_of_eq_some h]
  rfl

/-- An operand that stands for a pattern of new names is read as that pattern. -/
theorem bindingTarget_of_primary (hg : g.Covers m) {left : Expr} {target pattern : Pattern}
    (h : g.primary m.withIn c = some (left, c')) (ht : left.target? = some target)
    (hd : target.isDefaulted = false) (hp : target.binding? = some pattern) :
    g.bindingTarget m c = some (pattern, c') := by
  have hw : left.isWhole = true := by
    by_contra hw
    rw [binding?_of_not_whole ht (Bool.eq_false_of_not_eq_true hw)] at hp
    cases hp
  rcases primary_whole h hw with ⟨id, rfl, hi⟩ | ⟨items, comma, rfl, hb, hl⟩ |
    ⟨properties, comma, rfl, hb, hl⟩ | ⟨f, rfl, -⟩ | ⟨text, inner, rfl, -⟩
  · obtain rfl := Option.some.inj ht
    obtain rfl := Option.some.inj hp
    rw [identifier_withIn] at hi
    exact bindingTarget_of_identifier hi
  · obtain ⟨targets, hts, rfl⟩ := Option.map_eq_some_iff.mp ht
    obtain ⟨patterns, hps, rfl⟩ := Option.map_eq_some_iff.mp hp
    obtain ⟨k, hk, hl⟩ := listUntil_iff.mp hl
    unfold bindingTarget
    rw [(Parser.accept_accepts .openBracket).bind_true hb, if_pos rfl,
      Parser.bind_of_eq_some (listUntil_iff.mpr ⟨k, hk, listed_arrayBinding hg hl hts hps⟩)]
    rfl
  · obtain ⟨targets, hts, rfl⟩ := Option.map_eq_some_iff.mp ht
    obtain ⟨patterns, hps, rfl⟩ := Option.map_eq_some_iff.mp hp
    obtain ⟨k, hk, hl⟩ := listUntil_iff.mp hl
    unfold bindingTarget
    rw [(Parser.accept_accepts .openBracket).bind_false (by rw [hb]; nofun),
      if_neg Bool.false_ne_true, (Parser.accept_accepts .openBrace).bind_true hb, if_pos rfl,
      Parser.bind_of_eq_some (listUntil_iff.mpr ⟨k, hk, listed_objectBinding hg hl hts hps⟩)]
    rfl
  · cases ht
  · rw [binding?_of_paren ht] at hp
    cases hp

end Items

/-! ## All levels -/

theorem covers_empty (m : Mode) : Grammar.empty.Covers m where
  bare h := nomatch h
  name h := nomatch h
  item h := nomatch h
  binding h := nomatch h

theorem token_of_set {l : Lexeme} (h : assignOp? l = some .set) : l.token = .punctuator .assign := by
  unfold assignOp? Lexeme.punctuator? at h
  cases ht : l.token with
  | punctuator p =>
    rw [ht] at h
    cases p <;> first | rfl | cases h
  | _ =>
    rw [ht] at h
    cases h

theorem answers_singleArrow {g : Grammar} {m : Mode} {isAsync : Bool} :
    Parser.Answers (fun e => ∃ value f, e = .arrow value f) (g.singleArrow m isAsync) := by
  refine .last fun _ => .last fun _ => .last fun _ c e c' h => ?_
  obtain ⟨value, f, rfl, -⟩ := answers_arrowRest isAsync _ _ _ _ _ h
  exact ⟨value, f, rfl⟩

theorem Whole.shape {g : Grammar} {m : Mode} {c c' : Cursor} {e : Expr} (h : Whole g m c e c') :
    g.primary m c = some (e, c') ∨ (∃ text inner, e = .paren text inner) ∨
      (∃ value f, e = .arrow value f) ∨ ∃ op target value, e = .assign op target value := by
  cases h with
  | operand h => exact .inl h
  | parens h => exact .inr (.inl (parenthesized_value h))
  | single h => exact .inr (.inr (.inl (answers_singleArrow _ _ _ h)))
  | arrow params text c₁ hp h =>
    obtain ⟨value, f, rfl, -⟩ := answers_arrowRest false _ _ _ _ _ h
    exact .inr (.inr (.inl ⟨value, f, rfl⟩))
  | asyncArrow value f h => exact .inr (.inr (.inl ⟨value, f, h⟩))
  | assign left c₁ hl h =>
    obtain ⟨target, value, -, -, -, -, rfl⟩ := h
    exact .inr (.inr (.inr ⟨_, target, value, rfl⟩))
  | store op target value h => exact .inr (.inr (.inr ⟨op, target, value, h⟩))

section Above

variable {fuel n : Nat} {m : Mode} {c c' : Cursor} {e : Expr}

theorem bare_above (h : (grammar fuel (n + 1)).assignment m c = some (e, c')) :
    e.isBare = true := by
  by_contra hb
  have hw : e.isWhole = true := by
    cases e <;> first | rfl | exact (hb rfl).elim
  rcases (assignmentExpression_whole h hw).shape with hp | ⟨_, _, rfl⟩ | ⟨_, _, rfl⟩ | ⟨_, _, _, rfl⟩
  · rcases primary_whole hp hw with ⟨_, rfl, -⟩ | ⟨_, _, rfl, -⟩ | ⟨_, _, rfl, -⟩ | ⟨_, rfl, -⟩ |
      ⟨_, _, rfl, -⟩
    all_goals exact hb rfl
  all_goals exact hb rfl

theorem name_above {id : String}
    (h : (grammar fuel (n + 1)).assignment m c = some (.name id, c')) :
    Parser.identifier m c = some (id, c') := by
  rcases (assignmentExpression_whole h rfl).shape with hp | ⟨_, _, he⟩ | ⟨_, _, he⟩ | ⟨_, _, _, he⟩
  · rcases primary_whole hp rfl with ⟨_, he, hi⟩ | ⟨_, _, he, -⟩ | ⟨_, _, he, -⟩ | ⟨_, he, -⟩ |
      ⟨_, _, he, -⟩
    · cases he
      exact hi
    all_goals cases he
  all_goals cases he

theorem assignment_above (h : (grammar fuel n).assignment m c = some (e, c')) :
    (grammar fuel (n + 1)).assignment m c = some (e, c') := by
  have lifts : Opens .same never _ _ := (agrees_same (Nat.le_refl fuel) n.le_succ).assignment m false
  have := lifts.follows.same h
  rwa [Mode.widen_false] at this

/-- The level above a level reads what stands for a pattern as that pattern. -/
theorem pattern_above (hg : (grammar fuel n).Covers m) {target pattern : Pattern}
    (h : (grammar fuel (n + 1)).assignment m.withIn c = some (e, c'))
    (ht : e.target? = some target) (hp : target.binding? = some pattern) :
    (grammar fuel (n + 1)).bindingItem m c = some (pattern, c') ∧
      (target.isDefaulted = false → (grammar fuel (n + 1)).binding m c = some (pattern, c')) := by
  have hw : e.isWhole = true := by
    by_contra hw
    rw [binding?_of_not_whole ht (Bool.eq_false_of_not_eq_true hw)] at hp
    cases hp
  have bound {left : Expr} {target pattern : Pattern} {c₁ : Cursor}
      (h : (grammar fuel n).primary m.withIn c = some (left, c₁))
      (ht : left.target? = some target) (hd : target.isDefaulted = false)
      (hp : target.binding? = some pattern) :
      (grammar fuel (n + 1)).binding m c = some (pattern, c₁) :=
    bindingTarget_of_primary hg h ht hd hp
  cases assignmentExpression_whole h hw with
  | operand h hn =>
    have hd : target.isDefaulted = false := by
      rcases target?_cases ht with ⟨_, _, _, -, -, rfl⟩ | ⟨_, _, _, -, -, rfl⟩ | ⟨_, _, rfl, -⟩ | rfl
      · rfl
      · rfl
      · rcases primary_whole h hw with ⟨_, he, -⟩ | ⟨_, _, he, -⟩ | ⟨_, _, he, -⟩ | ⟨_, he, -⟩ |
          ⟨_, _, he, -⟩
        all_goals cases he
      · rfl
    have hb := bound h ht hd hp
    refine ⟨?_, fun _ => hb⟩
    refine (Parser.bind_of_eq_some hb).trans (withDefault_none (fun hassign => ?_) pattern)
    rw [assignOp?, Lexeme.punctuator?, hassign] at hn
    cases hn
  | parens h =>
    obtain ⟨text, inner, rfl⟩ := parenthesized_value h
    rw [binding?_of_paren ht] at hp
    cases hp
  | assign left c₁ hl h =>
    obtain ⟨inner, value, hi, hd, ho, hv, rfl⟩ := h
    obtain rfl := Option.some.inj ht
    obtain ⟨inner', hb, rfl⟩ := Option.map_eq_some_iff.mp hp
    refine ⟨?_, fun hplain => by cases hplain⟩
    exact (Parser.bind_of_eq_some (bound hl hi hd hb)).trans
      (withDefault_some (token_of_set ho) (assignment_above hv) _)
  | store op target' value he hn =>
    subst he
    cases op with
    | set =>
      obtain rfl := Option.some.inj ht
      obtain ⟨inner, hb, -⟩ := Option.map_eq_some_iff.mp hp
      rw [hn rfl] at hb
      cases hb
    | _ => cases ht
  | single h =>
    obtain ⟨value, f, rfl⟩ := answers_singleArrow _ _ _ h
    cases ht
  | arrow params text c₁ hr h =>
    obtain ⟨value, f, rfl, -⟩ := answers_arrowRest false _ _ _ _ _ h
    cases ht
  | asyncArrow value f h =>
    subst h
    cases ht

theorem covers_above (hg : (grammar fuel n).Covers m) : (grammar fuel (n + 1)).Covers m where
  bare h := bare_above h
  name h := (congrFun (identifier_withIn m) _).symm.trans (name_above h)
  item h ht hp := (pattern_above hg h ht hp).1
  binding h ht hp hd := (pattern_above hg h ht hp).2 hd

end Above

/-- At every level an expression that stands for a pattern is read as that pattern. -/
theorem covers_grammar (fuel n : Nat) (m : Mode) : (grammar fuel n).Covers m := by
  induction n with
  | zero => exact covers_empty m
  | succ n ih => exact covers_above ih

/-! ## Parameters -/

/-- An expression stands for a pattern of new names. -/
def Binds (e : Expr) (pattern : Pattern) : Prop :=
  ∃ target, e.target? = some target ∧ target.binding? = some pattern

theorem binds_of_parameters? {items : List Expr} {params : List Pattern}
    (hb : ∀ e ∈ items, e.isBare = true) (h : parameters? items false = some params) :
    List.Forall₂ Binds items params := by
  obtain ⟨targets, ht, hp⟩ := Option.bind_eq_some_iff.mp h
  rw [Bool.false_and] at ht
  clear h
  induction items generalizing targets params with
  | nil =>
    cases ht
    cases hp
    exact .nil
  | cons e rest ih =>
    rw [targetItems?_bare (hb e List.mem_cons_self)] at ht
    obtain ⟨target, hte, ht⟩ := Option.bind_eq_some_iff.mp ht
    obtain ⟨others, hos, ht⟩ := Option.bind_eq_some_iff.mp ht
    obtain rfl := Option.some.inj ht
    obtain ⟨q, qs, hq, hqs, rfl⟩ := bindings?_cons_eq_some hp
    exact .cons ⟨target, hte, hq⟩
      (ih (fun e he => hb e (List.mem_cons_of_mem _ he)) others hos hqs)

theorem binds_of_reverse {items : List Expr} {params : List Pattern}
    (hb : ∀ e ∈ items, e.isBare = true) (h : parameters? items.reverse false = some params) :
    List.Forall₂ Binds items params.reverse := by
  rw [← List.forall₂_reverse_iff, List.reverse_reverse]
  exact binds_of_parameters? (by simpa using hb) h

/-- One round of reading what stands in parentheses. -/
def parenStep (g : Grammar) (m : Mode) (start inner : List Char) (items : List Expr) :
    Parser (List Expr ⊕ Parenthesized) := do
  if ← Parser.sees .ellipsis then
    let rest ← g.bindingRest m
    Parser.expect .closeParen
    let params := (parameters? items.reverse false).map fun params => params ++ [rest]
    return .inr (← asParameters start params)
  else if ← Parser.sees .closeParen then
    Parser.advance
    return .inr (← asParameters start (parameters? items.reverse false))
  else
    let item ← g.assignment m.withIn
    let items := item :: items
    if ← Parser.accept .comma then return .inl items
    else
      let text ← Parser.textFrom inner
      Parser.expect .closeParen
      if ← seesArrow then
        return .inr (← asParameters start (parameters? items.reverse false))
      else
        let value := match items with
          | [item] => item
          | _ => .sequence items.reverse
        return .inr (.value (.paren text value))

theorem parenItems_eq (g : Grammar) (m : Mode) (start inner : List Char) :
    g.parenItems m start inner = Parser.iterate g.fuel (g.parenStep m start inner) [] := rfl

theorem asParameters_eq_some {start : List Char} {params : Option (List Pattern)} {c c' : Cursor}
    {r : Parenthesized} (h : asParameters start params c = some (r, c')) :
    c' = c ∧ ∃ ps, params = some ps ∧ r = .parameters ps (slice start c.left) := by
  obtain ⟨arrow, c₁, ha, h⟩ := Parser.bind_eq_some.mp h
  obtain ⟨-, rfl⟩ := Prod.mk.inj (Option.some.inj ha)
  obtain ⟨_, c₂, hk, h⟩ := Parser.bind_eq_some.mp h
  obtain ⟨-, rfl⟩ := Parser.check_eq_some.mp hk
  obtain ⟨ps, c₃, hl, h⟩ := Parser.bind_eq_some.mp h
  obtain ⟨rfl, rfl⟩ := Parser.lift_eq_some.mp hl
  obtain ⟨rfl, rfl⟩ := Prod.mk.inj (Option.some.inj h)
  exact ⟨rfl, ps, rfl, rfl⟩

section Rounds

variable {g : Grammar} {m : Mode} {start inner : List Char} {c c' : Cursor} {items : List Expr}

/-- The parameters that the items read so far stand for, with others behind them. -/
def Parenthesized.IsParameters (r : Parenthesized) (start : List Char) (c : Cursor)
    (items : List Expr) (more : List Pattern) : Prop :=
  ∃ ps, parameters? items false = some ps ∧ r = .parameters (ps ++ more) (slice start c.left)

/-- An expression in parentheses, or a sequence that ends with it. -/
def Parenthesized.IsValue (r : Parenthesized) (e : Expr) : Prop :=
  ∃ text inner, r = .value (.paren text inner) ∧ (inner = e ∨ ∃ all, inner = .sequence all)

/-- What a round of reading in parentheses comes to. -/
theorem parenStep_cases {r : List Expr ⊕ Parenthesized}
    (h : g.parenStep m start inner items c = some (r, c')) :
    (c.next.token = .punctuator .ellipsis ∧ ∃ rest c₁, g.bindingRest m c = some (rest, c₁) ∧
        c₁.next.token = .punctuator .closeParen ∧ c' = .front .inside c₁.next.rest ∧
        ∃ p, r = .inr p ∧ p.IsParameters start c' items.reverse [rest]) ∨
      (c.next.token = .punctuator .closeParen ∧ c' = .front .inside c.next.rest ∧
        ∃ p, r = .inr p ∧ p.IsParameters start c' items.reverse []) ∨
      (c.next.token ≠ .punctuator .ellipsis ∧ c.next.token ≠ .punctuator .closeParen ∧
        ∃ e c₁, g.assignment m.withIn c = some (e, c₁) ∧ c' = .front .inside c₁.next.rest ∧
          (c₁.next.token = .punctuator .comma ∧ r = .inl (e :: items) ∨
            c₁.next.token = .punctuator .closeParen ∧ ∃ p, r = .inr p ∧
              (p.IsValue e ∨ p.IsParameters start c' (e :: items).reverse []))) := by
  have answered {params : Option (List Pattern)} {c : Cursor}
      (h : (asParameters start params >>= fun p => pure (.inr p) :
        Parser (List Expr ⊕ Parenthesized)) c = some (r, c')) :
      c' = c ∧ ∃ ps, params = some ps ∧ r = .inr (.parameters ps (slice start c.left)) := by
    obtain ⟨p, c₁, ha, h⟩ := Parser.bind_eq_some.mp h
    obtain ⟨rfl, rfl⟩ := Parser.pure_eq_some.mp h
    obtain ⟨rfl, ps, rfl, rfl⟩ := asParameters_eq_some ha
    exact ⟨rfl, ps, rfl, rfl⟩
  unfold parenStep at h
  rw [Parser.sees_bind, Parser.peek_bind] at h
  by_cases he : c.next.token = .punctuator .ellipsis
  · rw [if_pos (by simp [Lexeme.is, he])] at h
    obtain ⟨rest, c₁, hr, h⟩ := Parser.bind_eq_some.mp h
    obtain ⟨_, c₂, hx, h⟩ := Parser.bind_eq_some.mp h
    obtain ⟨hclose, rfl⟩ := Parser.expect_eq_some.mp hx
    obtain ⟨rfl, ps, hps, rfl⟩ := answered h
    obtain ⟨first, hf, rfl⟩ := Option.map_eq_some_iff.mp hps
    exact .inl ⟨he, rest, c₁, hr, hclose, rfl, _, rfl, first, hf, rfl⟩
  · rw [if_neg (by simp [Lexeme.is, he]), Parser.sees_bind, Parser.peek_bind] at h
    by_cases hclose : c.next.token = .punctuator .closeParen
    · rw [if_pos (by simp [Lexeme.is, hclose])] at h
      obtain ⟨_, c₁, ha, h⟩ := Parser.bind_eq_some.mp h
      obtain ⟨-, rfl⟩ := Parser.advance_eq_some.mp ha
      obtain ⟨rfl, ps, hps, rfl⟩ := answered h
      exact .inr (.inl ⟨hclose, rfl, _, rfl, ps, hps, by rw [List.append_nil]⟩)
    · rw [if_neg (by simp [Lexeme.is, hclose])] at h
      obtain ⟨e, c₁, hi, h⟩ := Parser.bind_eq_some.mp h
      refine .inr (.inr ⟨he, hclose, e, c₁, hi, ?_⟩)
      by_cases hc : c₁.next.token = .punctuator .comma
      · rw [(Parser.accept_accepts .comma).bind_true hc] at h
        obtain ⟨rfl, rfl⟩ := Parser.pure_eq_some.mp h
        exact ⟨rfl, .inl ⟨hc, rfl⟩⟩
      · rw [(Parser.accept_accepts .comma).bind_false hc] at h
        obtain ⟨text, c₂, ht, h⟩ := Parser.bind_eq_some.mp h
        obtain ⟨-, rfl⟩ := Prod.mk.inj (Option.some.inj ht)
        obtain ⟨_, c₃, hx, h⟩ := Parser.bind_eq_some.mp h
        obtain ⟨hclose, rfl⟩ := Parser.expect_eq_some.mp hx
        obtain ⟨arrow, c₄, ha, h⟩ := Parser.bind_eq_some.mp h
        obtain ⟨rfl, rfl⟩ := Prod.mk.inj (Option.some.inj ha)
        split at h
        · obtain ⟨rfl, ps, hps, rfl⟩ := answered h
          exact ⟨rfl, .inr ⟨hclose, _, rfl, .inr ⟨ps, hps, by rw [List.append_nil]⟩⟩⟩
        · obtain ⟨rfl, rfl⟩ := Parser.pure_eq_some.mp h
          refine ⟨rfl, .inr ⟨hclose, _, rfl, .inl ⟨_, _, rfl, ?_⟩⟩⟩
          cases items with
          | nil => exact .inl rfl
          | cons _ _ => exact .inr ⟨_, rfl⟩

/-- The items in parentheses stand for the parameters that are read in their place. -/
theorem listed_parameter (hg : g.Covers m) {n : Nat} {params : List Pattern} {text : String}
    (hb : ∀ e ∈ items, e.isBare = true) (before : Bool)
    (h : Parser.iterate n (g.parenStep m start inner) items c =
      some (.parameters params text, c')) :
    text = slice start c'.left ∧ ∃ k ≤ n, ∃ read new comma, List.Forall₂ Binds items read ∧
      params = read.reverse ++ new ∧ Listed .closeParen (g.parameter m) k before c new comma c' := by
  induction n generalizing items c before with
  | zero => cases h
  | succ n ih =>
    rw [Parser.iterate_succ] at h
    obtain ⟨r, c₁, hs, hr⟩ := Parser.bind_eq_some.mp h
    rcases parenStep_cases hs with ⟨he, rest, c₂, hrest, hclose, rfl, p, rfl, ps, hps, rfl⟩ |
      ⟨hclose, rfl, p, rfl, ps, hps, rfl⟩ | ⟨he, hclose, e, c₂, hi, rfl, hc⟩
    · obtain ⟨hparams, rfl⟩ := Parser.pure_eq_some.mp hr
      obtain ⟨rfl, rfl⟩ := Parenthesized.parameters.inj hparams
      refine ⟨rfl, 1, by omega, ps.reverse, [rest], false, binds_of_reverse hb hps,
        by rw [List.reverse_reverse],
        .last (by rw [he]; nofun) ?_ (by rw [hclose]; nofun) hclose⟩
      unfold parameter
      rw [Parser.sees_bind, Parser.peek_bind, if_pos (by simp [Lexeme.is, he]),
        Parser.bind_of_eq_some hrest]
      exact sees_check hclose _
    · obtain ⟨hparams, rfl⟩ := Parser.pure_eq_some.mp hr
      obtain ⟨rfl, rfl⟩ := Parenthesized.parameters.inj hparams
      exact ⟨rfl, 1, by omega, ps.reverse, [], before, binds_of_reverse hb hps,
        by rw [List.reverse_reverse], .done hclose⟩
    · have hbare : ∀ x ∈ e :: items, x.isBare = true := by
        rintro x (_ | ⟨_, hx⟩)
        · exact hg.bare hi
        · exact hb x hx
      have parameter {pattern : Pattern} (h : Binds e pattern) :
          g.parameter m c = some (pattern, c₂) := by
        obtain ⟨target, ht, hp⟩ := h
        unfold Grammar.parameter
        rw [Parser.sees_bind, Parser.peek_bind, if_neg (by simp [Lexeme.is, he])]
        exact hg.item hi ht hp
      rcases hc with ⟨hcomma, rfl⟩ | ⟨hstop, p, rfl, hp⟩
      · obtain ⟨rfl, k, hk, read, new, comma, hread, rfl, hl⟩ := ih hbare true hr
        obtain ⟨q, qs, hq, hqs, rfl⟩ := List.forall₂_cons_left_iff.mp hread
        exact ⟨rfl, k + 1, by omega, qs, q :: new, comma, hqs, by simp,
          .more hclose (parameter hq) hcomma hl⟩
      · obtain ⟨hparams, rfl⟩ := Parser.pure_eq_some.mp hr
        rcases hp with ⟨_, _, rfl, -⟩ | ⟨ps, hps, rfl⟩
        · cases hparams
        obtain ⟨rfl, rfl⟩ := Parenthesized.parameters.inj hparams
        obtain ⟨q, qs, hq, hqs, hread⟩ := List.forall₂_cons_left_iff.mp (binds_of_reverse hbare hps)
        refine ⟨rfl, 1, by omega, qs, [q], false, hqs, ?_,
          .last hclose (parameter hq) (by rw [hstop]; nofun) hstop⟩
        rw [List.append_nil, ← List.reverse_reverse ps, hread, List.reverse_cons]

/-- A parameter list, parameter by parameter. -/
theorem parameters_iff_listed {params : List Pattern} {text : String} :
    g.parameters m c = some ((params, text), c') ↔ c.next.token = .punctuator .openParen ∧
      text = slice c.next.start c'.left ∧ ∃ k ≤ g.fuel, ∃ comma,
        Listed .closeParen (g.parameter m) k false (.front .inside c.next.rest) params comma c' := by
  have run : g.parameters m = Parser.peek >>= fun next => Parser.expect .openParen >>= fun _ =>
      g.listUntil .closeParen (g.parameter m) >>= fun items =>
        Parser.textFrom next.start >>= fun text => pure (items.1, text) := rfl
  rw [run, Parser.peek_bind, Parser.bind_eq_some]
  constructor
  · rintro ⟨_, c₁, hx, h⟩
    obtain ⟨ho, rfl⟩ := Parser.expect_eq_some.mp hx
    obtain ⟨⟨items, comma⟩, c₂, hl, h⟩ := Parser.bind_eq_some.mp h
    obtain ⟨hr, rfl⟩ := Prod.mk.inj (Option.some.inj h)
    obtain ⟨rfl, rfl⟩ := Prod.mk.inj hr
    obtain ⟨k, hk, hl⟩ := listUntil_iff.mp hl
    exact ⟨ho, rfl, k, hk, comma, hl⟩
  · rintro ⟨ho, rfl, k, hk, comma, hl⟩
    refine ⟨(), _, Parser.expect_of_token ho, ?_⟩
    rw [Parser.bind_of_eq_some (listUntil_iff.mpr ⟨k, hk, hl⟩)]
    rfl

/-- The parameters before an arrow are what is read in their place as a parameter list. -/
theorem parameters_of_parenthesized (hg : g.Covers m) {params : List Pattern} {text : String}
    (h : g.parenthesized m c = some (.parameters params text, c')) :
    g.parameters m c = some ((params, text), c') := by
  replace h : (Parser.expect .openParen >>= fun _ => Parser.peek >>= fun inner =>
      g.parenItems m c.next.start inner.start) c = some (.parameters params text, c') := h
  obtain ⟨_, c₁, hx, h⟩ := Parser.bind_eq_some.mp h
  obtain ⟨hopen, rfl⟩ := Parser.expect_eq_some.mp hx
  rw [Parser.peek_bind, parenItems_eq] at h
  obtain ⟨rfl, k, hk, read, new, comma, hread, rfl, hl⟩ := listed_parameter hg (by simp) false h
  cases hread
  exact parameters_iff_listed.mpr ⟨hopen, rfl, k, hk, comma, hl⟩

end Rounds

end Grammar

end Collector.Script
