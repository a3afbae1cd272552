import Mathlib.Order.Filter.AtTopBot.Basic
import Collector.Proofs.Script.Agreement

/-!
# Bodies and their texts

The texts of the statements of a body, put together, are the text of the body. A body is read one
statement after another, and a grammar that reads it can be replaced by a larger one, in any mode
that allows as much. So what a text is read as is said of `large` grammars: what one grammar reads,
they all read, in front of another text too.
-/

namespace Collector.Script

open Relation

variable {α : Type}

/-! ## Texts between two places -/

theorem toList_slice {start stop : List Char} (h : stop <:+ start) :
    (slice start stop).toList ++ stop = start := by
  obtain ⟨front, rfl⟩ := h
  simp [slice]

theorem Cursor.start_suffix (c : Cursor) : c.next.start <:+ c.left := by
  rw [c.next_eq]
  exact lex_start_suffix c.origin c.left

theorem Cursor.rest_suffix {c : Cursor} (h : c.next.token.isReal = true) :
    c.next.rest <:+ c.next.start := by
  obtain ⟨gap, taken, -, -, hs, -⟩ := c.next_takes h
  exact ⟨taken, hs.symm⟩

theorem Move.suffix_left {c c' : Cursor} (h : Move c c') : c'.left <:+ c.next.start :=
  h.suffix.trans (c.rest_suffix h.real)

theorem suffix_of_moves {c c' : Cursor} (h : ReflTransGen Move c c') : c'.left <:+ c.left := by
  induction h with
  | refl => exact List.suffix_rfl
  | tail _ hm ih => exact (hm.suffix_left.trans (Cursor.start_suffix _)).trans ih

theorem suffix_of_moves_taken {c c' : Cursor} (h : TransGen Move c c') :
    c'.left <:+ c.next.start := by
  obtain ⟨c₁, hm, hrest⟩ := TransGen.head'_iff.mp h
  exact (suffix_of_moves hrest).trans hm.suffix_left

/-! ## Grammars that read the same text -/

/-- The seam behind a text and itself. -/
def Seam.same : Seam := ⟨[], [], .closer .brace, .inl rfl, nofun⟩

namespace Seam

@[simp] theorem same_shift (text : List Char) : same.shift text = text := by
  simp [same, shift]

@[simp] theorem same_moved (c : Cursor) : same.moved c = c := by
  rw [moved, same_shift, ← c.eq_front]

theorem same_sees (c : Cursor) : same.Sees c :=
  ⟨List.nil_suffix, List.nil_suffix, List.nil_suffix, by simp [shiftLexeme]⟩

theorem same_passed (c : Cursor) : same.Passed c := ⟨same_sees c, fun _ _ _ => .inl (same_sees _)⟩

end Seam

section Same

variable {p q : Parser α} {c c' : Cursor} {a : α}

theorem Follows.same (h : Follows .same never p q) (hp : p c = some (a, c')) :
    q c = some (a, c') := by
  have := h.keeps hp (.of_passed (Seam.same_passed c'))
  simpa using this

end Same

@[simp] theorem Mode.widen_false (m : Mode) : m.widen false = m := by simp [Mode.widen]

/-! ## Bodies, statement by statement -/

namespace Grammar

variable {g g' : Grammar} {m m' : Mode}

/-- The statements read so far, and whether directives may follow. -/
abbrev Prefix := List Item × Bool

/-- One statement of a body is read. -/
def Reads (g : Grammar) (m : Mode) (p q : Prefix × Cursor) : Prop :=
  endsBody p.2.next = false ∧ ∃ x, g.item m p.1.2 p.2 = some (x, q.2) ∧
    q.1 = (x.1 :: p.1.1, x.2)

/-- The body that has been read up to where it ends. -/
def bodyOf (p : Prefix × Cursor) : Body := ⟨p.1.1.reverse, slice p.2.left p.2.next.start⟩

theorem reads_of_iterate {n : Nat} {state : Prefix} {c c' : Cursor} {body : Body}
    (h : Parser.iterate n (g.bodyStep m) state c = some (body, c')) :
    ∃ q : Prefix × Cursor, ReflTransGen (g.Reads m) (state, c) q ∧ q.2 = c' ∧
      endsBody c'.next = true ∧ body = bodyOf q := by
  induction n generalizing state c with
  | zero => cases h
  | succ n ih =>
    rw [Parser.iterate_succ] at h
    obtain ⟨r, c₁, hs, hr⟩ := Parser.bind_eq_some.mp h
    rcases bodyStep_cases hs with ⟨he, rfl, rfl⟩ | ⟨he, x, hx, rfl⟩
    · obtain ⟨rfl, rfl⟩ := Parser.pure_eq_some.mp hr
      exact ⟨(state, c₁), .refl, rfl, he, rfl⟩
    · obtain ⟨q, hq, rest⟩ := ih hr
      exact ⟨q, .head ⟨he, x, hx, rfl⟩ hq, rest⟩

/-- A body is read one statement after another. -/
theorem reads_of_body {c c' : Cursor} {body : Body} (h : g.body m c = some (body, c')) :
    ∃ q : Prefix × Cursor, ReflTransGen (g.Reads m) (([], true), c) q ∧ q.2 = c' ∧
      endsBody c'.next = true ∧ body = bodyOf q := by
  rw [body_eq] at h
  exact reads_of_iterate h

/-- Any grammar that reads the statements one after another reads the body, with fuel enough. -/
theorem iterate_of_reads {p q : Prefix × Cursor} (h : ReflTransGen (g.Reads m) p q)
    (he : endsBody q.2.next = true) :
    ∃ n, ∀ (g' : Grammar) (m' : Mode), (∀ p q, g.Reads m p q → g'.Reads m' p q) → ∀ k, n ≤ k →
      Parser.iterate k (g'.bodyStep m') p.1 p.2 = some (bodyOf q, q.2) := by
  induction h using ReflTransGen.head_induction_on with
  | refl =>
    refine ⟨1, fun g' m' _ k hk => ?_⟩
    obtain ⟨k, rfl⟩ := Nat.exists_eq_add_of_le' hk
    rw [Parser.iterate_succ, Parser.bind_of_eq_some (bodyStep_end he)]
    rfl
  | head hm _ ih =>
    obtain ⟨n, hn⟩ := ih
    refine ⟨n + 1, fun g' m' lifts k hk => ?_⟩
    obtain ⟨k, rfl⟩ := Nat.exists_eq_add_of_le' (Nat.le_trans (Nat.le_add_left 1 n) hk)
    obtain ⟨hc, x, hx, hq⟩ := lifts _ _ hm
    rw [Parser.iterate_succ, Parser.bind_of_eq_some (bodyStep_item hc hx), ← hq]
    exact hn g' m' lifts k (by omega)

/-- What has been read, and what is left. -/
def textAt (p : Prefix × Cursor) : List Char :=
  (String.join (p.1.1.reverse.map Item.source)).toList ++ p.2.left

end Grammar

section Levels

open Grammar

variable {fuel fuel' level level' : Nat} {m : Mode} {c c' : Cursor}

theorem agrees_same (hf : fuel ≤ fuel') (hl : level ≤ level') :
    Agrees .same (grammar fuel level) (grammar fuel' level') := agrees_grammar hf hl

theorem reads_lift (hf : fuel ≤ fuel') (hl : level ≤ level') (inside : Bool)
    {p q : Prefix × Cursor} (h : (grammar fuel level).Reads m p q) :
    (grammar fuel' level').Reads (m.widen inside) p q := by
  obtain ⟨hc, x, hx, hq⟩ := h
  exact ⟨hc, x, ((agrees_same hf hl).item m inside .never p.1.2).follows.same hx, hq⟩

theorem reads_moves {p q : Prefix × Cursor} (h : (grammar fuel level).Reads m p q) :
    TransGen Move p.2 q.2 := by
  obtain ⟨-, x, hx, -⟩ := h
  have item : Leads .same never _ _ :=
    (agrees_same (Nat.le_refl fuel) (Nat.le_refl level)).item m false .never p.1.2
  exact item.moves hx

theorem textAt_of_reads {p q : Prefix × Cursor} (h : (grammar fuel level).Reads m p q) :
    textAt q = textAt p := by
  have hm := reads_moves h
  obtain ⟨-, x, hx, hq⟩ := h
  obtain ⟨s, -, rfl⟩ := item_eq_some.mp hx
  have hsource : (itemOf p.1.2 p.2 s q.2).1.source.toList ++ q.2.left = p.2.left := by
    have htexts : (itemOf p.1.2 p.2 s q.2).1.source =
        slice p.2.left p.2.next.start ++ slice p.2.next.start q.2.left := by
      unfold itemOf
      dsimp only
      split <;> rfl
    rw [htexts, String.toList_append, List.append_assoc, toList_slice (suffix_of_moves_taken hm),
      toList_slice p.2.start_suffix]
  unfold textAt
  rw [hq, ← hsource]
  simp

theorem textAt_of_run {p q : Prefix × Cursor}
    (h : ReflTransGen ((grammar fuel level).Reads m) p q) : textAt q = textAt p := by
  induction h with
  | refl => rfl
  | tail _ hr ih => rw [textAt_of_reads hr, ih]

theorem source_bodyOf (q : Prefix × Cursor) :
    (bodyOf q).source.toList ++ q.2.next.start = textAt q := by
  unfold Body.source bodyOf textAt
  rw [String.toList_append, List.append_assoc, toList_slice q.2.start_suffix]

end Levels

/-! ## Large grammars -/

/-- Grammars with fuel and levels enough. -/
def large : Filter Grammar :=
  Filter.map (fun size : Nat × Nat => grammar size.1 size.2) Filter.atTop

instance : large.NeBot := Filter.map_neBot

theorem eventually_large {P : Grammar → Prop} : (∀ᶠ g in large, P g) ↔
    ∃ fuel level, ∀ fuel' level', fuel ≤ fuel' → level ≤ level' → P (grammar fuel' level') := by
  rw [large, Filter.eventually_map, Filter.eventually_atTop]
  constructor
  · rintro ⟨size, h⟩
    exact ⟨size.1, size.2, fun fuel' level' hf hl => h (fuel', level') ⟨hf, hl⟩⟩
  · rintro ⟨fuel, level, h⟩
    exact ⟨(fuel, level), fun size hs => h size.1 size.2 hs.1 hs.2⟩

theorem exists_grammar {P : Grammar → Prop} (h : ∀ᶠ g in large, P g) :
    ∃ fuel level, P (grammar fuel level) := by
  obtain ⟨fuel, level, h⟩ := eventually_large.mp h
  exact ⟨fuel, level, h fuel level le_rfl le_rfl⟩

/-- The grammar of the level above another one. -/
def Grammar.above (g : Grammar) (fuel : Nat) : Grammar where
  fuel := fuel
  assignment m := g.assignmentExpression m
  operand m level := g.operandAbove m level
  unary m := g.unaryExpression m
  leftHand m := g.leftHandSide m
  callee m := g.newCallee m
  binding m := g.bindingTarget m
  statement m inList := g.anyStatement m inList

/-- A large grammar stands above another large one. -/
theorem eventually_above {P : Grammar → Prop} (h : ∀ᶠ g in large, P g) (n : Nat) :
    ∀ᶠ g in large, ∃ g' fuel, P g' ∧ n ≤ fuel ∧ g = g'.above fuel := by
  obtain ⟨fuel, level, h⟩ := eventually_large.mp h
  refine eventually_large.mpr ⟨max fuel n, level + 1, fun fuel' level' hf hl => ?_⟩
  obtain ⟨level', rfl⟩ := Nat.exists_eq_add_of_le' (Nat.le_trans (Nat.le_add_left 1 level) hl)
  exact ⟨grammar fuel' level', fuel', h fuel' level' (by omega) (by omega), by omega, rfl⟩

theorem eventually_fuel (n : Nat) : ∀ᶠ g in large, n ≤ g.fuel := by
  filter_upwards [eventually_above (Filter.Eventually.of_forall fun _ => trivial) n]
  rintro _ ⟨g, fuel, -, hn, rfl⟩
  exact hn

section Large

variable {σ : Seam} {halts : Cursor → Prop} {p p' : Grammar → Parser α} {fuel level : Nat}
  {c c' : Cursor} {a : α}

/-- What one grammar reads on the old side, all large ones read on the new one. -/
theorem eventually_keeps
    (hp : ∀ {g g' : Grammar}, Agrees σ g g' → Follows σ halts (p g) (p' g'))
    (h : p (grammar fuel level) c = some (a, c')) (hok : σ.Ok halts c') :
    ∀ᶠ g in large, p' g (σ.moved c) = some (a, σ.moved c') :=
  eventually_large.mpr ⟨fuel, level, fun _ _ hf hl =>
    (hp (agrees_grammar hf hl)).keeps h hok⟩

/-- What one grammar reads, all large ones read. -/
theorem eventually_reads
    (hp : ∀ {g g' : Grammar}, Agrees .same g g' → Follows .same never (p g) (p' g'))
    (h : p (grammar fuel level) c = some (a, c')) : ∀ᶠ g in large, p' g c = some (a, c') :=
  eventually_large.mpr ⟨fuel, level, fun _ _ hf hl => (hp (agrees_same hf hl)).same h⟩

/-- What a grammar reads is what large ones read. -/
theorem eq_of_eventually {r r' : α × Cursor}
    (hp : ∀ {g g' : Grammar}, Agrees .same g g' → Follows .same never (p g) (p g'))
    (h : p (grammar fuel level) c = some r) (h' : ∀ᶠ g in large, p g c = some r') : r = r' := by
  obtain ⟨a, c'⟩ := r
  obtain ⟨g, hg, hg'⟩ := ((eventually_reads hp h).and h').exists
  exact Option.some.inj (hg.symm.trans hg')

end Large

/-- Statements that one grammar reads, all large ones read. -/
theorem run_lift {fuel level : Nat} {m : Mode} {p q : Grammar.Prefix × Cursor}
    (h : ReflTransGen ((grammar fuel level).Reads m) p q) :
    ∀ᶠ g in large, ReflTransGen (g.Reads m) p q := by
  refine eventually_large.mpr ⟨fuel, level, fun _ _ hf hl =>
    ReflTransGen.mono (fun p q hr => ?_) p q h⟩
  have := reads_lift hf hl false hr
  rwa [Mode.widen_false] at this

/-- What is read one statement after another is what large grammars read as a body. -/
theorem eventually_body {m : Mode} {c : Cursor} {q : Grammar.Prefix × Cursor}
    (h : ∀ᶠ g in large, ReflTransGen (g.Reads m) (([], true), c) q)
    (he : Grammar.endsBody q.2.next = true) :
    ∀ᶠ g in large, g.body m c = some (Grammar.bodyOf q, q.2) := by
  obtain ⟨fuel, level, h⟩ := exists_grammar h
  obtain ⟨n, hn⟩ := Grammar.iterate_of_reads h he
  have lifts : ∀ᶠ g in large, ∀ p q, (grammar fuel level).Reads m p q → g.Reads m p q := by
    refine eventually_large.mpr ⟨fuel, level, fun _ _ hf hl p q hr => ?_⟩
    have := reads_lift hf hl false hr
    rwa [Mode.widen_false] at this
  filter_upwards [lifts, eventually_fuel n] with g hg hfuel
  rw [Grammar.body_eq]
  exact hn g m hg g.fuel hfuel

end Collector.Script
