import Collector.Proofs.Script.Declarations

/-!
# Texts that are cut out

What was read somewhere in a script can be cut out, from its first token up to where it ends, and
put in front of a closer in another text. There it is read as what it was.
-/

namespace Collector.Script

open Relation

variable {α : Type} {c c' : Cursor} {a : α}

/-- A token stands where the white space before it ends. -/
theorem Cursor.begins (h : c.next.token.isReal = true) : Begins c.next.newline c.next.start := by
  rw [c.next_eq] at h ⊢
  cases hs : skipBefore c.origin c.left with
  | none => simp [lex, hs, Token.isReal] at h
  | some found =>
    obtain ⟨newline, start⟩ := found
    simp only [lex, hs] at h ⊢
    refine (skipBefore_takes hs ?_).1
    rintro rfl
    cases h

theorem Cursor.tokenAt_start (h : c.next.token.isReal = true) :
    tokenAt c.next.start = (c.next.token, c.next.rest) := by
  rw [c.next_eq] at h ⊢
  cases hs : skipBefore c.origin c.left with
  | none => simp [lex, hs, Token.isReal] at h
  | some found =>
    obtain ⟨newline, start⟩ := found
    simp [lex, hs]

/-- A token is read alike without the gap before it, on the line that it then stands on. -/
theorem Cursor.next_of_start (h : c.next.token.isReal = true) :
    (Cursor.front .inside c.next.start).next = { c.next with newline := false } := by
  have hb : Begins false c.next.start := { c.begins h with noClosing := by simp }
  show lex .inside c.next.start = _
  rw [lex_of_begins hb, c.tokenAt_start h]

theorem TransGen.isReal (h : TransGen Move c c') : c.next.token.isReal = true := by
  obtain ⟨c₁, hm, -⟩ := TransGen.head'_iff.mp h
  exact hm.real

theorem origin_of_moves (h : TransGen Move c c') : c'.origin = .inside := by
  obtain ⟨c₁, -, hm⟩ := TransGen.tail'_iff.mp h
  exact hm.origin

/-- What one parser reads the other one reads without the gap before it. -/
theorem Opens.settled {σ : Seam} {halts : Cursor → Prop} {p q : Parser α}
    (h : Opens σ halts p q) (hp : p c = some (a, c')) (hok : σ.Ok halts c') :
    (Cursor.front .inside (σ.shift c.next.start)).next.start = σ.shift c.next.start ∧
      q (.front .inside (σ.shift c.next.start)) = some (a, σ.moved c') := by
  have hnext : (σ.moved c).next = σ.shiftLexeme c.next :=
    (Seam.passed_of_moves (h.moves hp) hok).sees.next
  have hd := Cursor.next_of_start (c := σ.moved c) (by rw [hnext]; exact TransGen.isReal (h.moves hp))
  rw [hnext] at hd
  exact ⟨congrArg Lexeme.start hd, h.meets ⟨false, hd⟩ hp hok⟩

/-! ## In front of a closer -/

/-- The seam behind what was read, where a closer and other text may stand. -/
def Seam.behind (c : Cursor) (k : Closer) (rest : List Char) : Seam :=
  ⟨c.left, k.char :: rest, .closer k, .inr ⟨rest, rfl⟩, nofun⟩

theorem next_of_closer (k : Closer) (rest : List Char) :
    (Cursor.front .inside (k.char :: rest)).next =
      ⟨.punctuator k.punctuator, false, k.char :: rest, rest⟩ :=
  next_of_bracket (mem_brackets k) rest

section Behind

variable (ho : c.origin = .inside) (k : Closer) (rest : List Char)

include ho

theorem Seam.behind_moved : (behind c k rest).moved c = .front .inside (k.char :: rest) := by
  rw [moved, ho]
  exact congrArg (Cursor.front .inside) (shift_old _)

theorem Seam.behind_atSeam : (behind c k rest).AtSeam c where
  left := List.suffix_rfl
  start := c.start_le_left
  token := by rw [behind_moved ho, next_of_closer]; rfl
  rest := by rw [behind_moved ho, next_of_closer]; rfl

end Behind

/-- A parser reads a text as a value wherever the text stands in front of a closer. -/
def ReadsText (p : Grammar → Parser α) (text : String) (a : α) : Prop :=
  ∀ (k : Closer) (rest : List Char),
    (Cursor.front .inside (text.toList ++ k.char :: rest)).next.start =
        text.toList ++ k.char :: rest ∧
      ∀ᶠ g in large, p g (.front .inside (text.toList ++ k.char :: rest)) =
        some (a, .front .inside (k.char :: rest))

/-- What was read is read without the gap before it and in front of a closer. -/
theorem readsText {p q : Grammar → Parser α} {fuel level : Nat}
    (hp : ∀ {σ : Seam} {g g' : Grammar}, Agrees σ g g' → Opens σ (fun _ => True) (p g) (q g'))
    (h : p (grammar fuel level) c = some (a, c')) :
    c.next.start = (slice c.next.start c'.left).toList ++ c'.left ∧
      ReadsText q (slice c.next.start c'.left) a := by
  have hm : TransGen Move c c' := (hp (agrees_same (Nat.le_refl fuel) (Nat.le_refl level))).moves h
  have ho := origin_of_moves hm
  have hstart := toList_slice (suffix_of_moves_taken hm)
  refine ⟨hstart.symm, fun k rest => ?_⟩
  have hshift : (Seam.behind c' k rest).shift c.next.start =
      (slice c.next.start c'.left).toList ++ k.char :: rest := by
    conv_lhs => rw [← hstart]
    exact Seam.shift_append (.behind c' k rest) _
  have settled {fuel' level' : Nat} (hf : fuel ≤ fuel') (hl : level ≤ level') :=
    (hp (agrees_grammar hf hl)).settled h (.inr ⟨Seam.behind_atSeam ho k rest, trivial⟩)
  rw [hshift, Seam.behind_moved ho] at settled
  exact ⟨(settled le_rfl le_rfl).1,
    eventually_large.mpr ⟨fuel, level, fun _ _ hf hl => (settled hf hl).2⟩⟩

end Collector.Script
