import Mathlib.Logic.Relation
import Collector.Proofs.Script.Spelling
import Collector.Script.Parser

/-!
# Two texts with a common front

A parser that reads the front of a text reads it in the same way when other text stands behind it.
This module says what that means. A `Seam` is a pair of texts that may stand behind a common front:
`old` in the text that was read, `new` in the text that is read in its place. The new text begins
with a closer, or is empty, or is the old one.

* `Seam.shift` and `Seam.moved` carry a text and a cursor from the old side to the new one.
* `Move` is what one token, or one piece of text between tokens, does to a cursor.
* `Seam.Sees`, `Seam.AtSeam` and `Seam.Passed` tell which tokens around a cursor the two sides
  share. `Seam.passed_of_move` is the invariant: a cursor from which a good one is reached is good.
-/

namespace Collector.Script

open Relation

/-! ## Seams -/

/-- Two texts behind a common front. -/
structure Seam where
  old : List Char
  new : List Char
  /-- What the new text begins with. -/
  stop : Stop
  fits : old = new ∨ stop.Begins new
  /-- Where the new text ends, the old one does not. -/
  goesOn : stop = .finish → old ≠ []

namespace Seam

variable (σ : Seam)

/-- A text of the old side with the new text behind its front. -/
def shift (text : List Char) : List Char := text.take (text.length - σ.old.length) ++ σ.new

@[simp] theorem shift_append (front : List Char) : σ.shift (front ++ σ.old) = front ++ σ.new := by
  simp [shift]

theorem shift_old : σ.shift σ.old = σ.new := σ.shift_append []

/-- What stands between two places does not depend on what stands behind both. -/
theorem slice_shift (start front : List Char) :
    slice (σ.shift start) (front ++ σ.new) = slice start (front ++ σ.old) := by
  unfold slice shift
  rw [List.take_append_of_le_length (by simp), List.take_take]
  congr 2
  simp
  omega

/-- A lexeme of the old side on the new one. -/
def shiftLexeme (l : Lexeme) : Lexeme := { l with start := σ.shift l.start, rest := σ.shift l.rest }

/-- The same place on the new side. -/
def moved (c : Cursor) : Cursor := .front c.origin (σ.shift c.left)

end Seam

theorem Cursor.eq_front (c : Cursor) : c = .front c.origin c.left := by
  obtain ⟨left, origin, next, rfl⟩ := c
  rfl

theorem Cursor.ext_of_left {c d : Cursor} (ho : c.origin = d.origin) (hl : c.left = d.left) :
    c = d := by
  rw [c.eq_front, d.eq_front, ho, hl]

/-! ## Moves -/

/-- Whether text that is no token may stand behind a token: of a template or of a regular
expression. -/
def Token.opensText : Token → Bool
  | .punctuator .backtick | .punctuator .closeBrace | .punctuator .slash
  | .punctuator .slashAssign => true
  | _ => false

/-- The second cursor stands behind the next token of the first one, or behind the text that this
token opens. -/
structure Move (c c' : Cursor) : Prop where
  real : c.next.token.isReal = true
  origin : c'.origin = .inside
  left : c'.left = c.next.rest ∨ c.next.token.opensText = true ∧ Tight c.next.rest c'.left

namespace Move

variable {c c' : Cursor}

theorem suffix (h : Move c c') : c'.left <:+ c.next.rest := by
  rcases h.left with hl | ⟨-, hl⟩
  · exact hl ▸ List.suffix_rfl
  · exact hl.suffix

/-- The cursor behind the next token. -/
theorem next (h : c.next.token.isReal = true) : Move c (.front .inside c.next.rest) :=
  ⟨h, rfl, .inl rfl⟩

/-- Behind most tokens there is one place to go. -/
theorem eq_next (h : Move c c') (ht : c.next.token.opensText = false) :
    c' = .front .inside c.next.rest := by
  refine Cursor.ext_of_left h.origin ?_
  rcases h.left with hl | ⟨hl, -⟩
  · exact hl
  · simp [ht] at hl

end Move

theorem Cursor.next_takes {c : Cursor} (h : c.next.token.isReal = true) :
    ∃ gap taken, taken ≠ [] ∧ c.left = gap ++ (taken ++ c.next.rest) ∧
      c.next.start = taken ++ c.next.rest ∧
      ∀ new, Shut c.next.rest new → ¬ Parts c.next.token c.next.rest new →
        lex c.origin (gap ++ (taken ++ new)) =
          ⟨c.next.token, c.next.newline, taken ++ new, new⟩ := by
  have := c.next_eq
  rw [this] at h ⊢
  exact lex_takes h

theorem Cursor.rest_lt_start {c : Cursor} (h : c.next.token.isReal = true) :
    c.next.rest.length < c.next.start.length := by
  obtain ⟨gap, taken, hne, -, hs, -⟩ := c.next_takes h
  have := List.length_pos_iff.mpr hne
  rw [hs]
  simp
  omega

theorem Cursor.start_le_left (c : Cursor) : c.next.start.length ≤ c.left.length := by
  rw [c.next_eq]
  exact (lex_start_suffix _ _).length_le

/-- Nothing stands behind the last token. -/
theorem Cursor.start_of_finish {c : Cursor} (h : c.next.token = .finish) : c.next.start = [] := by
  rw [c.next_eq] at h ⊢
  unfold lex at h ⊢
  cases hs : skipBefore c.origin c.left with
  | none =>
    rw [hs] at h
    cases h
  | some found =>
    obtain ⟨newline, start⟩ := found
    rw [hs] at h
    cases start with
    | nil => rfl
    | cons d text =>
      dsimp only at h
      rw [tokenAt_cons] at h
      cases hscan : tokenScan (d :: text) with
      | none =>
        rw [hscan] at h
        cases h
      | some scanned =>
        rw [hscan] at h
        exact (tokenScan_ne_finish hscan h).elim

/-! ## What the two sides share -/

namespace Seam

variable (σ : Seam)

/-- The next token stands before the seam, and is the same on both sides. -/
structure Sees (c : Cursor) : Prop where
  left : σ.old <:+ c.left
  start : σ.old <:+ c.next.start
  rest : σ.old <:+ c.next.rest
  next : (σ.moved c).next = σ.shiftLexeme c.next

/-- No token stands between the cursor and the seam, and on the new side a closer or the end comes
next. -/
structure AtSeam (c : Cursor) : Prop where
  left : σ.old <:+ c.left
  start : c.next.start.length ≤ σ.old.length
  token : (σ.moved c).next.token = σ.stop.token
  rest : (σ.moved c).next.rest = σ.new.tail

/-- The next token stands before the seam; behind a word one sees as far as the seam. -/
structure Passed (c : Cursor) : Prop where
  sees : σ.Sees c
  word : ∀ id escaped, c.next.token = .word id escaped →
    σ.Sees (.front .inside c.next.rest) ∨ σ.AtSeam (.front .inside c.next.rest)

/-- A place where a parser may stop: before the next token, or at the seam if `halts` holds. -/
def Ok (halts : Cursor → Prop) (c : Cursor) : Prop := σ.Passed c ∨ σ.AtSeam c ∧ halts c

variable {σ} {halts : Cursor → Prop} {c c' : Cursor}

theorem Ok.left (h : σ.Ok halts c) : σ.old <:+ c.left := by
  rcases h with h | ⟨h, -⟩
  · exact h.sees.left
  · exact h.left

theorem shift_same (h : σ.old = σ.new) {text : List Char} (ht : σ.old <:+ text) :
    σ.shift text = text := by
  obtain ⟨front, rfl⟩ := ht
  rw [shift_append, h]

/-- A good place does not part a question mark from a point. -/
theorem not_parts (hm : Move c c') (hok : σ.Ok halts c') {front : List Char}
    (hn : σ.stop.Begins σ.new) (hrest : front ++ σ.old = c.next.rest) :
    ¬ Parts c.next.token c.next.rest (front ++ σ.new) := by
  rintro ⟨hq, tail, tail', ho, hne, hd, hd'⟩
  rw [← hrest] at ho
  match front with
  | [] =>
    have hclosed := hn.isClosed
    rw [show σ.new = '.' :: tail' from hne] at hclosed
    cases hclosed
  | d :: e :: front =>
    obtain ⟨-, rfl⟩ := List.cons.inj ho
    obtain ⟨-, rfl⟩ := List.cons.inj hne
    simp at hd hd'
    simp [hd] at hd'
  | [d] =>
    obtain ⟨rfl, rfl⟩ : d = '.' ∧ σ.old = tail := List.cons.inj ho
    have hc : c' = .front .inside ('.' :: σ.old) := by
      rw [hm.eq_next (by rw [hq]; rfl), ← hrest]
      rfl
    obtain ⟨hstart, hrest'⟩ := lex_point hn.isClosed hd
    rcases hok with hp | ⟨hp, -⟩
    · subst hc
      refine hrest' ?_ hp.sees.rest
      have := congrArg Lexeme.token hp.sees.next
      rw [moved, show (Cursor.front .inside ('.' :: σ.old)).left = ['.'] ++ σ.old from rfl,
        shift_append] at this
      exact this.symm
    · have := hp.start
      rw [hc, show (Cursor.front .inside ('.' :: σ.old)).next.start = '.' :: σ.old from hstart]
        at this
      exact absurd this (by simp only [List.length_cons]; omega)

/-- The next token is the same on both sides if a good place stands behind it. -/
theorem sees_of_move (hm : Move c c') (hok : σ.Ok halts c') : σ.Sees c := by
  obtain ⟨gap, taken, hne, hleft, hstart, same⟩ := c.next_takes hm.real
  obtain ⟨front, hrest⟩ : σ.old <:+ c.next.rest := hok.left.trans hm.suffix
  have hl : c.left = gap ++ (taken ++ front) ++ σ.old := by
    rw [hleft, ← hrest]
    simp
  have hs : c.next.start = taken ++ front ++ σ.old := by
    rw [hstart, ← hrest]
    simp
  refine ⟨⟨_, hl.symm⟩, ⟨_, hs.symm⟩, ⟨front, hrest⟩, ?_⟩
  rcases σ.fits with hsame | hn
  · have hmoved : σ.moved c = c := by
      rw [moved, σ.shift_same hsame ⟨_, hl.symm⟩]
      exact c.eq_front.symm
    rw [hmoved, shiftLexeme, σ.shift_same hsame ⟨_, hs.symm⟩, σ.shift_same hsame ⟨front, hrest⟩]
  · have hshut : Shut c.next.rest (front ++ σ.new) := by
      rw [← hrest]
      exact (Shut.closed _ hn.isClosed).append front
    have := same _ hshut (not_parts hm hok hn hrest)
    have hshift : σ.shift c.left = gap ++ (taken ++ (front ++ σ.new)) := by
      rw [hl, shift_append]
      simp
    rw [moved, hshift]
    show lex c.origin _ = _
    rw [this, shiftLexeme, hs, ← hrest, shift_append, shift_append, List.append_assoc]

/-- A place from which a good one is reached is good, and stands before a token. -/
theorem passed_of_move (hm : Move c c') (hok : σ.Ok halts c') : σ.Passed c := by
  refine ⟨sees_of_move hm hok, fun id escaped hw => ?_⟩
  rw [← hm.eq_next (by rw [hw]; rfl)]
  rcases hok with hp | ⟨hp, -⟩
  · exact .inl hp.sees
  · exact .inr hp

theorem Passed.of_move (hm : Move c c') (hp : σ.Passed c') : σ.Passed c :=
  have hok : σ.Ok (fun _ => False) c' := .inl hp
  passed_of_move hm hok

theorem passed_of_moves (hm : TransGen Move c c') (hok : σ.Ok halts c') : σ.Passed c := by
  induction hm using TransGen.head_induction_on with
  | single hm => exact passed_of_move hm hok
  | head hm _ ih => exact ih.of_move hm

theorem Passed.of_moves (hm : TransGen Move c c') (hp : σ.Passed c') : σ.Passed c :=
  have hok : σ.Ok (fun _ => False) c' := .inl hp
  passed_of_moves hm hok

theorem ok_of_moves (hm : ReflTransGen Move c c') (hok : σ.Ok halts c') : σ.Ok halts c := by
  rcases reflTransGen_iff_eq_or_transGen.mp hm with rfl | hm
  · exact hok
  · exact .inl (passed_of_moves hm hok)

/-- At the seam there is no token to take. -/
theorem Passed.not_atSeam (hp : σ.Passed c) (hs : σ.AtSeam c) : False := by
  have ht : c.next.token = σ.stop.token := by
    have := congrArg Lexeme.token hp.sees.next
    rw [hs.token] at this
    exact this.symm
  cases hstop : σ.stop with
  | closer k =>
    have := c.rest_lt_start (by rw [ht, hstop]; rfl)
    have := hp.sees.rest.length_le
    have := hs.start
    omega
  | finish =>
    have hstart := hp.sees.start
    rw [Cursor.start_of_finish (ht.trans (by rw [hstop]; rfl))] at hstart
    exact σ.goesOn hstop (List.suffix_nil.mp hstart)

theorem AtSeam.not_moves (hs : σ.AtSeam c) (hm : TransGen Move c c') (hok : σ.Ok halts c') :
    False :=
  (passed_of_moves hm hok).not_atSeam hs

end Seam

/-- Behind a word stands one place only. -/
theorem moves_behind_word {c c' : Cursor} (h : TransGen Move c c')
    (hw : c.next.token.opensText = false) :
    ReflTransGen Move (.front .inside c.next.rest) c' := by
  obtain ⟨c₁, hm, hrest⟩ := TransGen.head'_iff.mp h
  rwa [← hm.eq_next hw]

end Collector.Script
