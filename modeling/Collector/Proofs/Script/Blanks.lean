import Mathlib.Data.List.TakeWhile
import Collector.Proofs.Script.Cuts

/-!
# Texts without blanks around them

A word holds no blanks, and what was read from one token up to another has none around it. So
trimming leaves either as it is.
-/

namespace Collector.Script

open Collector.Text

theorem Cursor.isWord {c : Cursor} {id : String} {escaped : Bool}
    (h : c.next.token = .word id escaped) : IsWord id := by
  have htoken := c.tokenAt_start (by rw [h]; rfl)
  rw [h] at htoken
  obtain ⟨_, _, -, -, hname⟩ := tokenAt_word htoken
  exact isWord_of_name hname

/-- The text of a word begins like a name and holds no blanks. -/
theorem Cursor.word_solid {c : Cursor} {id : String} {escaped : Bool}
    (h : c.next.token = .word id escaped) : ∃ d tail, c.next.start = d :: tail ++ c.next.rest ∧
      (d = '\\' ∨ isIdentifierStart d = true) ∧ Solid (d :: tail) := by
  have hreal : c.next.token.isReal = true := by rw [h]; rfl
  have ht := c.tokenAt_start hreal
  rw [h] at ht
  obtain ⟨d, tail, hstart, hd, hn⟩ := tokenAt_word ht
  obtain ⟨taken, htaken, hs, -⟩ := name_spelled hn
  have hlt := c.rest_lt_start hreal
  cases taken with
  | nil =>
    rw [List.nil_append] at htaken
    rw [htaken] at hlt
    exact absurd hlt (lt_irrefl _)
  | cons e taken =>
    rw [hstart, List.cons_append] at htaken
    obtain rfl := (List.cons.inj htaken).1
    exact ⟨d, taken, by rw [hstart, htaken, List.cons_append], hd, hs.solid⟩

/-! ## Trimming -/

theorem trim_of_ends {first last : Char} {middle front : List Char}
    (hf : isBlank first = false) (hl : isBlank last = false)
    (h : first :: middle = front ++ [last]) : trim (first :: middle) = first :: middle := by
  have hdrop : (first :: middle).dropWhile isBlank = first :: middle :=
    List.dropWhile_cons_of_neg (by simp [hf])
  unfold trim
  rw [hdrop, h, List.reverse_append, List.reverse_singleton, List.singleton_append,
    List.dropWhile_cons_of_neg (by simp [hl]), List.reverse_cons, List.reverse_reverse]

theorem trim_of_solid {first : Char} {middle : List Char} (h : Solid (first :: middle)) :
    trim (first :: middle) = first :: middle := by
  obtain hnil | ⟨front, last, hlast⟩ := List.eq_nil_or_concat (first :: middle)
  · cases hnil
  · rw [List.concat_eq_append] at hlast
    refine trim_of_ends (h first List.mem_cons_self) (h last ?_) hlast
    rw [hlast]
    exact List.mem_append_right _ List.mem_cons_self

/-! ## Trimming what was read -/

open Relation

variable {c c' : Cursor}

theorem isBlank_of_begins {newline : Bool} {text : List Char} (h : Begins newline text) :
    ∃ first rest, text = first :: rest ∧ isBlank first = false := by
  obtain ⟨first, rest, rfl, hline, hgap⟩ := h.head
  refine ⟨first, rest, rfl, Bool.eq_false_iff.mpr fun hb => ?_⟩
  rcases lineEnd_or_gap_of_blank hb with h | h
  · cases hline.symm.trans h
  · cases hgap.symm.trans h

theorem Move.ends (h : Move c c') :
    ∃ front last, c.next.start = front ++ last :: c'.left ∧ isBlank last = false := by
  have htoken : Tight c.next.start c.next.rest := tokenAt_tight (c.tokenAt_start h.real)
  have htight : Tight c.next.start c'.left := by
    rcases h.left with hl | ⟨-, hl⟩
    · exact hl ▸ htoken
    · exact htoken.trans hl
  refine htight.resolve_left fun heq => ?_
  have hle := h.suffix.length_le
  have hlt := Cursor.rest_lt_start h.real
  rw [heq] at hlt
  exact absurd hlt (Nat.not_lt.mpr hle)

/-- What is read ends without a blank. -/
theorem TransGen.ends (h : TransGen Move c c') :
    ∃ front last, c.next.start = front ++ last :: c'.left ∧ isBlank last = false := by
  obtain ⟨c₁, hm, hlast⟩ := TransGen.tail'_iff.mp h
  obtain ⟨front, last, hend, hl⟩ := hlast.ends
  have hsuffix : c₁.next.start <:+ c.next.start := by
    rcases reflTransGen_iff_eq_or_transGen.mp hm with rfl | hm
    · exact List.suffix_rfl
    · exact c₁.start_suffix.trans (suffix_of_moves_taken hm)
  obtain ⟨before, hbefore⟩ := hsuffix
  exact ⟨before ++ front, last, by rw [← hbefore, hend, List.append_assoc], hl⟩

/-- What is read has no blanks around it. -/
theorem trim_of_moves (h : TransGen Move c c') :
    trim (slice c.next.start c'.left).toList = (slice c.next.start c'.left).toList := by
  obtain ⟨first, rest, hstart, hfirst⟩ := isBlank_of_begins (c.begins (TransGen.isReal h))
  obtain ⟨front, last, htext, hlast⟩ := TransGen.ends h
  have hslice : slice c.next.start c'.left = String.ofList (front ++ [last]) := by
    rw [htext, List.append_cons, slice_append]
  rw [hslice, String.toList_ofList]
  cases front with
  | nil =>
    rw [List.nil_append] at htext ⊢
    exact trim_of_ends hlast hlast (List.nil_append [last]).symm
  | cons d front =>
    obtain rfl : first = d := (List.cons.inj (hstart.symm.trans htext)).1
    exact trim_of_ends hfirst hlast (List.cons_append ..).symm

end Collector.Script
