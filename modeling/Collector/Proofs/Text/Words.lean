import Collector.Function.Convention
import Mathlib.Data.List.Induction
import Mathlib.Data.List.SplitBy
import Mathlib.Data.List.TakeWhile

/-!
# The words of a text

A character that belongs to no word separates words: `words_append_break`. So a text that is put
together from pieces has the words of its pieces, if no word goes on from one piece to the next.

* `KeepsApart` is a text at whose ends no word goes on.
* `words_of_wordly` is a text that is one word.
-/

namespace Collector

open Text

@[simp] theorem words_nil : words [] = [] := rfl

/-- Runs of characters that belong to no word are no words. -/
theorem words_of_break {run : List Char} (h : ∀ c ∈ run, isWordly c = false) :
    words run = [] := by
  unfold words
  refine List.filter_eq_nil_iff.2 fun found hfound hall => ?_
  obtain ⟨c, hc⟩ := List.exists_mem_of_ne_nil found (List.ne_nil_of_mem_splitBy hfound)
  have hrun : c ∈ run := by
    rw [← List.flatten_splitBy (fun a b => isWordly a == isWordly b) run]
    exact List.mem_flatten.2 ⟨found, hfound, hc⟩
  have hword := List.all_eq_true.1 hall c hc
  rw [h c hrun] at hword
  cases hword

/-- A text is split where a word begins or ends. -/
theorem words_append_of_edge {text others : List Char}
    (h : ∀ a ∈ text.getLast?, ∀ b ∈ others.head?, isWordly a ≠ isWordly b) :
    words (text ++ others) = words text ++ words others := by
  unfold words
  rw [List.splitBy_append fun a ha b hb => by simpa using h a ha b hb, List.filter_append]

/-- What stands before the first word does not matter. -/
theorem words_dropWhile (text : List Char) :
    words (text.dropWhile fun c => !isWordly c) = words text := by
  have hrun : ∀ c ∈ text.takeWhile fun c => !isWordly c, isWordly c = false :=
    fun c hc => by simpa using List.mem_takeWhile_imp hc
  have hedge : ∀ a ∈ (text.takeWhile fun c => !isWordly c).getLast?,
      ∀ b ∈ (text.dropWhile fun c => !isWordly c).head?, isWordly a ≠ isWordly b := by
    intro a ha b hb
    have hbreak := hrun a (List.mem_of_getLast? ha)
    have hhead : isWordly b = true := by
      have hfalse := List.head?_dropWhile_not (fun c => !isWordly c) text
      rw [Option.mem_def.1 hb] at hfalse
      simpa using hfalse
    simp [hbreak, hhead]
  have hsplit := words_append_of_edge hedge
  rw [List.takeWhile_append_dropWhile, words_of_break hrun, List.nil_append] at hsplit
  exact hsplit.symm

/-- A character that belongs to no word may be left out at the front. -/
theorem words_cons_break {c : Char} (hc : isWordly c = false) (text : List Char) :
    words (c :: text) = words text := by
  rw [← words_dropWhile (c :: text), ← words_dropWhile text,
    List.dropWhile_cons_of_pos (by simp [hc])]

/-- A character that belongs to no word separates the words before it from those behind it. -/
theorem words_append_break {c : Char} (hc : isWordly c = false) (text others : List Char) :
    words (text ++ c :: others) = words text ++ words others := by
  induction text using List.reverseRecOn generalizing c others with
  | nil => exact words_cons_break hc others
  | append_singleton text d ih =>
    by_cases hd : isWordly d = true
    · rw [words_append_of_edge, words_cons_break hc]
      simp [hc, hd]
    · have hbreak : isWordly d = false := by simpa using hd
      rw [List.append_assoc, List.singleton_append, ih hbreak, ih hbreak, words_cons_break hc,
        words_nil, List.append_nil]

/-- A text of characters of words is one word. -/
theorem words_of_wordly {text : List Char} (hne : text ≠ [])
    (h : ∀ c ∈ text, isWordly c = true) : words text = [text] := by
  have hchain : text.IsChain fun a b => (isWordly a == isWordly b) = true := by
    refine (List.pairwise_of_forall_mem_list fun a ha b hb => ?_).isChain
    simp [h a ha, h b hb]
  unfold words
  rw [List.splitBy_of_isChain hne hchain, List.filter_singleton, List.all_eq_true.2 h]
  rfl

/-! ## Texts that keep words apart -/

/-- Whether no word goes on at either end of a text. -/
structure KeepsApart (text : List Char) : Prop where
  front : text.head?.any isWordly = false
  back : text.getLast?.any isWordly = false

namespace KeepsApart

variable {text : List Char} (h : KeepsApart text)

include h

theorem words_append (others : List Char) :
    words (text ++ others) = words text ++ words others := by
  rcases List.eq_nil_or_concat text with rfl | ⟨front, last, rfl⟩
  · rfl
  · have hlast : isWordly last = false := by simpa using h.back
    rw [List.concat_eq_append, List.append_assoc, List.singleton_append, words_append_break hlast,
      words_append_break hlast, words_nil, List.append_nil]

theorem append_words (others : List Char) :
    words (others ++ text) = words others ++ words text := by
  cases text with
  | nil => simp
  | cons c text =>
    have hfirst : isWordly c = false := by simpa using h.front
    rw [words_append_break hfirst, words_cons_break hfirst]

end KeepsApart

end Collector
