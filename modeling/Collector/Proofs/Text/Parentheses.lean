import Collector.Function.Convention
import Mathlib.Data.List.Infix
import Mathlib.Tactic.MkIffOfInductiveProp

/-!
# Parentheses that close each other

The end of a parameter list is found by counting parentheses. The scan begins behind open ones and
stops where all of them are closed.

* `Within depth` is a text of which no beginning closes more than `depth` parentheses besides its
  own, and `Closes depth` such a text that closes as many in all.
* `splitBalanced_eq_some_iff` and `splitBalanced_eq_none_iff` say what the scan answers.
* `Closes.append` and `closes_intercalate` put texts together that close their own parentheses.
-/

namespace Collector

/-! ## Counting -/

/-- No beginning of a text closes more parentheses than it opens and `depth` besides. -/
def Within (depth : Nat) (text : List Char) : Prop :=
  ∀ front, front <+: text → front.count ')' ≤ front.count '(' + depth

/-- A text closes all parentheses that it opens and `depth` besides, and no beginning of it closes
more. -/
@[mk_iff] structure Closes (depth : Nat) (text : List Char) : Prop where
  within : Within depth text
  count : text.count ')' = text.count '(' + depth

variable {depth : Nat} {text rest : List Char} {c : Char}

theorem within_nil (depth : Nat) : Within depth [] := by
  intro front hfront
  rw [List.prefix_nil.mp hfront]
  exact Nat.zero_le _

theorem within_cons : Within depth (c :: rest) ↔
    ∀ front, front <+: rest → (c :: front).count ')' ≤ (c :: front).count '(' + depth := by
  constructor
  · intro h front hfront
    exact h _ (List.cons_prefix_cons.mpr ⟨rfl, hfront⟩)
  · intro h front hfront
    rcases List.prefix_cons_iff.mp hfront with rfl | ⟨others, rfl, hothers⟩
    · exact Nat.zero_le _
    · exact h others hothers

theorem count_open : ('(' :: rest).count '(' = rest.count '(' + 1 ∧
    ('(' :: rest).count ')' = rest.count ')' :=
  ⟨List.count_cons_self, List.count_cons_of_ne (by decide)⟩

theorem count_close : (')' :: rest).count '(' = rest.count '(' ∧
    (')' :: rest).count ')' = rest.count ')' + 1 :=
  ⟨List.count_cons_of_ne (by decide), List.count_cons_self⟩

theorem within_open : Within depth ('(' :: rest) ↔ Within (depth + 1) rest := by
  rw [within_cons]
  refine forall₂_congr fun front _ => ?_
  rw [count_open.1, count_open.2]
  omega

theorem within_close : Within (depth + 1) (')' :: rest) ↔ Within depth rest := by
  rw [within_cons]
  refine forall₂_congr fun front _ => ?_
  rw [count_close.1, count_close.2]
  omega

theorem not_within_close : ¬ Within 0 (')' :: rest) := by
  intro h
  have hfirst := within_cons.mp h [] List.nil_prefix
  revert hfirst
  decide

theorem within_other (hopen : c ≠ '(') (hclose : c ≠ ')') :
    Within depth (c :: rest) ↔ Within depth rest := by
  rw [within_cons]
  refine forall₂_congr fun front _ => ?_
  rw [List.count_cons_of_ne hclose, List.count_cons_of_ne hopen]

theorem closes_nil : Closes 0 [] := ⟨within_nil 0, rfl⟩

theorem not_closes_nil : ¬ Closes (depth + 1) [] := by
  intro h
  have hcount := h.count
  simp at hcount

theorem closes_open : Closes depth ('(' :: rest) ↔ Closes (depth + 1) rest := by
  rw [closes_iff, closes_iff, within_open, count_open.1, count_open.2]
  refine and_congr_right fun _ => ?_
  omega

theorem closes_close : Closes (depth + 1) (')' :: rest) ↔ Closes depth rest := by
  rw [closes_iff, closes_iff, within_close, count_close.1, count_close.2]
  refine and_congr_right fun _ => ?_
  omega

theorem closes_other (hopen : c ≠ '(') (hclose : c ≠ ')') :
    Closes depth (c :: rest) ↔ Closes depth rest := by
  rw [closes_iff, closes_iff, within_other hopen hclose, List.count_cons_of_ne hclose,
    List.count_cons_of_ne hopen]

/-! ## The scan -/

theorem splitBalanced_other (hopen : c ≠ '(') (hclose : c ≠ ')') :
    splitBalanced depth (c :: rest) =
      (splitBalanced depth rest).map fun (inside, after) => (c :: inside, after) := by
  rw [splitBalanced]
  · exact hopen
  · exact fun _ => hclose
  · exact fun _ _ => hclose

/-- A character that the scan takes for no closing parenthesis, at whatever depth, is none. -/
theorem ne_close (hzero : depth = 0 → c = ')' → False)
    (hsucc : ∀ outer, depth = outer + 1 → c = ')' → False) : c ≠ ')' := by
  rintro rfl
  cases depth with
  | zero => exact hzero rfl rfl
  | succ outer => exact hsucc outer rfl rfl

/-- The scan answers what stands before the parenthesis that closes all open ones, and what stands
behind it. -/
theorem splitBalanced_eq_some_iff {inside after : List Char} :
    splitBalanced depth text = some (inside, after) ↔
      text = inside ++ ')' :: after ∧ Closes depth inside := by
  induction depth, text using splitBalanced.induct generalizing inside after with
  | case1 depth => simp [splitBalanced]
  | case2 depth rest ih =>
    rw [splitBalanced, Option.map_eq_some_iff]
    constructor
    · rintro ⟨⟨more, behind⟩, hs, he⟩
      cases he
      obtain ⟨rfl, hcloses⟩ := ih.mp hs
      exact ⟨rfl, closes_open.mpr hcloses⟩
    · rintro ⟨htext, hcloses⟩
      cases inside with
      | nil => simp at htext
      | cons d more =>
        obtain ⟨rfl, rfl⟩ := List.cons.inj htext
        exact ⟨_, ih.mpr ⟨rfl, closes_open.mp hcloses⟩, rfl⟩
  | case3 rest =>
    rw [splitBalanced]
    constructor
    · intro h
      cases h
      exact ⟨rfl, closes_nil⟩
    · rintro ⟨htext, hcloses⟩
      cases inside with
      | nil =>
        obtain ⟨-, rfl⟩ := List.cons.inj htext
        rfl
      | cons d more =>
        obtain ⟨rfl, rfl⟩ := List.cons.inj htext
        exact absurd hcloses.within not_within_close
  | case4 depth rest ih =>
    rw [splitBalanced, Option.map_eq_some_iff]
    constructor
    · rintro ⟨⟨more, behind⟩, hs, he⟩
      cases he
      obtain ⟨rfl, hcloses⟩ := ih.mp hs
      exact ⟨rfl, closes_close.mpr hcloses⟩
    · rintro ⟨htext, hcloses⟩
      cases inside with
      | nil => exact absurd hcloses not_closes_nil
      | cons d more =>
        obtain ⟨rfl, rfl⟩ := List.cons.inj htext
        exact ⟨_, ih.mpr ⟨rfl, closes_close.mp hcloses⟩, rfl⟩
  | case5 depth c rest hopen hzero hsucc ih =>
    have hclose : c ≠ ')' := ne_close hzero hsucc
    rw [splitBalanced_other hopen hclose, Option.map_eq_some_iff]
    constructor
    · rintro ⟨⟨more, behind⟩, hs, he⟩
      cases he
      obtain ⟨rfl, hcloses⟩ := ih.mp hs
      exact ⟨rfl, (closes_other hopen hclose).mpr hcloses⟩
    · rintro ⟨htext, hcloses⟩
      cases inside with
      | nil => exact absurd (List.cons.inj htext).1 hclose
      | cons d more =>
        obtain ⟨rfl, rfl⟩ := List.cons.inj htext
        exact ⟨_, ih.mpr ⟨rfl, (closes_other hopen hclose).mp hcloses⟩, rfl⟩

/-- The scan fails if the open parentheses are not all closed. -/
theorem splitBalanced_eq_none_iff : splitBalanced depth text = none ↔ Within depth text := by
  induction depth, text using splitBalanced.induct with
  | case1 depth => simp [splitBalanced, within_nil]
  | case2 depth rest ih => rw [splitBalanced, Option.map_eq_none_iff, ih, within_open]
  | case3 rest => simp [splitBalanced, not_within_close]
  | case4 depth rest ih => rw [splitBalanced, Option.map_eq_none_iff, ih, within_close]
  | case5 depth c rest hopen hzero hsucc ih =>
    have hclose : c ≠ ')' := ne_close hzero hsucc
    rw [splitBalanced_other hopen hclose, Option.map_eq_none_iff, ih, within_other hopen hclose]

/-! ## Putting texts together -/

/-- Behind a text that closes its own parentheses, the others are counted as before. -/
theorem Closes.append {front : List Char} (hfront : Closes 0 front) (h : Closes depth text) :
    Closes depth (front ++ text) where
  within := by
    intro first hfirst
    rcases List.prefix_or_prefix_of_prefix hfirst (List.prefix_append front text) with
      hinside | ⟨more, rfl⟩
    · have := hfront.within first hinside
      omega
    · have hcount := hfront.count
      have hbehind := h.within more ((List.prefix_append_right_inj front).mp hfirst)
      rw [List.count_append, List.count_append]
      omega
  count := by
    have hcount := hfront.count
    have hbehind := h.count
    rw [List.count_append, List.count_append]
    omega

theorem closes_intercalate {parts : List (List Char)} (h : ∀ part ∈ parts, Closes 0 part) :
    Closes 0 ([','].intercalate parts) := by
  induction parts with
  | nil => exact closes_nil
  | cons part parts ih =>
    obtain ⟨hpart, hparts⟩ := List.forall_mem_cons.mp h
    cases parts with
    | nil => simpa using hpart
    | cons other parts =>
      rw [List.intercalate_cons_cons, List.append_assoc]
      exact hpart.append ((closes_other (by decide) (by decide)).mpr (ih hparts))

end Collector
