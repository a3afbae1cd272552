import Mathlib.Data.List.Basic
import Collector.Function.Pruning

/-!
# Declared names that are alive

The names that pruning finds by going from live names to those behind them, round after round, are
the least set that holds the roots and is closed under the links (`mem_liveNames`). The live names
of a round are listed in the order of the declarations, so a round that adds no name is the last
one that matters, and every other one makes the list longer.
-/

namespace Collector

open Script

/-- The least set of declared names that holds those among the roots, and with a name all declared
names that its declarations refer to. -/
inductive Alive (links : List (String × List String)) (roots : List String) : String → Prop
  | root {id : String} : id ∈ links.map Prod.fst → id ∈ roots → Alive links roots id
  | link {other id : String} {names : List String} : Alive links roots other →
    (other, names) ∈ links → id ∈ names → id ∈ links.map Prod.fst → Alive links roots id

section Rounds

variable {links : List (String × List String)} {live roots : List String} {id : String}

theorem mem_spread : id ∈ spread links live ↔ id ∈ links.map Prod.fst ∧
    (id ∈ live ∨ ∃ other names, (other, names) ∈ links ∧ other ∈ live ∧ id ∈ names) := by
  simp [spread]

/-- A list that names live declarations in their order. -/
def Ordered (links : List (String × List String)) (live : List String) : Prop :=
  live = (links.map Prod.fst).filter live.contains

theorem ordered_filter (links : List (String × List String)) (keep : String → Bool) :
    Ordered links ((links.map Prod.fst).filter keep) := by
  refine List.filter_congr fun name hname => ?_
  cases hkeep : keep name with
  | true => simp [hkeep, hname]
  | false => simp [hkeep]

theorem Ordered.sublist_spread (h : Ordered links live) : live.Sublist (spread links live) := by
  have hmore : ((links.map Prod.fst).filter live.contains).Sublist (spread links live) := by
    refine List.monotone_filter_right _ fun name hname => ?_
    rw [hname]
    rfl
  rwa [← h] at hmore

theorem ordered_spread : Ordered links (spread links live) := ordered_filter links _

/-- A round adds a name, or nothing is left to add. -/
theorem Ordered.spread_cases (h : Ordered links live) :
    spread links live = live ∨ live.length < (spread links live).length := by
  rcases Nat.eq_or_lt_of_le h.sublist_spread.length_le with heq | hlt
  · exact .inl (h.sublist_spread.eq_of_length heq).symm
  · exact .inr hlt

theorem length_spread_le : (spread links live).length ≤ links.length := by
  unfold spread
  exact Nat.le_trans (List.length_filter_le _ _) (Nat.le_of_eq (List.length_map Prod.fst))

theorem closure_of_spread_eq (h : spread links live = live) (n : Nat) :
    closure links n live = live := by
  induction n with
  | zero => rfl
  | succ n ih => rw [closure, h, ih]

/-- After rounds enough, nothing is left to add. -/
theorem Ordered.spread_closure (h : Ordered links live) {n : Nat}
    (hn : links.length ≤ live.length + n) :
    spread links (closure links n live) = closure links n live := by
  induction n generalizing live with
  | zero =>
    rcases h.spread_cases with hsame | hlonger
    · exact hsame
    · have hle : (spread links live).length ≤ links.length := length_spread_le
      omega
  | succ n ih =>
    rw [closure]
    rcases h.spread_cases with hsame | hlonger
    · rw [hsame, closure_of_spread_eq hsame, hsame]
    · exact ih ordered_spread (by omega)

theorem Ordered.sublist_closure (h : Ordered links live) (n : Nat) :
    live.Sublist (closure links n live) := by
  induction n generalizing live with
  | zero => exact List.Sublist.refl live
  | succ n ih => exact h.sublist_spread.trans (ih ordered_spread)

/-- No round makes a name live that is not. -/
theorem alive_of_mem_closure {n : Nat} (h : ∀ name ∈ live, Alive links roots name)
    (hid : id ∈ closure links n live) : Alive links roots id := by
  induction n generalizing live with
  | zero => exact h id hid
  | succ n ih =>
    refine ih (fun name hname => ?_) hid
    obtain ⟨hdeclared, hlive | ⟨other, names, hlink, hother, hrefers⟩⟩ := mem_spread.mp hname
    · exact h name hlive
    · exact .link (h other hother) hlink hrefers hdeclared

end Rounds

/-- The live names are the least set that holds the roots and is closed under the links. -/
theorem mem_liveNames {statements : List Statement} {id : String} : id ∈ liveNames statements ↔
    Alive (declarationLinks statements) (rootNames statements) id := by
  unfold liveNames
  generalize declarationLinks statements = links, rootNames statements = roots
  have hordered := ordered_filter links roots.contains
  have hclosed := hordered.spread_closure (Nat.le_add_left links.length _)
  constructor
  · refine alive_of_mem_closure fun name hname => ?_
    obtain ⟨hdeclared, hroot⟩ := List.mem_filter.mp hname
    exact .root hdeclared (by simpa using hroot)
  · intro h
    induction h with
    | root hdeclared hroot =>
      refine (hordered.sublist_closure _).subset (List.mem_filter.mpr ⟨hdeclared, ?_⟩)
      simpa using hroot
    | link _ hlink hrefers hdeclared ih =>
      rw [← hclosed]
      exact mem_spread.mpr ⟨hdeclared, .inr ⟨_, _, hlink, ih, hrefers⟩⟩

end Collector
