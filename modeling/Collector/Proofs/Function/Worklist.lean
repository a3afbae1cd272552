import Mathlib.Order.RelClasses
import Mathlib.Logic.Relation
import Collector.Proofs.Function.Liveness

/-!
# Finding live names in any order

Live names can be found with a list of names that wait to be looked at: those that nothing declares
or that are live already are dropped, and any other becomes live, upon which what its declarations
refer to waits too. Names may wait more than once. Whichever of them is taken at each step, the
steps come to an end (`wellFounded_step`), they do so only when nothing waits (`exists_step`), and
then the same names are live: those that are `Alive` (`Valid.mem_live`).
-/

namespace Collector

open Relation

/-- Names that wait to be looked at, and those that have been found to be live. -/
structure Worklist where
  pending : List String
  live : List String

namespace Worklist

/-- One name is taken from those that wait. The names behind a live one join them in any order, and
perhaps more than once. -/
inductive Step (links : List (String × List String)) : Worklist → Worklist → Prop
  | unknown {front back live : List String} {name : String} : name ∉ links.map Prod.fst →
    Step links ⟨front ++ name :: back, live⟩ ⟨front ++ back, live⟩
  | again {front back live : List String} {name : String} : name ∈ live →
    Step links ⟨front ++ name :: back, live⟩ ⟨front ++ back, live⟩
  | visit {front back live more : List String} {name : String} : name ∈ links.map Prod.fst →
    name ∉ live → (∀ id, id ∈ more ↔ ∃ names, (name, names) ∈ links ∧ id ∈ names) →
    Step links ⟨front ++ name :: back, live⟩ ⟨front ++ back ++ more, name :: live⟩

variable {links : List (String × List String)} {roots : List String} {w w' : Worklist}

/-! ## Coming to an end -/

/-- The declared names that are not live. -/
def rest (links : List (String × List String)) (live : List String) : List String :=
  (links.map Prod.fst).filter fun name => !live.contains name

theorem length_rest_cons_lt {live : List String} {name : String} (h : name ∈ links.map Prod.fst)
    (hlive : name ∉ live) : (rest links (name :: live)).length < (rest links live).length := by
  have hsub : (rest links (name :: live)).Sublist (rest links live) := by
    refine List.monotone_filter_right _ fun other hother => ?_
    simp only [List.contains_cons, Bool.not_or, Bool.and_eq_true] at hother
    exact hother.2
  refine Nat.lt_of_le_of_ne hsub.length_le fun hlength => ?_
  have hmem : name ∈ rest links live := List.mem_filter.mpr ⟨h, by simpa using hlive⟩
  rw [← hsub.eq_of_length hlength] at hmem
  simp [rest] at hmem

/-- How much is left to do: a step finds a live name, or shortens the list. -/
def size (links : List (String × List String)) (w : Worklist) : Nat × Nat :=
  ((rest links w.live).length, w.pending.length)

theorem size_lt_of_step (h : Step links w w') :
    Prod.Lex (· < ·) (· < ·) (size links w') (size links w) := by
  cases h with
  | unknown _ => exact .right _ (by simp)
  | again _ => exact .right _ (by simp)
  | visit hname hlive _ => exact .left _ _ (length_rest_cons_lt hname hlive)

/-- There is no endless run. -/
theorem wellFounded_step (links : List (String × List String)) :
    WellFounded fun w' w => Step links w w' :=
  Subrelation.wf size_lt_of_step
    (InvImage.wf (size links) (WellFounded.prod_lex wellFounded_lt wellFounded_lt))

/-- What the declarations of a name refer to. -/
def references (links : List (String × List String)) (name : String) : List String :=
  links.flatMap fun link => if link.1 = name then link.2 else []

theorem mem_references {name id : String} :
    id ∈ references links name ↔ ∃ names, (name, names) ∈ links ∧ id ∈ names := by
  simp only [references, List.mem_flatMap, Prod.exists]
  constructor
  · rintro ⟨other, names, hlink, hid⟩
    split at hid
    next heq => exact ⟨names, heq ▸ hlink, hid⟩
    · cases hid
  · rintro ⟨names, hlink, hid⟩
    exact ⟨name, names, hlink, by rwa [if_pos rfl]⟩

/-- While a name waits there is a step. -/
theorem exists_step (h : w.pending ≠ []) : ∃ w', Step links w w' := by
  obtain ⟨pending, live⟩ := w
  obtain ⟨name, back, rfl⟩ := List.exists_cons_of_ne_nil h
  by_cases hname : name ∈ links.map Prod.fst
  · by_cases hlive : name ∈ live
    · have hstep : Step links ⟨[] ++ name :: back, live⟩ ⟨[] ++ back, live⟩ := .again hlive
      exact ⟨_, hstep⟩
    · have hstep : Step links ⟨[] ++ name :: back, live⟩
          ⟨[] ++ back ++ references links name, name :: live⟩ :=
        .visit hname hlive fun id => mem_references
      exact ⟨_, hstep⟩
  · have hstep : Step links ⟨[] ++ name :: back, live⟩ ⟨[] ++ back, live⟩ := .unknown hname
    exact ⟨_, hstep⟩

/-! ## What is found -/

/-- What holds between two steps: what is live or waits is alive, the roots are live or wait, and
so is what live names refer to. -/
structure Valid (links : List (String × List String)) (roots : List String) (w : Worklist) :
    Prop where
  live : ∀ name ∈ w.live, Alive links roots name
  pending : ∀ name ∈ w.pending, name ∈ links.map Prod.fst → Alive links roots name
  roots : ∀ name ∈ roots, name ∈ links.map Prod.fst → name ∈ w.live ∨ name ∈ w.pending
  links : ∀ name ∈ w.live, ∀ names, (name, names) ∈ links → ∀ id ∈ names,
    id ∈ links.map Prod.fst → id ∈ w.live ∨ id ∈ w.pending

theorem valid_start (links : List (String × List String)) (roots : List String) :
    Valid links roots ⟨roots, []⟩ where
  live := nofun
  pending _ hname hdeclared := .root hdeclared hname
  roots _ hname _ := .inr hname
  links := nofun

/-- A name that was live or waited before a step still does, unless nothing declares it. -/
theorem Step.covered (h : Step links w w') {id : String} (hid : id ∈ links.map Prod.fst)
    (hw : id ∈ w.live ∨ id ∈ w.pending) : id ∈ w'.live ∨ id ∈ w'.pending := by
  cases h with
  | @unknown front back live name hname =>
    have hne : id ≠ name := fun heq => hname (heq ▸ hid)
    simpa [hne] using hw
  | @again front back live name hlive =>
    by_cases heq : id = name
    · exact .inl (heq ▸ hlive)
    · simpa [heq] using hw
  | @visit front back live more name _ _ _ =>
    simp only [List.mem_append, List.mem_cons] at hw ⊢
    tauto

theorem Valid.step (hv : Valid links roots w) (h : Step links w w') : Valid links roots w' where
  live name hname := by
    cases h with
    | unknown _ => exact hv.live name hname
    | again _ => exact hv.live name hname
    | visit hdeclared _ _ =>
      rcases List.mem_cons.mp hname with rfl | hname
      · exact hv.pending _ (by simp) hdeclared
      · exact hv.live name hname
  pending id hid hdeclared := by
    cases h with
    | @unknown front back live name _ =>
      exact hv.pending id (by simp only [List.mem_append, List.mem_cons] at hid ⊢; tauto) hdeclared
    | @again front back live name _ =>
      exact hv.pending id (by simp only [List.mem_append, List.mem_cons] at hid ⊢; tauto) hdeclared
    | @visit front back live more name hname _ hmore =>
      rcases List.mem_append.mp hid with hid | hid
      · exact hv.pending id (by simp only [List.mem_append, List.mem_cons] at hid ⊢; tauto)
          hdeclared
      · obtain ⟨names, hlink, hid⟩ := (hmore id).mp hid
        exact .link (hv.pending name (by simp) hname) hlink hid hdeclared
  roots name hname hdeclared := h.covered hdeclared (hv.roots name hname hdeclared)
  links name hname names hlink id hid hdeclared := by
    cases h with
    | unknown hunknown =>
      exact (Step.unknown hunknown).covered hdeclared (hv.links name hname names hlink id hid hdeclared)
    | again hlive =>
      exact (Step.again hlive).covered hdeclared (hv.links name hname names hlink id hid hdeclared)
    | visit hvisited hlive hmore =>
      rcases List.mem_cons.mp hname with rfl | hname
      · exact .inr (List.mem_append_right _ ((hmore id).mpr ⟨names, hlink, hid⟩))
      · exact (Step.visit hvisited hlive hmore).covered hdeclared
          (hv.links name hname names hlink id hid hdeclared)

theorem Valid.run (hv : Valid links roots w) (h : ReflTransGen (Step links) w w') :
    Valid links roots w' := by
  induction h with
  | refl => exact hv
  | tail _ hstep ih => exact ih.step hstep

/-- When nothing waits any more, what is alive has been found. -/
theorem Valid.mem_live (hv : Valid links roots w) (hdone : w.pending = []) {id : String} :
    id ∈ w.live ↔ Alive links roots id := by
  have hcovered {name : String} (h : name ∈ w.live ∨ name ∈ w.pending) : name ∈ w.live :=
    h.resolve_right (by rw [hdone]; exact List.not_mem_nil)
  refine ⟨hv.live id, fun h => ?_⟩
  induction h with
  | root hdeclared hroot => exact hcovered (hv.roots _ hroot hdeclared)
  | link _ hlink hid hdeclared ih => exact hcovered (hv.links _ ih _ hlink _ hid hdeclared)

end Worklist

end Collector
