import Collector.Error

/-!
# Chains of fallible steps

A chain of steps succeeds if all of them do, and fails with the first error. `bind_eq_ok` peels a
chain that has succeeded apart, step by step.
-/

namespace Collector.Outcome

variable {α β : Type}

theorem bind_eq_ok {outcome : Outcome α} {next : α → Outcome β} {b : β} :
    outcome >>= next = .ok b ↔ ∃ a, outcome = .ok a ∧ next a = .ok b := by
  cases outcome with
  | ok a =>
    constructor
    · intro h
      exact ⟨a, rfl, h⟩
    · rintro ⟨_, ⟨⟩, h⟩
      exact h
  | error error =>
    constructor
    · intro h
      cases h
    · rintro ⟨_, h, _⟩
      cases h

theorem bind_ok (a : α) (next : α → Outcome β) : (.ok a : Outcome α) >>= next = next a := rfl

theorem bind_error (error : Error) (next : α → Outcome β) :
    (.error error : Outcome α) >>= next = .error error := rfl

theorem map_eq_ok {outcome : Outcome α} {f : α → β} {b : β} :
    outcome.map f = .ok b ↔ ∃ a, outcome = .ok a ∧ f a = b := by
  cases outcome with
  | ok a => simp [Except.map]
  | error error => simp [Except.map]

/-- Every answer of a list of steps that have succeeded is that of one of them. -/
theorem exists_of_mapM_eq_ok {f : α → Outcome β} {as : List α} {bs : List β}
    (h : as.mapM f = .ok bs) {b : β} (hmem : b ∈ bs) : ∃ a ∈ as, f a = .ok b := by
  induction as generalizing bs with
  | nil =>
    cases h
    cases hmem
  | cons a rest ih =>
    rw [List.mapM_cons] at h
    obtain ⟨first, hfirst, h⟩ := bind_eq_ok.1 h
    obtain ⟨others, hothers, h⟩ := bind_eq_ok.1 h
    cases h
    rcases List.mem_cons.1 hmem with rfl | hmem
    · exact ⟨a, List.mem_cons_self, hfirst⟩
    · obtain ⟨other, hother, hb⟩ := ih hothers hmem
      exact ⟨other, List.mem_cons_of_mem _ hother, hb⟩

theorem eq_ok_of_toOption {outcome : Outcome α} {a : α} (h : outcome.toOption = some a) :
    outcome = .ok a := by
  cases outcome with
  | ok found => exact congrArg Except.ok (Option.some.inj h)
  | error error => cases h

/-- The error of a step that has failed. -/
def error? : Outcome α → Option Error
  | .ok _ => none
  | .error error => some error

theorem eq_error_of_error? {outcome : Outcome α} {error : Error}
    (h : outcome.error? = some error) : outcome = .error error := by
  cases outcome with
  | ok a => cases h
  | error found => exact congrArg Except.error (Option.some.inj h)

end Collector.Outcome
