import Collector.Project.Host

/-!
# Running fallible steps

A step of a build works on a state and may fail. `Work.runOn` runs it: what it answers, and the
state as it leaves it. A step that fails keeps the changes that were made before.
-/

namespace Collector

variable {σ α β : Type}

/-- Runs a step on a state: what it answers, and the state as it leaves it. -/
def Work.runOn (work : Work (StateM σ) α) (s : σ) : Outcome α × σ := (ExceptT.run work).run s

namespace Work

theorem pure_runOn (a : α) (s : σ) : (pure a : Work (StateM σ) α).runOn s = (.ok a, s) := rfl

theorem ofOutcome_runOn (outcome : Outcome α) (s : σ) :
    (ofOutcome outcome : Work (StateM σ) α).runOn s = (outcome, s) := rfl

theorem ofFile_runOn (step : StateM σ (Except FileFault α)) (s : σ) :
    (ofFile step).runOn s = ((step s).1.mapError Error.file, (step s).2) := rfl

/-- A step runs on the state that the step before it leaves, unless that one fails. -/
theorem bind_runOn (work : Work (StateM σ) α) (next : α → Work (StateM σ) β) (s : σ) :
    (work >>= next).runOn s =
      match work.runOn s with
      | (.ok a, s') => (next a).runOn s'
      | (.error error, s') => (.error error, s') := by
  unfold Work.runOn ExceptT.run StateT.run
  simp only [bind, ExceptT.bind, ExceptT.mk, StateT.bind, ExceptT.bindCont]
  rcases work s with ⟨outcome, s'⟩
  cases outcome with
  | ok a => rfl
  | error error => rfl

/-- Steps that have succeeded in a row, peeled apart. -/
theorem bind_runOn_eq_ok {work : Work (StateM σ) α} {next : α → Work (StateM σ) β} {s s' : σ}
    {b : β} :
    (work >>= next).runOn s = (.ok b, s') ↔
      ∃ a s₁, work.runOn s = (.ok a, s₁) ∧ (next a).runOn s₁ = (.ok b, s') := by
  rw [bind_runOn]
  rcases work.runOn s with ⟨outcome, s₁⟩
  cases outcome with
  | ok a =>
    constructor
    · intro h
      exact ⟨a, s₁, rfl, h⟩
    · rintro ⟨_, _, ⟨⟩, h⟩
      exact h
  | error error =>
    constructor
    · intro h
      cases h
    · rintro ⟨_, _, ⟨⟩, _⟩

end Work

end Collector
