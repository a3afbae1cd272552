import Collector.Proofs.Group.Compressing

/-!
# One convention for a group

The convention of a group is settled by its function for regular responses, or else by the first
handler, and every function behind is held against it.

* `conventionOf` is the convention of a single function, found without the rest of its group.
* `handlerConvention_eq_ok` follows the convention through the handlers.
* `group_follows_one_convention` is the result.
-/

namespace Collector.Transform

/-- The convention of a function: of its canonical form. -/
def conventionOf (function : String × String) : Outcome Convention := do
  let canonical ← normalize function.2 function.1
  classify canonical

theorem conventionOf_eq {function : String × String} {canonical : String}
    (h : normalize function.2 function.1 = .ok canonical) :
    conventionOf function = classify canonical := by
  unfold conventionOf
  rw [h, Outcome.bind_ok]

/-- The convention that is settled behind the last handler is the one that was settled before, if
there was one, and it is that of every handler. -/
theorem handlerConvention_eq_ok {settled found : Option Convention} {handlers : Entries String}
    (h : handlerConvention settled handlers = .ok found) :
    (∀ convention, settled = some convention → found = some convention) ∧
      (∀ canonical ∈ handlers.map Prod.snd, ∃ convention, found = some convention ∧
        classify canonical = .ok convention) ∧
      (found = none ↔ settled = none ∧ handlers = []) := by
  induction handlers generalizing settled with
  | nil =>
    cases settled <;> cases h <;> simp
  | cons handler rest ih =>
    obtain ⟨key, canonical⟩ := handler
    cases settled with
    | none =>
      obtain ⟨convention, hclassify, h⟩ := Outcome.bind_eq_ok.1 h
      obtain ⟨hsettled, hrest, -⟩ := ih h
      have hfound := hsettled convention rfl
      refine ⟨fun _ hnone => ?_, ?_, by simp [hfound]⟩
      · cases hnone
      · exact List.forall_mem_cons.2 ⟨⟨convention, hfound, hclassify⟩, hrest⟩
    | some convention =>
      unfold handlerConvention at h
      split at h
      · rename_i hclassify
        obtain ⟨hsettled, hrest, -⟩ := ih h
        have hfound := hsettled convention rfl
        refine ⟨hsettled, ?_, by simp [hfound]⟩
        exact List.forall_mem_cons.2
          ⟨⟨convention, hfound, Outcome.eq_ok_of_toOption hclassify⟩, hrest⟩
      · cases h

theorem checkPrimary_eq_ok {convention : Convention} {canonical : String}
    (h : checkPrimary convention canonical = .ok ()) : classify canonical = .ok convention := by
  unfold checkPrimary at h
  split at h
  · rename_i hclassify
    exact Outcome.eq_ok_of_toOption hclassify
  · cases h

section Planned

variable {exports : Exports} {plan : Plan} {own : Option (Convention × String)}
  {sources : Entries String}

/-- The convention of a plan is that of each canonical form in it. -/
theorem Planned.classify_sources (h : Planned exports plan own sources) {canonical : String}
    (hmem : canonical ∈ plan.sources) :
    ∃ convention, plan.convention = some convention ∧ classify canonical = .ok convention := by
  obtain ⟨hsettled, hhandlers, -⟩ := handlerConvention_eq_ok h.convention
  rcases List.mem_append.1 hmem with hown | hhandler
  · have hchecked := h.ownChecked
    rw [Option.mem_toList] at hown
    rw [hown] at hchecked
    cases own with
    | none => exact hchecked.elim
    | some found => exact ⟨found.1, hsettled _ rfl, checkPrimary_eq_ok hchecked.2⟩
  · exact hhandlers canonical hhandler

theorem Planned.conventionOf_eq (h : Planned exports plan own sources)
    {function : String × String} (hmem : function ∈ functions exports) :
    ∃ convention, plan.convention = some convention ∧
      conventionOf function = .ok convention := by
  obtain ⟨canonical, hcanonical, hnormalize⟩ := exists_of_forall₂ h.sources_eq hmem
  obtain ⟨convention, hconvention, hclassify⟩ := h.classify_sources hcanonical
  exact ⟨convention, hconvention, (Transform.conventionOf_eq hnormalize).trans hclassify⟩

/-- A plan has no convention exactly if the group exports no function. -/
theorem Planned.convention_eq_none_iff (h : Planned exports plan own sources) :
    plan.convention = none ↔
      (∀ convention : Convention, exports.defined? convention.exportName = none) ∧
        handlerEntries exports = [] := by
  obtain ⟨-, -, hnone⟩ := handlerConvention_eq_ok h.convention
  rw [hnone, handlers_eq_ok h.handlers, List.map_eq_nil_iff, Option.map_eq_none_iff]
  have hlength := (checkedHandlers_eq_ok h.handlersChecked).length_eq
  have hsources : plan.handlers = [] ↔ sources = [] := by
    rw [← List.length_eq_zero_iff, ← List.length_eq_zero_iff, hlength]
  rw [hsources]
  refine and_congr_left fun _ => ⟨?_, fun hdefined => ?_⟩
  · rintro rfl
    obtain ⟨hbatch, hsingle⟩ := primary_eq_none h.primary
    intro convention
    cases convention with
    | batch => exact hbatch
    | singleItem => exact hsingle
  · cases own with
    | none => rfl
    | some found =>
      obtain ⟨convention, code⟩ := found
      have hfound := primary_eq_some h.primary convention
      rw [hdefined, if_pos rfl] at hfound
      cases hfound

/-- A function for regular responses settles the convention that its name demands. -/
theorem Planned.convention_eq_some (h : Planned exports plan own sources)
    {convention : Convention} (hdefined : exports.defined? convention.exportName ≠ none) :
    plan.convention = some convention := by
  obtain ⟨hsettled, -, -⟩ := handlerConvention_eq_ok h.convention
  cases own with
  | none =>
    obtain ⟨hbatch, hsingle⟩ := primary_eq_none h.primary
    cases convention with
    | batch => exact absurd hbatch hdefined
    | singleItem => exact absurd hsingle hdefined
  | some found =>
    have hfound := primary_eq_some h.primary convention
    split at hfound
    · rename_i heq
      rw [heq]
      exact hsettled _ rfl
    · exact absurd hfound hdefined

end Planned

theorem outcome_eq_ok {compressor : Compressor} {exports : Exports}
    {artifacts : TransformArtifacts}
    (h : (compileTransform compressor exports).outcome = .ok artifacts) :
    ∃ plan own sources, Planned exports plan own sources ∧
      artifacts.convention = plan.convention ∧ artifacts.schema = plan.schema := by
  unfold Compile.outcome at h
  rcases compileTransform_cases compressor exports with ⟨_, htrace⟩ | ⟨plan, _, hplan, -, htrace⟩
  · rw [htrace] at h
    cases h
  · rw [htrace] at h
    obtain ⟨own, sources, hplanned⟩ := planned_of_plan hplan
    obtain ⟨bodies, -, rfl⟩ := Outcome.map_eq_ok.1 h
    exact ⟨plan, own, sources, hplanned, rfl, rfl⟩

/-- All functions of a group that compiles follow the convention of the group, which is the one
that the name of its function for regular responses demands. A group has no convention exactly if
it has no functions, and one in which two functions differ, or one has no convention, does not
compile. -/
theorem group_follows_one_convention (compressor : Compressor) (exports : Exports) :
    (∀ artifacts, (compileTransform compressor exports).outcome = .ok artifacts →
      (artifacts.convention = none ↔
        (∀ convention : Convention, exports.defined? convention.exportName = none) ∧
          handlerEntries exports = []) ∧
      (∀ function ∈ functions exports, ∃ canonical convention,
        normalize function.2 function.1 = .ok canonical ∧
          classify canonical = .ok convention ∧ artifacts.convention = some convention) ∧
      ∀ convention : Convention, exports.defined? convention.exportName ≠ none →
        artifacts.convention = some convention) ∧
      ((∃ function ∈ functions exports, ∃ other ∈ functions exports,
          conventionOf function ≠ conventionOf other) ∨
        (∃ function ∈ functions exports, ∃ error, conventionOf function = .error error) →
        ∃ error, (compileTransform compressor exports).outcome = .error error) := by
  refine ⟨fun artifacts hok => ?_, fun hfault => ?_⟩
  · obtain ⟨plan, own, sources, hplanned, hconvention, -⟩ := outcome_eq_ok hok
    rw [hconvention]
    refine ⟨hplanned.convention_eq_none_iff, fun function hmem => ?_,
      fun convention hdefined => hplanned.convention_eq_some hdefined⟩
    obtain ⟨convention, hsettled, hfunction⟩ := hplanned.conventionOf_eq hmem
    obtain ⟨canonical, hcanonical, hclassify⟩ := Outcome.bind_eq_ok.1 hfunction
    exact ⟨canonical, convention, hcanonical, hclassify, hsettled⟩
  · cases hok : (compileTransform compressor exports).outcome with
    | error error => exact ⟨error, rfl⟩
    | ok artifacts =>
      exfalso
      obtain ⟨plan, own, sources, hplanned, -, -⟩ := outcome_eq_ok hok
      rcases hfault with ⟨function, hmem, other, hother, hdiffer⟩ | ⟨function, hmem, error, hfails⟩
      · obtain ⟨first, hfirst, hfunction⟩ := hplanned.conventionOf_eq hmem
        obtain ⟨second, hsecond, hotherFunction⟩ := hplanned.conventionOf_eq hother
        rw [hfunction, hotherFunction, Option.some.inj (hfirst.symm.trans hsecond)] at hdiffer
        exact hdiffer rfl
      · obtain ⟨convention, -, hfunction⟩ := hplanned.conventionOf_eq hmem
        cases hfails.symm.trans hfunction

/-- A group whose handler is written for all subjects at once, and the function for regular
responses for each of them. -/
def mixedConventions : Exports :=
  [("transformBySubject", .function "(ctx, aspects, subject) => subject"),
    ("errorHandlers", .object [("404", .function "subjects => []")])]

/-- A group with one convention compiles and has it; a mixed group does not compile. -/
theorem group_follows_one_convention_mixedConventions :
    (∃ artifacts, (compileTransform .ok withHandler).outcome = .ok artifacts ∧
      artifacts.convention = some .batch ∧ ∀ function ∈ functions withHandler,
        ∃ canonical convention, normalize function.2 function.1 = .ok canonical ∧
          classify canonical = .ok convention ∧ artifacts.convention = some convention) ∧
      ∃ error, (compileTransform .ok mixedConventions).outcome = .error error := by
  constructor
  · obtain ⟨artifacts, houtcome⟩ := withHandler_compiles
    obtain ⟨-, hfollows, hdemanded⟩ :=
      (group_follows_one_convention .ok withHandler).1 artifacts houtcome
    exact ⟨artifacts, houtcome, hdemanded .batch nofun, hfollows⟩
  · refine (group_follows_one_convention .ok mixedConventions).2 (.inl ?_)
    refine ⟨("transformBySubject", "(ctx, aspects, subject) => subject"), ?_,
      ("errorHandler", "subjects => []"), ?_, ?_⟩
    · exact List.mem_cons_self
    · exact List.mem_cons_of_mem _ List.mem_cons_self
    · intro hsame
      have hdiffer : ¬ (conventionOf ("transformBySubject",
          "(ctx, aspects, subject) => subject")).toOption =
          (conventionOf ("errorHandler", "subjects => []")).toOption := by
        decide +kernel
      exact hdiffer (congrArg Except.toOption hsame)

end Collector.Transform
