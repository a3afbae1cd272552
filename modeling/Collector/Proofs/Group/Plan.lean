import Collector.Group.Transform
import Collector.Proofs.Outcomes
import Mathlib.Data.List.Forall2

/-!
# The functions of a transform group

A group is checked as a whole before anything is compiled. `functions` lists the functions of a
group as its exports show them, and `Planned` says what a group that has passed all checks is like:
the plan holds the canonical form of each of these functions, in the same order.
-/

namespace Collector.Transform

/-! ## The functions of a group -/

/-- The function for regular responses that a group exports under the name for a convention. -/
def ownFunctions (exports : Exports) (convention : Convention) : List (String × String) :=
  (((exports.defined? convention.exportName).bind Export.function?).map fun code =>
    (convention.exportName, code)).toList

/-- The handlers that a group exports, by status patterns. -/
def handlerEntries (exports : Exports) : Entries Export :=
  ((exports.defined? "errorHandlers").bind Export.object?).getD []

/-- The functions that a group exports, each with the name that it has in canonical form: the one
for regular responses, then the handlers in order. -/
def functions (exports : Exports) : List (String × String) :=
  ownFunctions exports .batch ++ ownFunctions exports .singleItem ++
    (handlerEntries exports).filterMap fun entry =>
      entry.2.function?.map fun code => (handlerName, code)

/-! ## What a plan holds -/

/-- The canonical forms in a plan, the one for regular responses first. -/
def Plan.sources (plan : Plan) : List String := plan.primary.toList ++ plan.handlers.map Prod.snd

/-- Whether the function for regular responses, if there is one, has passed its checks. -/
def OwnChecked (schema : Schema) : Option (Convention × String) → Option String → Prop
  | some (convention, code), some canonical =>
    checked schema code convention.exportName convention.exportName = .ok canonical ∧
      checkPrimary convention canonical = .ok ()
  | none, none => True
  | _, _ => False

/-- What a group that has passed all checks is like. `own` is its function for regular responses
with the convention that its name demands, and `sources` are its handlers. -/
structure Planned (exports : Exports) (plan : Plan) (own : Option (Convention × String))
    (sources : Entries String) : Prop where
  schema : exports.schema = .ok plan.schema
  helpers : exports.helpers = .ok plan.helpers
  primary : primary exports = .ok own
  handlers : handlers exports = .ok sources
  ownChecked : OwnChecked plan.schema own plan.primary
  handlersChecked : checkedHandlers plan.schema sources = .ok plan.handlers
  convention : handlerConvention (own.map Prod.fst) plan.handlers = .ok plan.convention

theorem planned_of_plan {exports : Exports} {found : Plan} (h : plan exports = .ok found) :
    ∃ own sources, Planned exports found own sources := by
  unfold plan at h
  obtain ⟨schema, hschema, h⟩ := Outcome.bind_eq_ok.1 h
  obtain ⟨own, hown, h⟩ := Outcome.bind_eq_ok.1 h
  obtain ⟨sources, hsources, h⟩ := Outcome.bind_eq_ok.1 h
  obtain ⟨helpers, hhelpers, h⟩ := Outcome.bind_eq_ok.1 h
  refine ⟨own, sources, ?_⟩
  cases own with
  | none =>
    obtain ⟨_, ⟨⟩, h⟩ := Outcome.bind_eq_ok.1 h
    obtain ⟨handlers, hhandlers, h⟩ := Outcome.bind_eq_ok.1 h
    obtain ⟨_, -, h⟩ := Outcome.bind_eq_ok.1 h
    obtain ⟨convention, hconvention, h⟩ := Outcome.bind_eq_ok.1 h
    cases h
    exact ⟨hschema, hhelpers, hown, hsources, trivial, hhandlers, hconvention⟩
  | some own =>
    obtain ⟨_, hcanonical, h⟩ := Outcome.bind_eq_ok.1 h
    obtain ⟨canonical, hchecked, rfl⟩ := Outcome.map_eq_ok.1 hcanonical
    obtain ⟨handlers, hhandlers, h⟩ := Outcome.bind_eq_ok.1 h
    obtain ⟨_, hprimary, h⟩ := Outcome.bind_eq_ok.1 h
    obtain ⟨convention, hconvention, h⟩ := Outcome.bind_eq_ok.1 h
    cases h
    exact ⟨hschema, hhelpers, hown, hsources, ⟨hchecked, hprimary⟩, hhandlers, hconvention⟩

/-! ## The exports behind a plan -/

theorem primary_eq_none {exports : Exports} (h : primary exports = .ok none) :
    exports.defined? Convention.batch.exportName = none ∧
      exports.defined? Convention.singleItem.exportName = none := by
  unfold primary at h
  cases hbatch : exports.defined? Convention.batch.exportName with
  | none =>
    cases hsingle : exports.defined? Convention.singleItem.exportName with
    | none => exact ⟨rfl, rfl⟩
    | some value =>
      simp only [hbatch, hsingle] at h
      cases hcode : value.function? <;> simp [hcode] at h
  | some value =>
    cases hsingle : exports.defined? Convention.singleItem.exportName with
    | some other => simp [hbatch, hsingle] at h
    | none =>
      simp only [hbatch, hsingle] at h
      cases hcode : value.function? <;> simp [hcode] at h

/-- A function for regular responses stands under the name for its convention, and the other name
is not exported. -/
theorem primary_eq_some {exports : Exports} {convention : Convention} {code : String}
    (h : primary exports = .ok (some (convention, code))) (other : Convention) :
    exports.defined? other.exportName =
      if other = convention then some (.function code) else none := by
  unfold primary at h
  have hcode {value : Export} (hvalue : value.function? = some code) :
      value = .function code := by
    cases value <;> simp_all [Export.function?]
  cases hbatch : exports.defined? Convention.batch.exportName with
  | none =>
    cases hsingle : exports.defined? Convention.singleItem.exportName with
    | none => simp [hbatch, hsingle] at h
    | some value =>
      simp only [hbatch, hsingle] at h
      cases hfunction : value.function? with
      | none => simp [hfunction] at h
      | some found =>
        obtain ⟨rfl, rfl⟩ : Convention.singleItem = convention ∧ found = code := by
          simpa [hfunction] using h
        cases other with
        | batch => exact hbatch
        | singleItem => rw [hsingle, hcode hfunction, if_pos rfl]
  | some value =>
    cases hsingle : exports.defined? Convention.singleItem.exportName with
    | some _ => simp [hbatch, hsingle] at h
    | none =>
      simp only [hbatch, hsingle] at h
      cases hfunction : value.function? with
      | none => simp [hfunction] at h
      | some found =>
        obtain ⟨rfl, rfl⟩ : Convention.batch = convention ∧ found = code := by
          simpa [hfunction] using h
        cases other with
        | batch => rw [hbatch, hcode hfunction, if_pos rfl]
        | singleItem => exact hsingle

theorem handlerSources_eq_ok {entries : Entries Export} {sources : Entries String}
    (h : handlerSources entries = .ok sources) :
    entries = sources.map fun source => (source.1, .function source.2) := by
  induction entries generalizing sources with
  | nil =>
    cases h
    rfl
  | cons entry rest ih =>
    obtain ⟨key, handler⟩ := entry
    unfold handlerSources at h
    cases handler with
    | function code =>
      obtain ⟨others, hothers, rfl⟩ := Outcome.map_eq_ok.1 h
      rw [ih hothers]
      rfl
    | object _ => cases h
    | literal _ => cases h
    | dynamic _ => cases h

theorem handlers_eq_ok {exports : Exports} {sources : Entries String}
    (h : handlers exports = .ok sources) :
    handlerEntries exports = sources.map fun source => (source.1, .function source.2) := by
  unfold handlers at h
  unfold handlerEntries
  cases hvalue : exports.defined? "errorHandlers" with
  | none =>
    rw [hvalue] at h
    cases h
    rfl
  | some value =>
    rw [hvalue] at h
    cases value with
    | object entries => exact handlerSources_eq_ok h
    | function _ => cases h
    | literal _ => cases h
    | dynamic _ => cases h

/-- The functions of a group as its plan has found them. -/
theorem Planned.functions_eq {exports : Exports} {plan : Plan}
    {own : Option (Convention × String)} {sources : Entries String}
    (h : Planned exports plan own sources) :
    functions exports =
      (own.toList.map fun found => (found.1.exportName, found.2)) ++
        sources.map fun source => (handlerName, source.2) := by
  have hhandlers : (handlerEntries exports).filterMap (fun entry =>
      entry.2.function?.map fun code => (handlerName, code)) =
      sources.map fun source => (handlerName, source.2) := by
    rw [handlers_eq_ok h.handlers, List.filterMap_map]
    exact congrFun List.filterMap_eq_map' sources
  unfold functions ownFunctions
  rw [hhandlers]
  cases own with
  | none =>
    obtain ⟨hbatch, hsingle⟩ := primary_eq_none h.primary
    rw [hbatch, hsingle]
    rfl
  | some found =>
    obtain ⟨convention, code⟩ := found
    rw [primary_eq_some h.primary .batch, primary_eq_some h.primary .singleItem]
    cases convention <;> rfl

/-! ## Canonical forms -/

/-- What stands on the left of two lists in relation has a partner on the right. -/
theorem exists_of_forall₂ {α β : Type} {R : α → β → Prop} {as : List α} {bs : List β}
    (h : List.Forall₂ R as bs) {a : α} (hmem : a ∈ as) : ∃ b ∈ bs, R a b := by
  induction h with
  | nil => cases hmem
  | @cons _ b _ _ hfirst _ ih =>
    rcases List.mem_cons.1 hmem with rfl | hmem
    · exact ⟨b, List.mem_cons_self, hfirst⟩
    · obtain ⟨other, hother, hrest⟩ := ih hmem
      exact ⟨other, List.mem_cons_of_mem _ hother, hrest⟩

theorem checked_eq_ok {schema : Schema} {code name label canonical : String}
    (h : checked schema code name label = .ok canonical) :
    normalize code name = .ok canonical ∧ checkUsages canonical schema label = .ok () := by
  unfold checked at h
  obtain ⟨text, htext, h⟩ := Outcome.bind_eq_ok.1 h
  obtain ⟨_, husages, h⟩ := Outcome.bind_eq_ok.1 h
  cases h
  exact ⟨htext, husages⟩

/-- Each handler is found again, under its key, in canonical form and with declared uses only. -/
theorem checkedHandlers_eq_ok {schema : Schema} {sources handlers : Entries String}
    (h : checkedHandlers schema sources = .ok handlers) :
    List.Forall₂ (fun source handler => handler.1 = source.1 ∧
      normalize source.2 handlerName = .ok handler.2 ∧
        checkUsages handler.2 schema source.1 = .ok ()) sources handlers := by
  induction sources generalizing handlers with
  | nil =>
    cases h
    exact .nil
  | cons source rest ih =>
    obtain ⟨key, code⟩ := source
    unfold checkedHandlers at h
    obtain ⟨canonical, hcanonical, h⟩ := Outcome.bind_eq_ok.1 h
    obtain ⟨others, hothers, h⟩ := Outcome.bind_eq_ok.1 h
    cases h
    exact .cons ⟨rfl, checked_eq_ok hcanonical⟩ (ih hothers)

/-- The canonical forms in a plan are those of the functions of the group, in order. -/
theorem Planned.sources_eq {exports : Exports} {plan : Plan}
    {own : Option (Convention × String)} {sources : Entries String}
    (h : Planned exports plan own sources) :
    List.Forall₂ (fun function canonical => normalize function.2 function.1 = .ok canonical)
      (functions exports) plan.sources := by
  have hhandlers : List.Forall₂
      (fun function canonical => normalize function.2 function.1 = .ok canonical)
      (sources.map fun source => (handlerName, source.2)) (plan.handlers.map Prod.snd) := by
    rw [List.forall₂_map_left_iff, List.forall₂_map_right_iff]
    exact (checkedHandlers_eq_ok h.handlersChecked).imp fun _ _ found => found.2.1
  rw [h.functions_eq]
  unfold Plan.sources
  have hown := h.ownChecked
  cases own with
  | none =>
    cases hprimary : plan.primary with
    | none => exact hhandlers
    | some canonical =>
      rw [hprimary] at hown
      exact hown.elim
  | some found =>
    obtain ⟨convention, code⟩ := found
    cases hprimary : plan.primary with
    | none =>
      rw [hprimary] at hown
      exact hown.elim
    | some canonical =>
      rw [hprimary] at hown
      exact .cons (checked_eq_ok hown.1).1 hhandlers

end Collector.Transform
