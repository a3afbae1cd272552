import Collector.Proofs.Export.WellFormed
import Collector.Proofs.Group.Convention

/-!
# Functions of a group compile separately

A group is checked as a whole, but each of its functions is compiled as if it stood alone: its body
is what `compileFunction` makes of it with the helpers of the group.

* `bodies_of_outcome` puts the bodies beside the functions, in order.
* `Planned.artifacts_default` and `Planned.artifacts_handlers` tell which body is whose.
* `group_compiles_each_alone` is the result: no body depends on the functions around it.
-/

namespace Collector

/-- A function is brought into canonical form with its helpers, and that text is handed to the
compressor. -/
theorem compileFunction_hands (compressor : Compressor) (helpers : Entries Export)
    (code name : String) :
    Compile.Hands (compileFunction compressor helpers code name)
      (Transform.bundled helpers (name, code) >>= fun text => compressor text >>= extractBody)
      (Transform.bundled helpers (name, code)).toOption.toList := by
  unfold compileFunction Transform.bundled
  cases hcanonical : normalize code name with
  | error error => exact (Compile.Hands.ofOutcome (.error error)).bind_error
  | ok canonical =>
    have start := Compile.Hands.ofOutcome (.ok canonical : Outcome String)
    simp only [Outcome.bind_ok]
    cases hbundle : bundle canonical helpers with
    | error error => exact start.bind (compileCanonical_hands_error compressor hbundle)
    | ok text => exact start.bind (compileCanonical_hands compressor hbundle)

theorem compileFunction_outcome (compressor : Compressor) (helpers : Entries Export)
    (code name : String) :
    (compileFunction compressor helpers code name).outcome =
      Transform.bundled helpers (name, code) >>= fun text => compressor text >>= extractBody :=
  congrArg Prod.fst (compileFunction_hands compressor helpers code name).trace_eq

/-- What the compressor sees of a function is its bundle. -/
theorem bundled_of_mem_trace {compressor : Compressor} {helpers : Entries Export}
    {code name text : String} (h : text ∈ (compileFunction compressor helpers code name).trace.2) :
    ∃ canonical, normalize code name = .ok canonical ∧ bundle canonical helpers = .ok text := by
  rw [(compileFunction_hands compressor helpers code name).trace_eq] at h
  exact Outcome.bind_eq_ok.mp (Outcome.eq_ok_of_toOption (Option.mem_toList.mp h))

namespace Transform

/-! ## The bodies of a group -/

/-- Whether a function, compiled alone under the name that it has in canonical form, has a body. -/
def CompilesTo (compressor : Compressor) (helpers : Entries Export) (function : String × String)
    (body : String) : Prop :=
  (compileFunction compressor helpers function.2 function.1).outcome = .ok body

theorem compilesTo_iff {compressor : Compressor} {helpers : Entries Export}
    {function : String × String} {body : String} :
    CompilesTo compressor helpers function body ↔
      ∃ text, bundled helpers function = .ok text ∧ compressor text >>= extractBody = .ok body := by
  unfold CompilesTo
  rw [compileFunction_outcome, Outcome.bind_eq_ok]

/-- One function has one body. -/
theorem CompilesTo.unique {compressor : Compressor} {helpers : Entries Export}
    {function : String × String} {body other : String}
    (h : CompilesTo compressor helpers function body)
    (h' : CompilesTo compressor helpers function other) : body = other :=
  Except.ok.inj (h.symm.trans h')

/-- Texts that are bundled and compressed in turn are compiled one by one. -/
theorem forall₂_compilesTo {compressor : Compressor} {helpers : Entries Export}
    {functions : List (String × String)} {texts bodies : List String}
    (htexts : functions.mapM (bundled helpers) = .ok texts)
    (hbodies : (compressed compressor texts).1 = .ok bodies) :
    List.Forall₂ (CompilesTo compressor helpers) functions bodies := by
  induction functions generalizing texts bodies with
  | nil =>
    cases htexts
    cases hbodies
    exact .nil
  | cons function rest ih =>
    rw [List.mapM_cons] at htexts
    obtain ⟨text, htext, htexts⟩ := Outcome.bind_eq_ok.1 htexts
    obtain ⟨others, hothers, htexts⟩ := Outcome.bind_eq_ok.1 htexts
    cases htexts
    unfold compressed at hbodies
    cases hbody : compressor text >>= extractBody with
    | error error =>
      rw [hbody] at hbodies
      cases hbodies
    | ok body =>
      rw [hbody] at hbodies
      obtain ⟨more, hmore, rfl⟩ := Outcome.map_eq_ok.1 hbodies
      exact .cons (compilesTo_iff.2 ⟨text, htext, hbody⟩) (ih hothers hmore)

/-- The functions of a group that compiles have the bodies that they have alone. -/
theorem bodies_of_outcome {compressor : Compressor} {exports : Exports}
    {artifacts : TransformArtifacts}
    (h : (compileTransform compressor exports).outcome = .ok artifacts) :
    ∃ plan own sources bodies, Planned exports plan own sources ∧
      artifacts = plan.artifacts bodies ∧
      List.Forall₂ (CompilesTo compressor plan.helpers) (functions exports) bodies := by
  unfold Compile.outcome at h
  rcases compileTransform_cases compressor exports with
    ⟨_, htrace⟩ | ⟨plan, texts, hplan, htexts, htrace⟩
  · rw [htrace] at h
    cases h
  · rw [htrace] at h
    obtain ⟨own, sources, hplanned⟩ := planned_of_plan hplan
    obtain ⟨bodies, hbodies, rfl⟩ := Outcome.map_eq_ok.1 h
    exact ⟨plan, own, sources, bodies, hplanned, rfl,
      forall₂_compilesTo (hplanned.bundles_eq.symm.trans htexts) hbodies⟩

/-! ## Which body is whose -/

section Planned

variable {compressor : Compressor} {exports : Exports} {plan : Plan}
  {own : Option (Convention × String)} {sources : Entries String} {bodies : List String}

/-- The keys of the handlers in a plan are those of the handlers that are exported. -/
theorem Planned.handler_keys (h : Planned exports plan own sources) :
    plan.handlers.map Prod.fst = sources.map Prod.fst := by
  have hall := checkedHandlers_eq_ok h.handlersChecked
  clear h
  generalize plan.handlers = handlers at hall
  induction hall with
  | nil => rfl
  | cons hfirst _ ih => rw [List.map_cons, List.map_cons, ih, hfirst.1]

/-- The body of the function for regular responses, and what is left for the handlers. -/
theorem Planned.artifacts_eq (h : Planned exports plan own sources)
    (hall : List.Forall₂ (CompilesTo compressor plan.helpers) (functions exports) bodies) :
    ∃ rest, List.Forall₂ (fun source body =>
        CompilesTo compressor plan.helpers (handlerName, source.2) body) sources rest ∧
      (plan.artifacts bodies).errorHandlers = (sources.map Prod.fst).zip rest ∧
      (own = none ∧ (plan.artifacts bodies).default = none ∨
        ∃ found body, own = some found ∧ (plan.artifacts bodies).default = some body ∧
          CompilesTo compressor plan.helpers (found.1.exportName, found.2) body) := by
  have hown := h.ownChecked
  unfold Plan.artifacts
  rw [h.functions_eq] at hall
  rw [h.handler_keys]
  cases own with
  | none =>
    cases hprimary : plan.primary with
    | some canonical =>
      rw [hprimary] at hown
      exact hown.elim
    | none => exact ⟨bodies, List.forall₂_map_left_iff.1 hall, rfl, .inl ⟨rfl, rfl⟩⟩
  | some found =>
    cases hprimary : plan.primary with
    | none =>
      rw [hprimary] at hown
      exact hown.elim
    | some canonical =>
      obtain ⟨body, rest, hbody, hrest, rfl⟩ := List.forall₂_cons_left_iff.1 hall
      exact ⟨rest, List.forall₂_map_left_iff.1 hrest, rfl, .inr ⟨found, body, rfl, rfl, hbody⟩⟩

end Planned

/-- What handlers and their bodies have in common: the key, and that the body is that of the
handler alone. -/
def HandlerCompiles (compressor : Compressor) (helpers : Entries Export) (entry : String × Export)
    (handler : String × String) : Prop :=
  handler.1 = entry.1 ∧ ∃ code, entry.2 = .function code ∧
    CompilesTo compressor helpers (handlerName, code) handler.2

theorem forall₂_handlerCompiles {compressor : Compressor} {helpers : Entries Export}
    {sources : Entries String} {bodies : List String}
    (h : List.Forall₂ (fun source body =>
      CompilesTo compressor helpers (handlerName, source.2) body) sources bodies) :
    List.Forall₂ (HandlerCompiles compressor helpers)
      (sources.map fun source => (source.1, Export.function source.2))
      ((sources.map Prod.fst).zip bodies) := by
  induction h with
  | nil => exact .nil
  | cons hfirst _ ih => exact .cons ⟨rfl, _, rfl, hfirst⟩ ih

theorem names_of_handlerCompiles {compressor : Compressor} {helpers entries : Entries Export}
    {handlers : Entries String}
    (h : List.Forall₂ (HandlerCompiles compressor helpers) entries handlers) :
    Entries.names handlers = Entries.names entries := by
  induction h with
  | nil => rfl
  | cons hfirst _ ih => rw [Entries.names_cons, Entries.names_cons, ih, hfirst.1]

/-- The handler under a key has the body that it has alone. -/
theorem get?_of_handlerCompiles {compressor : Compressor} {helpers entries : Entries Export}
    {handlers : Entries String}
    (h : List.Forall₂ (HandlerCompiles compressor helpers) entries handlers) {key code : String}
    (hcode : Entries.get? entries key = some (.function code)) :
    ∃ body, Entries.get? handlers key = some body ∧
      CompilesTo compressor helpers (handlerName, code) body := by
  induction h with
  | nil => cases hcode
  | @cons entry handler entries handlers hfirst _ ih =>
    obtain ⟨name, value⟩ := entry
    obtain ⟨found, body⟩ := handler
    obtain ⟨rfl, source, rfl, hbody⟩ := hfirst
    rw [Entries.get?_cons] at hcode ⊢
    split at hcode
    · rename_i hkey
      cases hcode
      exact ⟨body, if_pos hkey, hbody⟩
    · rename_i hkey
      rw [if_neg hkey]
      exact ih hcode

theorem handlerEntries_nodup {exports : Exports} (h : exports.WellFormed) :
    (Entries.names (handlerEntries exports)).Nodup := by
  unfold handlerEntries
  cases hdefined : exports.defined? "errorHandlers" with
  | none => exact List.nodup_nil
  | some value =>
    have hvalue := h.2 _ (Entries.mem_of_get? (Option.filter_eq_some_iff.1 hdefined).1)
    cases value with
    | object entries => exact ((Export.wellFormed_object_iff entries).1 hvalue).1
    | _ => exact List.nodup_nil

/-! ## The group and its functions -/

/-- The artifacts of a group in which each function has the body that it has alone. -/
structure Separate (compressor : Compressor) (helpers : Entries Export) (exports : Exports)
    (artifacts : TransformArtifacts) : Prop where
  /-- Without a function for regular responses there is no body for them. -/
  absent : artifacts.default = none ↔
    ∀ convention : Convention, exports.defined? convention.exportName = none
  present : ∀ (convention : Convention) value,
    exports.defined? convention.exportName = some value →
      ∃ code body, value = .function code ∧ artifacts.default = some body ∧
        CompilesTo compressor helpers (convention.exportName, code) body
  handlers : List.Forall₂ (HandlerCompiles compressor helpers) (handlerEntries exports)
    artifacts.errorHandlers

/-- A group that compiles is compiled function by function. -/
theorem separate_of_outcome {compressor : Compressor} {exports : Exports}
    {artifacts : TransformArtifacts}
    (h : (compileTransform compressor exports).outcome = .ok artifacts) :
    ∃ helpers, exports.helpers = .ok helpers ∧
      Separate compressor helpers exports artifacts := by
  obtain ⟨plan, own, sources, bodies, hplanned, rfl, hall⟩ := bodies_of_outcome h
  obtain ⟨rest, hrest, hhandlers, hown⟩ := hplanned.artifacts_eq hall
  refine ⟨plan.helpers, hplanned.helpers, ?_, ?_, ?_⟩
  · rcases hown with ⟨rfl, hnone⟩ | ⟨found, body, rfl, hsome, -⟩
    · obtain ⟨hbatch, hsingle⟩ := primary_eq_none hplanned.primary
      refine iff_of_true hnone fun convention => ?_
      cases convention with
      | batch => exact hbatch
      | singleItem => exact hsingle
    · have hfound := primary_eq_some hplanned.primary found.1
      rw [if_pos rfl] at hfound
      rw [hsome]
      exact iff_of_false nofun fun hnone => nomatch (hnone found.1).symm.trans hfound
  · intro convention value hvalue
    rcases hown with ⟨rfl, -⟩ | ⟨⟨demanded, code⟩, body, rfl, hsome, hbody⟩
    · obtain ⟨hbatch, hsingle⟩ := primary_eq_none hplanned.primary
      cases convention with
      | batch => cases hbatch.symm.trans hvalue
      | singleItem => cases hsingle.symm.trans hvalue
    · rw [primary_eq_some hplanned.primary convention] at hvalue
      split at hvalue
      · rename_i hsame
        obtain rfl := hsame
        exact ⟨code, body, (Option.some.inj hvalue).symm, hsome, hbody⟩
      · cases hvalue
  · rw [hhandlers, handlers_eq_ok hplanned.handlers]
    exact forall₂_handlerCompiles hrest

section Separate

variable {compressor : Compressor} {helpers : Entries Export} {exports other : Exports}
  {artifacts others : TransformArtifacts}

/-- Two groups with the same helpers have the same body for regular responses if they export the
same function for them. -/
theorem Separate.default_eq (h : Separate compressor helpers exports artifacts)
    (h' : Separate compressor helpers other others) {convention : Convention}
    (hdefined : exports.defined? convention.exportName ≠ none)
    (hsame : other.defined? convention.exportName = exports.defined? convention.exportName) :
    others.default = artifacts.default := by
  obtain ⟨value, hvalue⟩ := Option.ne_none_iff_exists'.1 hdefined
  obtain ⟨code, body, rfl, hbody, hcompiles⟩ := h.present convention value hvalue
  obtain ⟨code', body', hcode, hbody', hcompiles'⟩ :=
    h'.present convention _ (hsame.trans hvalue)
  cases hcode
  rw [hbody, hbody', hcompiles.unique hcompiles']

/-- Two groups with the same helpers have the same body for a handler that both export. -/
theorem Separate.handler_eq (h : Separate compressor helpers exports artifacts)
    (h' : Separate compressor helpers other others) {key key' : String}
    (hdefined : Entries.get? (handlerEntries exports) key ≠ none)
    (hsame : Entries.get? (handlerEntries other) key' =
      Entries.get? (handlerEntries exports) key) :
    Entries.get? others.errorHandlers key' = Entries.get? artifacts.errorHandlers key := by
  obtain ⟨value, hvalue⟩ := Option.ne_none_iff_exists'.1 hdefined
  obtain ⟨handler, -, -, code, rfl, -⟩ := exists_of_forall₂ h.handlers (Entries.mem_of_get? hvalue)
  obtain ⟨body, hbody, hcompiles⟩ := get?_of_handlerCompiles h.handlers hvalue
  obtain ⟨body', hbody', hcompiles'⟩ := get?_of_handlerCompiles h'.handlers (hsame.trans hvalue)
  rw [hbody, hbody', hcompiles.unique hcompiles']

end Separate

/-- A group that compiles has a body for regular responses exactly if it exports a function for
them, and one for each handler that it exports, under the same keys and in the same order. Each is
what the function has alone, with the helpers of the group. So two groups with the same helpers
have the same body for a function that both export. -/
theorem group_compiles_each_alone (compressor : Compressor) (exports : Exports)
    {artifacts : TransformArtifacts}
    (h : (compileTransform compressor exports).outcome = .ok artifacts) :
    ∃ helpers, exports.helpers = .ok helpers ∧
      (artifacts.default = none ↔
        ∀ convention : Convention, exports.defined? convention.exportName = none) ∧
      (∀ (convention : Convention) value, exports.defined? convention.exportName = some value →
        ∃ code body, value = .function code ∧ artifacts.default = some body ∧
          (compileFunction compressor helpers code convention.exportName).outcome = .ok body) ∧
      List.Forall₂ (fun entry handler => handler.1 = entry.1 ∧ ∃ code, entry.2 = .function code ∧
          (compileFunction compressor helpers code handlerName).outcome = .ok handler.2)
        (handlerEntries exports) artifacts.errorHandlers ∧
      (exports.WellFormed → (Entries.names artifacts.errorHandlers).Nodup) ∧
      ∀ (other : Exports) (others : TransformArtifacts), other.helpers = .ok helpers →
        (compileTransform compressor other).outcome = .ok others →
        (∀ convention : Convention, exports.defined? convention.exportName ≠ none →
          other.defined? convention.exportName = exports.defined? convention.exportName →
            others.default = artifacts.default) ∧
        ∀ key key', Entries.get? (handlerEntries exports) key ≠ none →
          Entries.get? (handlerEntries other) key' = Entries.get? (handlerEntries exports) key →
            Entries.get? others.errorHandlers key' = Entries.get? artifacts.errorHandlers key := by
  obtain ⟨helpers, hhelpers, hseparate⟩ := separate_of_outcome h
  refine ⟨helpers, hhelpers, hseparate.absent, hseparate.present, hseparate.handlers,
    fun hexports => ?_, fun other others hother hothers => ?_⟩
  · rw [names_of_handlerCompiles hseparate.handlers]
    exact handlerEntries_nodup hexports
  · obtain ⟨found, hfound, hseparate'⟩ := separate_of_outcome hothers
    obtain rfl := Except.ok.inj (hother.symm.trans hfound)
    exact ⟨fun _ hdefined hsame => hseparate.default_eq hseparate' hdefined hsame,
      fun _ _ hdefined hsame => hseparate.handler_eq hseparate' hdefined hsame⟩

/-- A group that shares a handler and the helpers with `withHandler`, and has it under another
key. -/
def otherHandlers : Exports :=
  [("errorHandlers", .object [("5..", .function "(ctx, subjects) => id(ctx)"),
      ("4..", .function "subjects => []")]),
    ("helpers", .object [("id", .function "x => x")])]

/-- The handler has the same body in both groups, and the body for regular responses is that of
the function alone. -/
theorem group_compiles_each_alone_withHandler :
    ∃ helpers artifacts others, (compileTransform .ok withHandler).outcome = .ok artifacts ∧
      (compileTransform .ok otherHandlers).outcome = .ok others ∧
      withHandler.helpers = .ok helpers ∧ otherHandlers.helpers = .ok helpers ∧
      (∃ body, artifacts.default = some body ∧ (compileFunction .ok helpers
        "(ctx, subjects) => subjects" "transformBulk").outcome = .ok body) ∧
      Entries.get? others.errorHandlers "4.." = Entries.get? artifacts.errorHandlers "404" := by
  have hother : (compileTransform .ok otherHandlers).outcome.toOption.isSome = true := by
    decide +kernel
  obtain ⟨artifacts, houtcome⟩ := withHandler_compiles
  obtain ⟨others, hothers⟩ := Option.isSome_iff_exists.mp hother
  have hothers := Outcome.eq_ok_of_toOption hothers
  obtain ⟨helpers, hhelpers, -, hpresent, -, -, hshared⟩ :=
    group_compiles_each_alone .ok withHandler houtcome
  obtain ⟨code, body, hcode, hbody⟩ := hpresent .batch _ rfl
  cases hcode
  cases hhelpers
  refine ⟨_, artifacts, others, houtcome, hothers, rfl, rfl, ⟨body, hbody⟩, ?_⟩
  exact (hshared otherHandlers others rfl hothers).2 "404" "4.." nofun rfl

end Transform

end Collector
