import Collector.Proofs.Function.Bundle
import Collector.Proofs.Group.Plan
import Collector.Proofs.Running

/-!
# What a compilation hands to the compressor

A compilation hands texts to the compressor one after another, and stops at the first one that
cannot be compressed.

* `Compile.Hands` tells what a compilation answers and which texts it hands over, whatever has been
  handed over before.
* `compressed` is what becomes of a list of texts, and which of them are seen.
* `Plan.compile_hands` puts the two together for a transform group: the texts are its functions in
  canonical form, with the helpers of the group. All helpers are looked at before anything is
  handed over, since they are the same for all functions (`bundle_eq`).
* `compressor_sees_bundles_only` is the result.
-/

namespace Collector

variable {α β : Type}

/-! ## Runs of compilations -/

/-- What a compilation answers, and which texts it hands to the compressor. -/
def Compile.Hands (compile : Compile α) (outcome : Outcome α) (texts : List String) : Prop :=
  ∀ seen, Work.runOn compile seen = (outcome, seen ++ texts)

namespace Compile

variable {compile : Compile α} {next : α → Compile β} {texts others : List String}

theorem Hands.trace_eq {outcome : Outcome α} (h : Hands compile outcome texts) :
    compile.trace = (outcome, texts) := h []

theorem Hands.ofOutcome (outcome : Outcome α) : Hands (Compile.ofOutcome outcome) outcome [] := by
  intro seen
  rw [List.append_nil]
  rfl

theorem Hands.pure (a : α) : Hands (Pure.pure a : Compile α) (.ok a) [] := Hands.ofOutcome (.ok a)

theorem Hands.compress (compressor : Compressor) (text : String) :
    Hands (Compile.compress compressor text) (compressor text) [text] := fun _ => rfl

theorem Hands.bind {a : α} {outcome : Outcome β} (h : Hands compile (.ok a) texts)
    (hnext : Hands (next a) outcome others) :
    Hands (compile >>= next) outcome (texts ++ others) := by
  intro seen
  have hrun := Work.bind_runOn compile next seen
  rw [h seen] at hrun
  refine hrun.trans ?_
  rw [← List.append_assoc]
  exact hnext (seen ++ texts)

theorem Hands.bind_error {error : Error} (h : Hands compile (.error error) texts) :
    Hands (compile >>= next) (.error error) texts := by
  intro seen
  have hrun := Work.bind_runOn compile next seen
  rw [h seen] at hrun
  exact hrun

theorem Hands.then_pure {outcome : Outcome α} (h : Hands compile outcome texts) (f : α → β) :
    Hands (compile >>= fun a => Pure.pure (f a)) (outcome.map f) texts := by
  cases outcome with
  | error error => exact h.bind_error
  | ok a =>
    have hbind : Hands (compile >>= fun a => Pure.pure (f a)) _ _ := h.bind (Hands.pure (f a))
    rw [List.append_nil] at hbind
    exact hbind

theorem Hands.map {outcome : Outcome α} (h : Hands compile outcome texts) (f : α → β) :
    Hands (f <$> compile) (outcome.map f) texts := by
  rw [map_eq_pure_bind]
  exact h.then_pure f

end Compile

/-! ## Lists of texts -/

/-- Compresses texts in order up to the first failure: the bodies of all of them, and the texts
that the compressor has seen. -/
def compressed (compressor : Compressor) : List String → Outcome (List String) × List String
  | [] => (.ok [], [])
  | text :: rest =>
    match compressor text >>= extractBody with
    | .error error => (.error error, [text])
    | .ok body =>
      ((compressed compressor rest).1.map (body :: ·), text :: (compressed compressor rest).2)

theorem compressed_prefix (compressor : Compressor) (texts : List String) :
    (compressed compressor texts).2 <+: texts := by
  induction texts with
  | nil => exact List.nil_prefix
  | cons text rest ih =>
    unfold compressed
    cases compressor text >>= extractBody with
    | error error => exact List.cons_prefix_cons.2 ⟨rfl, List.nil_prefix⟩
    | ok body => exact List.cons_prefix_cons.2 ⟨rfl, ih⟩

theorem compressed_of_ok {compressor : Compressor} {texts bodies : List String}
    (h : (compressed compressor texts).1 = .ok bodies) :
    (compressed compressor texts).2 = texts := by
  induction texts generalizing bodies with
  | nil => rfl
  | cons text rest ih =>
    unfold compressed at h ⊢
    cases hbody : compressor text >>= extractBody with
    | error error =>
      rw [hbody] at h
      cases h
    | ok body =>
      rw [hbody] at h
      obtain ⟨others, hothers, -⟩ := Outcome.map_eq_ok.1 h
      exact congrArg (text :: ·) (ih hothers)

/-- The last text that the compressor has seen is the one that could not be compressed. -/
theorem compressed_of_error {compressor : Compressor} {texts : List String} {error : Error}
    (h : (compressed compressor texts).1 = .error error) :
    ∃ last, (compressed compressor texts).2.getLast? = some last ∧
      compressor last >>= extractBody = .error error := by
  induction texts with
  | nil => cases h
  | cons text rest ih =>
    unfold compressed at h ⊢
    cases hbody : compressor text >>= extractBody with
    | error found =>
      rw [hbody] at h
      cases h
      exact ⟨text, rfl, hbody⟩
    | ok body =>
      rw [hbody] at h
      have hrest : (compressed compressor rest).1 = .error error := by
        cases hothers : (compressed compressor rest).1 with
        | ok others =>
          rw [hothers] at h
          cases h
        | error found =>
          rw [hothers] at h
          exact congrArg Except.error (Except.error.inj h)
      obtain ⟨last, hlast, herror⟩ := ih hrest
      refine ⟨last, ?_, herror⟩
      show (text :: (compressed compressor rest).2).getLast? = _
      rw [List.getLast?_cons, hlast]
      rfl

/-! ## Functions of a group -/

namespace Transform

/-- A function in canonical form under its name, with helpers. -/
def bundled (helpers : Entries Export) (function : String × String) : Outcome String := do
  let canonical ← normalize function.2 function.1
  bundle canonical helpers

/-- The texts that a group hands to the compressor if nothing fails: its functions in canonical
form, the one for regular responses first, with the helpers of the group. -/
def bundles (exports : Exports) : Outcome (List String) := do
  let helpers ← exports.helpers
  (functions exports).mapM (bundled helpers)

/-- The artifacts of a checked group, given the bodies of its functions. -/
def Plan.artifacts (plan : Plan) (bodies : List String) : TransformArtifacts :=
  let count := plan.primary.toList.length
  ⟨(bodies.take count).head?, (plan.handlers.map Prod.fst).zip (bodies.drop count),
    plan.convention, plan.schema⟩

end Transform

theorem compileCanonical_hands (compressor : Compressor) {helpers : Entries Export}
    {canonical text : String} (h : bundle canonical helpers = .ok text) :
    Compile.Hands (compileCanonical compressor helpers canonical)
      (compressor text >>= extractBody) [text] := by
  unfold compileCanonical
  rw [h]
  refine (Compile.Hands.ofOutcome (.ok text)).bind ?_
  have hcompress := Compile.Hands.compress compressor text
  cases hsmall : compressor text with
  | error error =>
    rw [hsmall] at hcompress
    exact hcompress.bind_error
  | ok small =>
    rw [hsmall] at hcompress
    exact hcompress.bind (Compile.Hands.ofOutcome (extractBody small))

/-- A function of which the bundle fails is not handed over. -/
theorem compileCanonical_hands_error (compressor : Compressor) {helpers : Entries Export}
    {canonical : String} {error : Error} (h : bundle canonical helpers = .error error) :
    Compile.Hands (compileCanonical compressor helpers canonical) (.error error) [] := by
  unfold compileCanonical
  rw [h]
  exact (Compile.Hands.ofOutcome (.error error)).bind_error

namespace Transform

theorem compileHandlers_hands (compressor : Compressor) {helpers : Entries Export}
    {handlers : Entries String} {texts : List String}
    (h : List.Forall₂ (fun handler text => bundle handler.2 helpers = .ok text) handlers texts) :
    Compile.Hands (compileHandlers compressor helpers handlers)
      ((compressed compressor texts).1.map fun bodies => (handlers.map Prod.fst).zip bodies)
      (compressed compressor texts).2 := by
  induction h with
  | nil => exact Compile.Hands.pure []
  | @cons handler text handlers texts hbundle hrest ih =>
    have hfirst := compileCanonical_hands compressor hbundle
    unfold compileHandlers compressed
    cases hbody : compressor text >>= extractBody with
    | error error =>
      rw [hbody] at hfirst
      exact hfirst.bind_error
    | ok body =>
      rw [hbody] at hfirst
      refine hfirst.bind ?_
      have hall := ih.then_pure fun bodies => (handler.1, body) :: bodies
      cases hothers : (compressed compressor texts).1 with
      | error error =>
        rw [hothers] at hall
        exact hall
      | ok bodies =>
        rw [hothers] at hall
        exact hall

/-- A checked group of which all bundles can be made hands them over in order. -/
theorem Plan.compile_hands (compressor : Compressor) {plan : Plan} {texts : List String}
    (h : List.Forall₂ (fun source text => bundle source plan.helpers = .ok text) plan.sources
      texts) :
    Compile.Hands (plan.compile compressor)
      ((compressed compressor texts).1.map plan.artifacts) (compressed compressor texts).2 := by
  unfold Plan.sources at h
  unfold Plan.compile Plan.artifacts
  cases hprimary : plan.primary with
  | none =>
    rw [hprimary] at h
    rw [Option.toList_none, List.nil_append, List.forall₂_map_left_iff] at h
    have hall := (compileHandlers_hands compressor h).then_pure fun handlers =>
      (⟨none, handlers, plan.convention, plan.schema⟩ : TransformArtifacts)
    refine (Compile.Hands.pure none).bind ?_
    cases hbodies : (compressed compressor texts).1 with
    | error error =>
      rw [hbodies] at hall
      exact hall
    | ok bodies =>
      rw [hbodies] at hall
      exact hall
  | some canonical =>
    rw [hprimary] at h
    obtain ⟨text, others, hbundle, hothers, rfl⟩ := List.forall₂_cons_left_iff.1 h
    have hothers := List.forall₂_map_left_iff.1 hothers
    have hfirst := (compileCanonical_hands compressor hbundle).map some
    unfold compressed
    cases hbody : compressor text >>= extractBody with
    | error error =>
      rw [hbody] at hfirst
      exact hfirst.bind_error
    | ok body =>
      rw [hbody] at hfirst
      refine hfirst.bind ?_
      have hall := (compileHandlers_hands compressor hothers).then_pure fun handlers =>
        (⟨some body, handlers, plan.convention, plan.schema⟩ : TransformArtifacts)
      cases hbodies : (compressed compressor others).1 with
      | error error =>
        rw [hbodies] at hall
        exact hall
      | ok bodies =>
        rw [hbodies] at hall
        exact hall

/-! ## Bundles of a group -/

/-- Helpers can be declared in all functions in canonical form or in none of them. -/
theorem bundle_cases (helpers : Entries Export) {functions : List (String × String)}
    {sources : List String}
    (h : List.Forall₂ (fun function source => normalize function.2 function.1 = .ok source)
      functions sources) :
    (∃ texts, functions.mapM (bundled helpers) = .ok texts ∧
      List.Forall₂ (fun source text => bundle source helpers = .ok text) sources texts) ∨
      ∃ error, ∀ source ∈ sources, bundle source helpers = .error error := by
  cases hdeclarations : declarations helpers with
  | error error =>
    refine .inr ⟨error, ?_⟩
    induction h with
    | nil => simp
    | cons hfunction _ ih =>
      obtain ⟨front, rfl⟩ := exists_front_of_normalize hfunction
      refine List.forall_mem_cons.2 ⟨?_, ih⟩
      rw [bundle_eq, hdeclarations]
      rfl
  | ok declared =>
    left
    induction h with
    | nil => exact ⟨[], rfl, .nil⟩
    | cons hfunction _ ih =>
      obtain ⟨texts, htexts, hall⟩ := ih
      obtain ⟨front, rfl⟩ := exists_front_of_normalize hfunction
      have hbundle : bundle (front ++ "\x7d") helpers = .ok (front ++ declared ++ "\x7d") := by
        rw [bundle_eq, hdeclarations]
        rfl
      refine ⟨_, ?_, .cons hbundle hall⟩
      rw [List.mapM_cons, htexts]
      unfold bundled
      rw [hfunction, Outcome.bind_ok, hbundle]
      rfl

theorem Planned.bundles_eq {exports : Exports} {plan : Plan}
    {own : Option (Convention × String)} {sources : Entries String}
    (h : Planned exports plan own sources) :
    bundles exports = (functions exports).mapM (bundled plan.helpers) := by
  unfold bundles
  rw [h.helpers, Outcome.bind_ok]

/-- A checked group whose helpers cannot be declared hands nothing over. It succeeds if it has no
functions. -/
theorem Plan.compile_hands_error (compressor : Compressor) {plan : Plan} {error : Error}
    (h : ∀ source ∈ plan.sources, bundle source plan.helpers = .error error) :
    plan.sources = [] ∨ Compile.Hands (plan.compile compressor) (.error error) [] := by
  unfold Plan.sources at h ⊢
  unfold Plan.compile
  cases hprimary : plan.primary with
  | none =>
    cases hhandlers : plan.handlers with
    | nil => exact .inl rfl
    | cons handler rest =>
      right
      rw [hprimary, hhandlers] at h
      have hfirst := compileCanonical_hands_error compressor (h handler.2 (by simp))
      refine (Compile.Hands.pure none).bind (Compile.Hands.bind_error ?_)
      unfold compileHandlers
      exact hfirst.bind_error
  | some canonical =>
    right
    rw [hprimary] at h
    have hfirst := compileCanonical_hands_error compressor (h canonical (by simp))
    exact (hfirst.map some).bind_error

end Transform

/-! ## Failures -/

/-- What cannot be read as an artifact has failed to be compressed. -/
theorem extractBody_error_kind {source : String} {error : Error}
    (h : extractBody source = .error error) : error.kind = .compression := by
  unfold extractBody Artifact.ofSource at h
  cases hsource : Script.parseScript? source with
  | none =>
    rw [hsource] at h
    cases h
    rfl
  | some body =>
    rw [hsource] at h
    simp only at h
    split at h
    · cases h
    · cases h
      rfl

theorem compress_error_cases {compressor : Compressor} {text : String} {error : Error}
    (h : compressor text >>= extractBody = .error error) :
    compressor text = .error error ∨
      ∃ small, compressor text = .ok small ∧ extractBody small = .error error := by
  cases hsmall : compressor text with
  | error found =>
    rw [hsmall] at h
    exact .inl h
  | ok small =>
    rw [hsmall] at h
    exact .inr ⟨small, rfl, h⟩

namespace Transform

/-- A group either hands nothing over, or its bundles up to the first one that fails. -/
theorem compileTransform_cases (compressor : Compressor) (exports : Exports) :
    (∃ error, (compileTransform compressor exports).trace = (.error error, [])) ∨
      ∃ plan texts, Transform.plan exports = .ok plan ∧ bundles exports = .ok texts ∧
        (compileTransform compressor exports).trace =
          ((compressed compressor texts).1.map plan.artifacts, (compressed compressor texts).2) := by
  unfold compileTransform
  cases hplan : Transform.plan exports with
  | error error => exact .inl ⟨error, (Compile.Hands.ofOutcome (.error error)).bind_error.trace_eq⟩
  | ok plan =>
    obtain ⟨own, sources, hplanned⟩ := planned_of_plan hplan
    have start := Compile.Hands.ofOutcome (.ok plan : Outcome Plan)
    have hsources := hplanned.sources_eq
    rw [hplanned.bundles_eq]
    rcases bundle_cases plan.helpers hsources with ⟨texts, htexts, hall⟩ | ⟨error, hall⟩
    · exact .inr ⟨plan, texts, rfl, htexts, (start.bind (Plan.compile_hands compressor hall)).trace_eq⟩
    · rcases Plan.compile_hands_error compressor hall with hnone | hfails
      · rw [hnone] at hsources hall
        rw [List.forall₂_nil_right_iff.1 hsources]
        have hempty : List.Forall₂ (fun source text => bundle source plan.helpers = .ok text)
            plan.sources [] := by
          rw [hnone]
          exact .nil
        exact .inr ⟨plan, [], rfl, rfl,
          (start.bind (Plan.compile_hands compressor hempty)).trace_eq⟩
      · exact .inl ⟨error, (start.bind hfails).trace_eq⟩

/-- A group is checked as a whole before anything is compressed. The compressor sees the bundles of
its functions in order, all of them if the group compiles, and none or some of them if it does not.
If it has seen any, the last one is what failed. -/
theorem compressor_sees_bundles_only (compressor : Compressor) (exports : Exports) :
    let outcome := (compileTransform compressor exports).trace.1
    let seen := (compileTransform compressor exports).trace.2
    (seen = [] ∨ ∃ texts, bundles exports = .ok texts ∧ seen <+: texts) ∧
      (∀ artifacts, outcome = .ok artifacts → bundles exports = .ok seen) ∧
      (∀ error, outcome = .error error → seen ≠ [] →
        ∃ last, seen.getLast? = some last ∧ (compressor last = .error error ∨
          ∃ small, compressor last = .ok small ∧ extractBody small = .error error)) ∧
      ∀ error, outcome = .error error → error.kind ≠ .compression →
        (∀ text, compressor text ≠ .error error) → seen = [] := by
  intro outcome seen
  have hlast : ∀ error, outcome = .error error → seen ≠ [] →
      ∃ last, seen.getLast? = some last ∧ (compressor last = .error error ∨
        ∃ small, compressor last = .ok small ∧ extractBody small = .error error) := by
    intro error herror hseen
    rcases compileTransform_cases compressor exports with ⟨_, htrace⟩ | ⟨plan, texts, -, -, htrace⟩
    · exact absurd (congrArg Prod.snd htrace) hseen
    · have hfails : (compressed compressor texts).1 = .error error := by
        have houtcome : (compressed compressor texts).1.map plan.artifacts = .error error :=
          (congrArg Prod.fst htrace).symm.trans herror
        cases hbodies : (compressed compressor texts).1 with
        | ok bodies =>
          rw [hbodies] at houtcome
          cases houtcome
        | error found =>
          rw [hbodies] at houtcome
          exact congrArg Except.error (Except.error.inj houtcome)
      obtain ⟨last, hlast, hcompress⟩ := compressed_of_error hfails
      exact ⟨last, (congrArg List.getLast? (congrArg Prod.snd htrace)).trans hlast,
        compress_error_cases hcompress⟩
  refine ⟨?_, fun artifacts hok => ?_, hlast, fun error herror hkind hcompressor => ?_⟩
  · rcases compileTransform_cases compressor exports with ⟨_, htrace⟩ | ⟨_, texts, -, htexts, htrace⟩
    · exact .inl (congrArg Prod.snd htrace)
    · refine .inr ⟨texts, htexts, ?_⟩
      have hseen : seen = (compressed compressor texts).2 := congrArg Prod.snd htrace
      rw [hseen]
      exact compressed_prefix compressor texts
  · rcases compileTransform_cases compressor exports with ⟨_, htrace⟩ | ⟨plan, texts, -, htexts, htrace⟩
    · cases hok.symm.trans (congrArg Prod.fst htrace)
    · have hseen : seen = (compressed compressor texts).2 := congrArg Prod.snd htrace
      obtain ⟨bodies, hbodies, -⟩ := Outcome.map_eq_ok.1 ((congrArg Prod.fst htrace).symm.trans hok)
      rw [hseen, compressed_of_ok hbodies, htexts]
  · by_contra hseen
    obtain ⟨last, -, hfails | ⟨small, -, hfails⟩⟩ := hlast error herror hseen
    · exact hcompressor last hfails
    · exact hkind (extractBody_error_kind hfails)

/-- A group with a function for regular responses and a handler. -/
def withHandler : Exports :=
  [("transformBulk", .function "(ctx, subjects) => subjects"),
    ("errorHandlers", .object [("404", .function "subjects => []")]),
    ("helpers", .object [("id", .function "x => x")])]

theorem withHandler_compiles :
    ∃ artifacts, (compileTransform .ok withHandler).outcome = .ok artifacts := by
  have hok : (compileTransform .ok withHandler).outcome.toOption.isSome = true := by decide +kernel
  obtain ⟨artifacts, hartifacts⟩ := Option.isSome_iff_exists.mp hok
  exact ⟨artifacts, Outcome.eq_ok_of_toOption hartifacts⟩

/-- A compressor that fails at handlers. -/
def refusingHandlers : Compressor := fun text =>
  if "function errorHandler".isPrefixOf text then .error .restParameter else .ok text

/-- Both functions are seen, and the second one is what the compressor refuses. -/
theorem compressor_sees_bundles_only_withHandler :
    let trace := (compileTransform refusingHandlers withHandler).trace
    trace.1 = .error .restParameter ∧ trace.2.length = 2 ∧
      (∃ texts, bundles withHandler = .ok texts ∧ trace.2 <+: texts) ∧
      ∃ last, trace.2.getLast? = some last ∧ (refusingHandlers last = .error .restParameter ∨
        ∃ small, refusingHandlers last = .ok small ∧
          extractBody small = .error .restParameter) := by
  have hrun : (compileTransform refusingHandlers withHandler).trace.2.length = 2 ∧
      Outcome.error? (compileTransform refusingHandlers withHandler).trace.1 =
        some .restParameter := by
    decide +kernel
  obtain ⟨hlength, herror⟩ := hrun
  have houtcome := Outcome.eq_error_of_error? herror
  have hnonempty : (compileTransform refusingHandlers withHandler).trace.2 ≠ [] :=
    List.ne_nil_of_length_pos (by rw [hlength]; exact Nat.zero_lt_two)
  obtain ⟨hseen, -, hlast, -⟩ := compressor_sees_bundles_only refusingHandlers withHandler
  exact ⟨houtcome, hlength, hseen.resolve_left hnonempty, hlast _ houtcome hnonempty⟩

end Transform

end Collector
