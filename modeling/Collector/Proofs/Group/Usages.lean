import Collector.Group.Connection
import Collector.Proofs.Context.Usages
import Collector.Proofs.Function.Bundled
import Collector.Proofs.Group.Convention

/-!
# Uses of context variables in what is compiled

The uses of context variables in a function are checked before its helpers are declared in it. So
what is handed to the compressor is a bundle of which the function itself reads declared variables
only, and its helpers may read any.

* `ReadsDeclared` says of a text that it reads declared variables only, `HelpersDeclared` of helpers
  that each of them does, and `BundlesDeclared` of a bundle that its function did so.
* `readsDeclared_bundle_iff`: a bundle reads what its function and its helpers read.
* `own_usages_declared` is the result for both groups.
* `bundle_reads_undeclared` is a group of which the bundle reads a variable that is not declared.
-/

namespace Collector

/-- Whether a text reads no context variables but those of a schema. -/
def ReadsDeclared (schema : Schema) (text : String) : Prop :=
  ∃ names, contextUsages text = .ok names ∧ ∀ name ∈ names, Entries.has schema name = true

/-- Whether no helper reads context variables but those of a schema, each in its canonical form. -/
def HelpersDeclared (schema : Schema) (helpers : Entries Export) : Prop :=
  ∀ helper ∈ helpers, ∃ canonical,
    helperText helper.1 helper.2 = .ok canonical ∧ ReadsDeclared schema canonical

/-- Whether a text is a function in its canonical form, with helpers in it, that has read no context
variables but those of a schema before the helpers were put in. -/
def BundlesDeclared (schema : Schema) (helpers : Entries Export) (text : String) : Prop :=
  ∃ code name canonical, normalize code name = .ok canonical ∧
    bundle canonical helpers = .ok text ∧ ReadsDeclared schema canonical

/-! ## What a bundle reads -/

namespace Script

/-- A function reads what its parameters and its statements read. -/
theorem mem_usages_function {f : Function} {key : String} :
    key ∈ f.tree.usages ↔ (∃ p ∈ f.params, key ∈ p.tree.usages) ∨
      ∃ s ∈ f.items.map Item.statement, key ∈ s.tree.usages := by
  have husages : f.tree.usages = _ := Part.usages_tree (.function f)
  rw [husages]
  simp [Part.mark?, Part.parts, Function.parts, itemParts, Part.tree]

/-- With declarations behind its statements, it reads what they read too. -/
theorem Function.Extends.mem_usages {d b : Function} {entries : List (Option Function)}
    {key : String} (h : d.Extends entries b) :
    key ∈ b.tree.usages ↔
      key ∈ d.tree.usages ∨ ∃ f, some f ∈ entries ∧ key ∈ f.tree.usages := by
  have hparams : b.params = d.params := by rw [h.eq_with]
  rw [mem_usages_function, mem_usages_function, hparams]
  constructor
  · rintro (hkey | ⟨s, hs, hkey⟩)
    · exact .inl (.inl hkey)
    · rcases h.statement_cases hs with hs | rfl | ⟨f, hf, rfl⟩
      · exact .inl (.inr ⟨s, hs, hkey⟩)
      · cases hkey
      · exact .inr ⟨f, hf, hkey⟩
  · rintro ((hkey | ⟨s, hs, hkey⟩) | ⟨f, hf, hkey⟩)
    · exact .inl hkey
    · exact .inr ⟨s, h.mem_of_own hs, hkey⟩
    · exact .inr ⟨_, h.mem_of_entry hf, hkey⟩

/-- The text of a declaration reads what its tree reads. -/
theorem Function.Portable.readsDeclared_iff {d : Function} {name : String} {schema : Schema}
    (h : d.Portable name) (hpending : d.tree.isPending = false) :
    ReadsDeclared schema d.source ↔ ∀ key ∈ d.tree.usages, Entries.has schema key = true := by
  have husages : contextUsages d.source = .ok d.tree.usages := by
    unfold contextUsages
    rw [h.declaresOnly.parseScript?_eq hpending]
    show Except.ok (Tree.node .other [d.tree]).usages = _
    simp
  unfold ReadsDeclared
  rw [husages]
  simp

end Script

theorem helpersDeclared_iff {schema : Schema} {helpers : Entries Export}
    {ds : List Script.Function} (h : List.Forall₂ DeclaresHelper helpers ds) :
    HelpersDeclared schema helpers ↔
      ∀ d ∈ ds, ∀ key ∈ d.tree.usages, Entries.has schema key = true := by
  induction h with
  | nil => simp [HelpersDeclared]
  | @cons helper d rest ds hd _ ih =>
    have hfirst : (∃ canonical, helperText helper.1 helper.2 = .ok canonical ∧
        ReadsDeclared schema canonical) ↔
          ∀ key ∈ d.tree.usages, Entries.has schema key = true := by
      rw [hd.text, ← hd.portable.readsDeclared_iff hd.isPending_eq]
      simp
    unfold HelpersDeclared at ih ⊢
    rw [List.forall_mem_cons, List.forall_mem_cons, hfirst, ih]

/-- A bundle reads declared variables only exactly if its function does, and each of its helpers. -/
theorem readsDeclared_bundle_iff {schema : Schema} {code name canonical bundled : String}
    {helpers : Entries Export} (hn : normalize code name = .ok canonical)
    (hb : bundle canonical helpers = .ok bundled) :
    ReadsDeclared schema bundled ↔
      ReadsDeclared schema canonical ∧ HelpersDeclared schema helpers := by
  obtain ⟨_, d, b, ds, -, -, -, rfl, hds, hd, hextends, hportable, rfl⟩ := bundle_declares hn hb
  have hpending := hd.isPending_eq hn
  have hbpending := hextends.isPending_eq hpending (isPending_of_declares hds)
  rw [hportable.readsDeclared_iff hbpending, hd.readsDeclared_iff hpending, helpersDeclared_iff hds]
  constructor
  · intro h
    exact ⟨fun key hkey => h key (hextends.mem_usages.mpr (.inl hkey)), fun f hf key hkey =>
      h key (hextends.mem_usages.mpr (.inr ⟨f, List.mem_map_of_mem hf, hkey⟩))⟩
  · rintro ⟨hown, hhelpers⟩ key hkey
    rcases hextends.mem_usages.mp hkey with hkey | ⟨f, hf, hkey⟩
    · exact hown key hkey
    · obtain ⟨other, hother, hsome⟩ := List.mem_map.mp hf
      obtain rfl := Option.some.inj hsome
      exact hhelpers _ hother key hkey

theorem BundlesDeclared.readsDeclared_iff {schema : Schema} {helpers : Entries Export}
    {text : String} (h : BundlesDeclared schema helpers text) :
    ReadsDeclared schema text ↔ HelpersDeclared schema helpers := by
  obtain ⟨code, name, canonical, hnormalize, hbundle, hreads⟩ := h
  rw [readsDeclared_bundle_iff hnormalize hbundle]
  exact and_iff_right hreads

/-! ## What is checked -/

theorem checkUsages_eq_ok {code label : String} {schema : Schema} :
    checkUsages code schema label = .ok () ↔ ReadsDeclared schema code := by
  have hreport (used : List String) :
      reportUndeclared label (used.filter fun name => !Entries.has schema name).eraseDups = .ok () ↔
        ∀ name ∈ used, Entries.has schema name = true := by
    have hempty : (∀ name ∈ used, Entries.has schema name = true) ↔
        used.filter (fun name => !Entries.has schema name) = [] := by
      simp [List.filter_eq_nil_iff]
    rw [hempty]
    cases hundeclared : used.filter fun name => !Entries.has schema name with
    | nil => simp [reportUndeclared]
    | cons first others => simp [List.eraseDups_cons, reportUndeclared]
  unfold checkUsages ReadsDeclared
  rw [Outcome.bind_eq_ok]
  simp only [hreport]

namespace Transform

/-- All canonical forms in a plan read declared variables only. -/
theorem Planned.readsDeclared {exports : Exports} {plan : Plan}
    {own : Option (Convention × String)} {sources : Entries String}
    (h : Planned exports plan own sources) :
    ∀ canonical ∈ plan.sources, ReadsDeclared plan.schema canonical := by
  intro canonical hmem
  rcases List.mem_append.1 hmem with hprimary | hhandler
  · have hown := h.ownChecked
    rw [Option.mem_toList] at hprimary
    rw [hprimary] at hown
    cases own with
    | none => exact hown.elim
    | some found => exact checkUsages_eq_ok.1 (checked_eq_ok hown.1).2
  · have hall := checkedHandlers_eq_ok h.handlersChecked
    clear h hmem
    generalize plan.handlers = handlers at hall hhandler
    induction hall with
    | nil => cases hhandler
    | cons hfirst _ ih =>
      rcases List.mem_cons.1 hhandler with rfl | hrest
      · exact checkUsages_eq_ok.1 hfirst.2.2
      · exact ih hrest

/-- A transform group that compiles hands over bundles of functions that read declared variables
only. -/
theorem bundlesDeclared_of_outcome {compressor : Compressor} {exports : Exports}
    {artifacts : TransformArtifacts}
    (h : (compileTransform compressor exports).outcome = .ok artifacts) :
    ∃ helpers, exports.helpers = .ok helpers ∧
      ∀ text ∈ (compileTransform compressor exports).trace.2,
        BundlesDeclared artifacts.schema helpers text := by
  obtain ⟨-, hbundles, -⟩ := compressor_sees_bundles_only compressor exports
  obtain ⟨plan, own, sources, hplanned, -, hschema⟩ := outcome_eq_ok h
  refine ⟨plan.helpers, hplanned.helpers, fun text hmem => ?_⟩
  have htexts := hplanned.bundles_eq.symm.trans (hbundles artifacts h)
  obtain ⟨function, hfunction, htext⟩ := Outcome.exists_of_mapM_eq_ok htexts hmem
  obtain ⟨canonical, hcanonical, htext⟩ := Outcome.bind_eq_ok.1 htext
  obtain ⟨source, hsource, hnormalize⟩ := exists_of_forall₂ hplanned.sources_eq hfunction
  obtain rfl := Except.ok.inj (hcanonical.symm.trans hnormalize)
  rw [hschema]
  exact ⟨_, _, canonical, hnormalize, htext, hplanned.readsDeclared canonical hsource⟩

end Transform

namespace Connection

open Work

/-- So does a connection group. -/
theorem bundlesDeclared_of_outcome {compressor : Compressor} {exports : Exports}
    {artifacts : ConnectionArtifacts}
    (h : (compileConnection compressor exports).outcome = .ok artifacts) :
    ∀ text ∈ (compileConnection compressor exports).trace.2, ∃ helpers,
      exports.helpers = .ok helpers ∧ BundlesDeclared artifacts.schema helpers text := by
  rcases hrun : Work.runOn (compileConnection compressor exports) [] with ⟨outcome, seen⟩
  have htrace : (compileConnection compressor exports).trace = (outcome, seen) := hrun
  obtain rfl : outcome = .ok artifacts := (congrArg Prod.fst hrun).symm.trans h
  rw [htrace]
  obtain ⟨schema, _, hstep, hrun⟩ := bind_runOn_eq_ok.1 hrun
  obtain ⟨-, rfl⟩ := Prod.mk.inj hstep
  obtain ⟨plan, _, hstep, hrun⟩ := bind_runOn_eq_ok.1 hrun
  obtain ⟨hplan, rfl⟩ := Prod.mk.inj hstep
  obtain ⟨endpoint, seen', hendpoint, hrun⟩ := bind_runOn_eq_ok.1 hrun
  obtain ⟨headers, _, hheaders, hrun⟩ := bind_runOn_eq_ok.1 hrun
  obtain ⟨-, rfl⟩ := Prod.mk.inj hheaders
  obtain ⟨hartifacts, rfl⟩ := Prod.mk.inj hrun
  obtain rfl := Except.ok.inj hartifacts
  intro text hmem
  unfold Connection.plan at hplan
  obtain ⟨source, -, hplan⟩ := Outcome.bind_eq_ok.1 hplan
  cases source with
  | url address =>
    cases hplan
    obtain ⟨-, rfl⟩ := Prod.mk.inj hendpoint
    cases hmem
  | toUrl code =>
    obtain ⟨canonical, hchecked, hplan⟩ := Outcome.bind_eq_ok.1 hplan
    obtain ⟨helpers, hhelpers, hplan⟩ := Outcome.bind_eq_ok.1 hplan
    cases hplan
    refine ⟨helpers, hhelpers, ?_⟩
    cases hbundle : bundle canonical helpers with
    | error error =>
      have hfails := (compileCanonical_hands_error compressor hbundle).map Endpoint.toUrl []
      cases hfails.symm.trans hendpoint
    | ok bundled =>
      have hhands := (compileCanonical_hands compressor hbundle).map Endpoint.toUrl []
      obtain ⟨-, rfl⟩ := Prod.mk.inj (hhands.symm.trans hendpoint)
      obtain rfl := List.mem_singleton.1 hmem
      obtain ⟨hnormalize, husages⟩ := Transform.checked_eq_ok hchecked
      exact ⟨_, _, canonical, hnormalize, hbundle, checkUsages_eq_ok.1 husages⟩

end Connection

/-! ## The result -/

/-- What a group hands to the compressor are functions with the helpers of the group, and without
the helpers they read declared variables only. So what is handed over reads declared variables only
exactly if each helper does, and always in a group without helpers. -/
theorem own_usages_declared (compressor : Compressor) (exports : Exports) :
    (∀ artifacts, (compileTransform compressor exports).outcome = .ok artifacts →
      ∀ text ∈ (compileTransform compressor exports).trace.2,
        ∃ helpers, exports.helpers = .ok helpers ∧
          BundlesDeclared artifacts.schema helpers text ∧
          (helpers = [] → ReadsDeclared artifacts.schema text) ∧
          (ReadsDeclared artifacts.schema text ↔ HelpersDeclared artifacts.schema helpers)) ∧
      ∀ artifacts, (compileConnection compressor exports).outcome = .ok artifacts →
        ∀ text ∈ (compileConnection compressor exports).trace.2,
          ∃ helpers, exports.helpers = .ok helpers ∧
            BundlesDeclared artifacts.schema helpers text ∧
            (helpers = [] → ReadsDeclared artifacts.schema text) ∧
            (ReadsDeclared artifacts.schema text ↔ HelpersDeclared artifacts.schema helpers) := by
  have hnone (schema : Schema) : HelpersDeclared schema [] := fun _ hmem => nomatch hmem
  constructor
  · intro artifacts hok text hmem
    obtain ⟨helpers, hhelpers, htexts⟩ := Transform.bundlesDeclared_of_outcome hok
    have hiff := (htexts text hmem).readsDeclared_iff
    refine ⟨helpers, hhelpers, htexts text hmem, ?_, hiff⟩
    rintro rfl
    exact hiff.mpr (hnone _)
  · intro artifacts hok text hmem
    obtain ⟨helpers, hhelpers, htext⟩ := Connection.bundlesDeclared_of_outcome hok text hmem
    have hiff := htext.readsDeclared_iff
    refine ⟨helpers, hhelpers, htext, ?_, hiff⟩
    rintro rfl
    exact hiff.mpr (hnone _)

/-- A group whose function reads a declared variable, and whose helper reads one that is not
declared. -/
def readingHelper : Exports :=
  [("transformBulk", .function "(ctx, subjects) => h(ctx.host)"),
    ("helpers", .object [("h", .function "ctx => ctx.secret")]),
    ("contextDefinition", .object [("host", .object [("description", .literal (.string "Host"))])])]

/-- What the group hands over: the function and, inside it, its helper. -/
def readingHelperBundle : String :=
  "function transformBulk(ctx, subjects)\x7breturn (h(ctx.host));" ++
    ";function h(ctx)\x7breturn (ctx.secret);\x7d\x7d"

theorem readingHelper_compiles :
    (∃ artifacts, (compileTransform .ok readingHelper).outcome = .ok artifacts ∧
      Entries.has artifacts.schema "secret" = false) ∧
      readingHelperBundle ∈ (compileTransform .ok readingHelper).trace.2 := by
  have hrun : (compileTransform .ok readingHelper).outcome.toOption.map
      (fun artifacts => Entries.has artifacts.schema "secret") = some false ∧
      readingHelperBundle ∈ (compileTransform .ok readingHelper).trace.2 := by
    decide +kernel
  obtain ⟨artifacts, hartifacts, hsecret⟩ := Option.map_eq_some_iff.mp hrun.1
  exact ⟨⟨artifacts, Outcome.eq_ok_of_toOption hartifacts, hsecret⟩, hrun.2⟩

/-- The group compiles, and what it hands over is a function that reads declared variables only
with a helper in it. -/
theorem own_usages_declared_readingHelper :
    ∃ artifacts, (compileTransform .ok readingHelper).outcome = .ok artifacts ∧
      readingHelperBundle ∈ (compileTransform .ok readingHelper).trace.2 ∧ ∃ helpers,
        readingHelper.helpers = .ok helpers ∧
          BundlesDeclared artifacts.schema helpers readingHelperBundle ∧
          (ReadsDeclared artifacts.schema readingHelperBundle ↔
            HelpersDeclared artifacts.schema helpers) := by
  obtain ⟨⟨artifacts, houtcome, -⟩, hmem⟩ := readingHelper_compiles
  obtain ⟨helpers, hhelpers, hbundle, -, hiff⟩ :=
    (own_usages_declared .ok readingHelper).1 artifacts houtcome readingHelperBundle hmem
  exact ⟨artifacts, houtcome, hmem, helpers, hhelpers, hbundle, hiff⟩

/-- What the group hands over reads a variable that is not declared. -/
theorem bundle_reads_undeclared :
    ∃ artifacts, (compileTransform .ok readingHelper).outcome = .ok artifacts ∧
      readingHelperBundle ∈ (compileTransform .ok readingHelper).trace.2 ∧
        ¬ ReadsDeclared artifacts.schema readingHelperBundle := by
  have husages : (contextUsages readingHelperBundle).toOption = some ["host", "secret"] := by
    decide +kernel
  obtain ⟨⟨artifacts, houtcome, hsecret⟩, hmem⟩ := readingHelper_compiles
  refine ⟨artifacts, houtcome, hmem, ?_⟩
  rintro ⟨names, hnames, hdeclared⟩
  obtain rfl := Except.ok.inj (hnames.symm.trans (Outcome.eq_ok_of_toOption husages))
  have hhas := hdeclared "secret" (by simp)
  rw [hsecret] at hhas
  cases hhas

end Collector
