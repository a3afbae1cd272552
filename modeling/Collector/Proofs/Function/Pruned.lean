import Collector.Proofs.Function.Bundled
import Collector.Proofs.Function.Liveness
import Collector.Proofs.Group.Separate
import Collector.Proofs.Script.Trees

/-!
# Helpers that are shipped

Pruning reads a bundle again and takes out the helpers that are not alive. The semicolons before
them stay, so what is left is a bundle once more, with some entries empty, and its body is what is
stored.

* `Needs` are the names of the helpers that a function needs, and `Ships` is what stands behind its
  body for each of them.
* `pruned_ships_needed` is the result.
-/

namespace Collector

open Script

/-! ## Needed helpers -/

/-- The names that the statements of a function refer to. -/
def Script.Function.bodyReferences (f : Function) : List String :=
  f.body.statements.flatMap fun s => s.tree.references

/-- The least set of names of helpers that holds those that the statements of a function refer to,
and with a helper those that its declaration refers to. -/
inductive Needs (f : Function) (helpers : Entries Export) : String → Prop
  | direct {id : String} : id ∈ Entries.names helpers → id ∈ f.bodyReferences → Needs f helpers id
  | through {other id text : String} {helper : Export} {d : Function} : Needs f helpers other →
    (other, helper) ∈ helpers → helperText other helper = .ok text → declared? text = some d →
    id ∈ d.tree.references → id ∈ Entries.names helpers → Needs f helpers id

/-- What stands behind a body for a helper: its canonical form, if it is needed. -/
inductive Ships (needed : String → Prop) : String × Export → String → Prop
  | kept {name text : String} {helper : Export} : needed name →
    helperText name helper = .ok text → Ships needed (name, helper) (";" ++ text)
  | left {name : String} {helper : Export} : ¬ needed name → Ships needed (name, helper) ";"

/-! ## Live names of a bundle -/

/-- A function that declares no functions in its body. -/
def Script.Function.DeclaresNone (f : Function) : Prop :=
  ∀ s ∈ f.items.map Item.statement, s.declared? = none

theorem mem_declarationLinks {statements : List Statement} {name : String} {names : List String} :
    (name, names) ∈ declarationLinks statements ↔
      ∃ s ∈ statements, s.declared? = some name ∧ s.tree.references = names := by
  simp only [declarationLinks, List.mem_filterMap, Option.map_eq_some_iff, Prod.mk.injEq]
  grind

theorem mem_rootNames {statements : List Statement} {id : String} :
    id ∈ rootNames statements ↔
      ∃ s ∈ statements, s.declared? = none ∧ id ∈ s.tree.references := by
  simp only [rootNames, List.mem_flatMap, List.mem_filter, Option.isNone_iff_eq_none]
  grind

theorem mem_links_names {statements : List Statement} {name : String} :
    name ∈ (declarationLinks statements).map Prod.fst ↔
      ∃ s ∈ statements, s.declared? = some name := by
  simp only [List.mem_map, Prod.exists, mem_declarationLinks]
  grind

/-- A directive declares nothing and refers to nothing. -/
theorem mem_statements_of_declared {f : Function} {s : Statement} {name : String}
    (hs : s ∈ f.items.map Item.statement) (hd : s.declared? = some name) : s ∈ f.body.statements := by
  refine List.mem_filter.mpr ⟨hs, ?_⟩
  cases s <;> first | rfl | cases hd

section Live

variable {d b : Function} {ds : List Function} {helpers : Entries Export}
  (h : d.Extends (ds.map some) b) (hown : d.DeclaresNone)
  (hds : List.Forall₂ DeclaresHelper helpers ds)

include h hown

/-- In a bundle, helpers alone are declared. -/
theorem declared_cases {s : Statement} {name : String} (hs : s ∈ b.body.statements)
    (hd : s.declared? = some name) : ∃ f ∈ ds, s = .function f := by
  rcases h.statement_cases (List.mem_filter.mp hs).1 with hs | rfl | ⟨f, hf, rfl⟩
  · rw [hown s hs] at hd
    cases hd
  · cases hd
  · exact ⟨f, by simpa using hf, rfl⟩

theorem mem_rootNames_bundle (hnamed : ∀ f ∈ ds, f.name.isSome) {id : String} :
    id ∈ rootNames b.body.statements ↔ id ∈ d.bodyReferences := by
  rw [mem_rootNames, Function.bodyReferences, List.mem_flatMap]
  constructor
  · rintro ⟨s, hs, hnone, hid⟩
    obtain ⟨hs, hdirective⟩ := List.mem_filter.mp hs
    rcases h.statement_cases hs with hs | rfl | ⟨f, hf, rfl⟩
    · exact ⟨s, List.mem_filter.mpr ⟨hs, hdirective⟩, hid⟩
    · cases hid
    · have hsome := hnamed f (by simpa using hf)
      rw [show f.name = none from hnone] at hsome
      cases hsome
  · rintro ⟨s, hs, hid⟩
    obtain ⟨hs, hdirective⟩ := List.mem_filter.mp hs
    exact ⟨s, List.mem_filter.mpr ⟨h.mem_of_own hs, hdirective⟩, hown s hs, hid⟩

include hds

/-- The live names of a bundle are those of the helpers that its function needs. -/
theorem mem_liveNames_bundle {id : String} :
    id ∈ liveNames b.body.statements ↔ Needs d helpers id := by
  have hnamed : ∀ f ∈ ds, f.name.isSome := fun f hf => by
    obtain ⟨helper, -, hf⟩ := Transform.exists_of_forall₂ hds.flip hf
    rw [hf.portable.named]
    rfl
  have hlinks {name : String} : name ∈ (declarationLinks b.body.statements).map Prod.fst ↔
      name ∈ Entries.names helpers := by
    rw [mem_links_names, ← exists_declares_iff hds]
    constructor
    · rintro ⟨s, hs, hd⟩
      obtain ⟨f, hf, rfl⟩ := declared_cases h hown hs hd
      exact ⟨f, by simpa using hf, hd⟩
    · rintro ⟨f, hf, hd⟩
      exact ⟨.function f, mem_statements_of_declared (h.mem_of_entry hf) hd, hd⟩
  rw [mem_liveNames]
  constructor
  · intro hid
    induction hid with
    | root hdeclared hroot =>
      exact .direct (hlinks.mp hdeclared) ((mem_rootNames_bundle h hown hnamed).mp hroot)
    | link _ hlink hrefers hdeclared ih =>
      obtain ⟨s, hs, hd, rfl⟩ := mem_declarationLinks.mp hlink
      obtain ⟨f, hf, rfl⟩ := declared_cases h hown hs hd
      obtain ⟨⟨name, helper⟩, hmem, hf⟩ := Transform.exists_of_forall₂ hds.flip hf
      obtain rfl := Option.some.inj (hf.portable.named.symm.trans hd)
      exact .through ih hmem hf.text hf.declared?_eq hrefers (hlinks.mp hdeclared)
  · intro hid
    induction hid with
    | direct hdeclared hroot =>
      exact .root (hlinks.mpr hdeclared) ((mem_rootNames_bundle h hown hnamed).mpr hroot)
    | through _ hmem htext hd hrefers hdeclared ih =>
      obtain ⟨f, hf, hdeclares⟩ := Transform.exists_of_forall₂ hds hmem
      obtain rfl := Except.ok.inj (htext.symm.trans hdeclares.text)
      obtain rfl := Option.some.inj (hdeclares.declared?_eq.symm.trans hd)
      have hname := hdeclares.portable.named
      refine .link ih (mem_declarationLinks.mpr ⟨.function f, ?_, hname, rfl⟩) hrefers
        (hlinks.mpr hdeclared)
      exact mem_statements_of_declared (h.mem_of_entry (List.mem_map_of_mem hf)) hname

end Live

/-! ## The text that is left -/

/-- The entry of a helper in what is left of a bundle. -/
def keptEntry (live : List String) (f : Function) : Option Function :=
  if f.name.all live.contains then some f else none

theorem keptText_of_live {item : Item} {live : List String}
    (h : ∀ name, item.statement.declared? = some name → name ∈ live) :
    keptText live item = item.source := by
  unfold keptText
  cases hname : item.statement.declared? with
  | none => rfl
  | some name => simp [h name hname]

theorem join_keptText_entry (live : List String) (f : Function) :
    String.join ((entryItems (some f)).map (keptText live)) = entryText (keptEntry live f) := by
  have htext : keptText live ⟨"", f.source, .function f⟩ = entryText (keptEntry live f) := by
    unfold keptText keptEntry
    cases hname : f.name with
    | none => simp [Statement.declared?, hname, Item.source, entryText]
    | some name =>
      rw [Option.all_some]
      simp only [Statement.declared?, hname]
      split <;> simp [Item.source, entryText]
  rw [← htext]
  exact String.empty_append

theorem join_keptText_appended (live : List String) (ds : List Function) :
    String.join ((appendedItems (ds.map some)).map (keptText live)) =
      appended (ds.map (keptEntry live)) := by
  induction ds with
  | nil => rfl
  | cons f ds ih =>
    rw [List.map_cons, List.map_cons, appendedItems_cons, List.map_cons, List.map_append,
      String.join_cons, String.join_append, ih, join_keptText_entry, appended_cons]
    rfl

/-- What pruning leaves of a bundle: the body of its function, if all that is declared there is
alive, and the helpers that are alive. -/
theorem keptSource_bundle {d b : Function} {ds : List Function} {live : List String}
    (h : d.Extends (ds.map some) b)
    (hown : ∀ s ∈ d.items.map Item.statement, ∀ name, s.declared? = some name → name ∈ live) :
    b.body.keptSource live = d.body.source ++ appended (ds.map (keptEntry live)) := by
  have hown' (base : List Item)
      (hbase : ∀ s ∈ base.map Item.statement, s ∈ d.items.map Item.statement ∨ s = .empty) :
      base.map (keptText live) = base.map Item.source := by
    refine List.map_congr_left fun item hitem => keptText_of_live ?_
    rcases hbase _ (List.mem_map_of_mem hitem) with hs | hs
    · exact hown _ hs
    · rw [hs]
      nofun
  cases ds with
  | nil =>
    cases h
    show String.join (d.items.map (keptText live)) ++ d.tail = d.body.source ++ ""
    rw [hown' d.items fun s hs => .inl hs, String.append_empty]
    rfl
  | cons f ds =>
    rw [List.map_cons] at h
    cases h with
    | @entries _ _ base hbase ht =>
      have hbase' : ∀ s ∈ base.map Item.statement, s ∈ d.items.map Item.statement ∨ s = .empty := by
        intro s hs
        rcases hbase with hbase | hbase
        · exact .inl (hbase ▸ hs)
        · rw [hbase] at hs
          exact (List.mem_append.mp hs).imp_right List.mem_singleton.mp
      show String.join ((base ++ (entryItems (some f) ++ appendedItems (ds.map some))).map
        (keptText live)) ++ "" = _
      rw [List.map_append, List.map_append, String.join_append, String.join_append, hown' base hbase',
        ht, join_keptText_entry, join_keptText_appended, List.map_cons, appended_cons]
      simp only [String.append_assoc, String.append_empty]

theorem portableEntries_kept {helpers : Entries Export} {ds : List Function}
    (h : List.Forall₂ DeclaresHelper helpers ds) (live : List String) :
    ∀ entry ∈ ds.map (keptEntry live), PortableEntry entry := by
  intro entry hentry f hf
  obtain ⟨d, hd, rfl⟩ := List.mem_map.mp hentry
  obtain ⟨helper, -, hdeclares⟩ := Transform.exists_of_forall₂ h.flip hd
  unfold keptEntry at hf
  split at hf
  · obtain rfl := Option.some.inj hf
    exact ⟨_, hdeclares.portable⟩
  · cases hf

/-- What pruning leaves of a bundle is a bundle whose dead entries are empty. -/
theorem prunedSource_bundle {d b b' : Function} {ds : List Function}
    (h : d.Extends (ds.map some) b)
    (h' : d.Extends (ds.map (keptEntry (liveNames b.body.statements))) b')
    (hown : ∀ s ∈ d.items.map Item.statement, ∀ name, s.declared? = some name →
      name ∈ liveNames b.body.statements) : b.prunedSource = b'.source := by
  rw [h'.source_eq, Function.prunedSource, keptSource_bundle h hown]
  rw [h.eq_with]
  simp only [String.append_assoc]

/-- What pruning makes of a bundle that reads as one function. -/
theorem prune_eq_ok {b : Function} {name text : String} (hb : b.Portable name)
    (h : prune b.source = .ok text) : text = b.prunedSource := by
  unfold prune at h
  split at h
  · cases h
  next body hbody =>
    obtain ⟨rfl, -⟩ := hb.parseScript_eq hbody
    obtain ⟨_, -, h⟩ := Outcome.bind_eq_ok.mp h
    obtain rfl := Except.ok.inj h
    simp [Body.mapFunctions, String.join_cons]

/-- The body that is stored of a text that reads as one function. -/
theorem extractBody_eq_ok {b : Function} {name body : String} (hb : b.Portable name)
    (h : extractBody b.source = .ok body) : body = b.body.source := by
  obtain ⟨artifact, hartifact, rfl⟩ := Outcome.map_eq_ok.mp h
  unfold Artifact.ofSource at hartifact
  split at hartifact
  · cases hartifact
  next parsed hparsed =>
    obtain ⟨rfl, -⟩ := hb.parseScript_eq hparsed
    obtain rfl := Except.ok.inj hartifact
    rfl

/-- A bundle that is pruned and stored is the body of its function, with the live helpers. -/
theorem prunedBody_eq {d b : Function} {name text body : String} {helpers : Entries Export}
    {ds : List Function} (hd : d.Portable name) (hb : b.Portable name)
    (h : d.Extends (ds.map some) b) (hown : d.DeclaresNone)
    (hds : List.Forall₂ DeclaresHelper helpers ds) (hprune : prune b.source = .ok text)
    (hbody : extractBody text = .ok body) :
    body = d.body.source ++
      appended (ds.map (keptEntry (liveNames b.body.statements))) := by
  obtain rfl := prune_eq_ok hb hprune
  obtain ⟨b', hextends, hb'⟩ :=
    hd.exists_extends (portableEntries_kept hds (liveNames b.body.statements))
  have hnone : ∀ s ∈ d.items.map Item.statement, ∀ name, s.declared? = some name →
      name ∈ liveNames b.body.statements := fun s hs name hname => by
    cases (hown s hs).symm.trans hname
  rw [prunedSource_bundle h hextends hnone] at hbody
  rw [extractBody_eq_ok hb' hbody, hextends.body_source]

theorem ships_of_declares {helpers : Entries Export} {ds : List Function} {live : List String}
    {needed : String → Prop} (h : List.Forall₂ DeclaresHelper helpers ds)
    (hlive : ∀ {id}, id ∈ live ↔ needed id) :
    List.Forall₂ (Ships needed) helpers
      (ds.map fun f => ";" ++ entryText (keptEntry live f)) := by
  rw [List.forall₂_map_right_iff]
  refine h.imp fun ⟨name, helper⟩ f hf => ?_
  have hentry : keptEntry live f = if live.contains name then some f else none := by
    unfold keptEntry
    rw [hf.portable.named]
    rfl
  rw [hentry]
  by_cases hmem : name ∈ live
  · rw [if_pos (by simpa using hmem)]
    exact .kept (hlive.mp hmem) hf.text
  · rw [if_neg (by simpa using hmem)]
    exact .left fun hneeded => hmem (hlive.mpr hneeded)

/-- Where the compressor prunes, the body of a function that declares no functions is stored with
the helpers that it needs, and with the semicolons of the others. -/
theorem pruned_ships_needed {helpers : Entries Export} {code name body : String}
    (h : (compileFunction prune helpers code name).outcome = .ok body) :
    ∃ canonical d, normalize code name = .ok canonical ∧ declared? canonical = some d ∧
      ((∀ s ∈ d.body.statements, s.declared? = none) →
        ∃ shipped, List.Forall₂ (Ships (Needs d helpers)) helpers shipped ∧
          body = d.body.source ++ String.join shipped) := by
  rw [compileFunction_outcome] at h
  obtain ⟨bundled, hbundled, h⟩ := Outcome.bind_eq_ok.mp h
  obtain ⟨canonical, hcanonical, hbundle⟩ := Outcome.bind_eq_ok.mp hbundled
  obtain ⟨text, hprune, hbody⟩ := Outcome.bind_eq_ok.mp h
  obtain ⟨_, d, b, ds, -, -, -, rfl, hds, hd, hextends, hb, rfl⟩ := bundle_declares hcanonical hbundle
  refine ⟨d.source, d, hcanonical, hd.declared?_eq hcanonical, fun hown => ?_⟩
  have hnone : d.DeclaresNone := fun s hs => by
    cases hdeclared : s.declared? with
    | none => rfl
    | some other => exact hdeclared ▸ hown s (mem_statements_of_declared hs hdeclared)
  refine ⟨_, ships_of_declares hds (mem_liveNames_bundle hextends hnone hds), ?_⟩
  rw [prunedBody_eq hd hb hextends hnone hds hprune hbody, appended, List.map_map]
  rfl

/-- Helpers of which the first two are needed by a function that calls the first. -/
def chained : Entries Export :=
  [("a", .function "x => b(x)"), ("b", .function "x => x"), ("c", .function "x => a(x)")]

theorem pruned_ships_needed_chained :
    (compileFunction prune chained "ctx => a(ctx)" "toUrl").outcome =
        .ok "return (a(ctx));;function a(x){return (b(x));};function b(x){return (x);};" ∧
      ∃ d shipped, normalize "ctx => a(ctx)" "toUrl" = .ok "function toUrl(ctx){return (a(ctx));}" ∧
        declared? "function toUrl(ctx){return (a(ctx));}" = some d ∧
        (∀ s ∈ d.body.statements, s.declared? = none) ∧
        List.Forall₂ (Ships (Needs d chained)) chained shipped ∧
        "return (a(ctx));;function a(x){return (b(x));};function b(x){return (x);};" =
          d.body.source ++ String.join shipped := by
  have hbody : (compileFunction prune chained "ctx => a(ctx)" "toUrl").outcome.toOption =
      some "return (a(ctx));;function a(x){return (b(x));};function b(x){return (x);};" := by
    decide +kernel
  have hcanonical : (normalize "ctx => a(ctx)" "toUrl").toOption =
      some "function toUrl(ctx){return (a(ctx));}" := by
    decide +kernel
  have hown : (declared? "function toUrl(ctx){return (a(ctx));}").all fun d =>
      d.body.statements.all fun s => s.declared?.isNone := by
    decide +kernel
  have hbody := Outcome.eq_ok_of_toOption hbody
  have hcanonical := Outcome.eq_ok_of_toOption hcanonical
  obtain ⟨canonical, d, hn, hd, h⟩ := pruned_ships_needed hbody
  obtain rfl := Except.ok.inj (hcanonical.symm.trans hn)
  rw [hd, Option.all_some, List.all_eq_true] at hown
  have hown : ∀ s ∈ d.body.statements, s.declared? = none := fun s hs =>
    Option.isNone_iff_eq_none.mp (hown s hs)
  obtain ⟨shipped, hshipped, hjoin⟩ := h hown
  exact ⟨hbody, d, shipped, hcanonical, hd, hown, hshipped, hjoin⟩

end Collector
