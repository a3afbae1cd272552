import Collector.Proofs.Function.Cutting

/-!
# The function that pruning leaves

What pruning makes of a bundle is read again. Where the function of the bundle declares no function
that goes unused, the semicolons between the helpers keep every statement apart from what becomes
its neighbour, and the statements that are left are those of the bundle without the dead
declarations (`prune_keeps_statements`). Where a dead declaration stood between two statements
without a semicolon, they become one, or nothing that can be read (`prune_joins_statements`).
-/

namespace Collector

open Script

/-! ## Statements that are left -/

/-- Statements of which those of a kind are left out, in the same order. -/
inductive Without (gone : Statement → Prop) : List Statement → List Statement → Prop
  | nil : Without gone [] []
  | keep {s : Statement} {statements kept : List Statement} : ¬ gone s →
    Without gone statements kept → Without gone (s :: statements) (s :: kept)
  | drop {s : Statement} {statements kept : List Statement} : gone s →
    Without gone statements kept → Without gone (s :: statements) kept

namespace Without

variable {gone : Statement → Prop}

theorem of_kept {statements : List Statement} (h : ∀ s ∈ statements, ¬ gone s) :
    Without gone statements statements := by
  induction statements with
  | nil => exact .nil
  | cons s rest ih =>
    obtain ⟨hs, hrest⟩ := List.forall_mem_cons.mp h
    exact .keep hs (ih hrest)

theorem append {first kept second kept' : List Statement} (h : Without gone first kept)
    (h' : Without gone second kept') : Without gone (first ++ second) (kept ++ kept') := by
  induction h with
  | nil => exact h'
  | keep hs _ ih => exact .keep hs ih
  | drop hs _ ih => exact .drop hs ih

end Without

theorem not_isDead_of_none {statements : List Statement} {s : Statement} (h : s.declared? = none) :
    ¬ IsDead statements s := by
  rintro ⟨name, hname, -⟩
  cases h.symm.trans hname

/-- A declaration is dead if its name is not among the live ones. -/
theorem isDead_iff {statements : List Statement} {s : Statement} {name : String}
    (h : s.declared? = some name) : IsDead statements s ↔ name ∉ liveNames statements := by
  rw [mem_liveNames_iff_reached]
  constructor
  · rintro ⟨other, hother, hdead⟩
    obtain rfl := Option.some.inj (h.symm.trans hother)
    exact hdead
  · exact fun hdead => ⟨name, h, hdead⟩

section Entries

variable {statements : List Statement}

/-- The entry of a dead helper loses its declaration, and that of another one nothing. -/
theorem without_entry {f : Function} {name : String} (hname : f.name = some name) :
    Without (IsDead statements) ((entryItems (some f)).map Item.statement)
      ((entryItems (keptEntry (liveNames statements) f)).map Item.statement) := by
  have hdead : IsDead statements (.function f) ↔ name ∉ liveNames statements := isDead_iff hname
  unfold keptEntry
  rw [hname, Option.all_some]
  by_cases h : name ∈ liveNames statements
  · rw [if_pos (by simpa using h)]
    exact .keep (fun hgone => hdead.mp hgone h) .nil
  · rw [if_neg (by simpa using h)]
    exact .drop (hdead.mpr h) .nil

theorem without_appended {ds : List Function} (h : ∀ f ∈ ds, f.name.isSome) :
    Without (IsDead statements) ((appendedItems (ds.map some)).map Item.statement)
      ((appendedItems (ds.map (keptEntry (liveNames statements)))).map Item.statement) := by
  induction ds with
  | nil => exact .nil
  | cons f ds ih =>
    obtain ⟨hf, hds⟩ := List.forall_mem_cons.mp h
    obtain ⟨name, hname⟩ := Option.isSome_iff_exists.mp hf
    simp only [List.map_cons, appendedItems_cons, List.map_append]
    exact .keep (not_isDead_of_none rfl) ((without_entry hname).append (ih hds))

end Entries

/-- The bundle that is read, and the one that is left of it, have the same statements but for the
dead declarations. -/
theorem exists_remaining {d : Function} {name : String} {helpers : Entries Export}
    {ds : List Function} (h : d.Portable name) (hds : List.Forall₂ DeclaresHelper helpers ds) :
    ∃ b b' : Function, d.Extends (ds.map some) b ∧ b.Portable name ∧
      d.Extends (ds.map (keptEntry (liveNames b.body.statements))) b' ∧ b'.Portable name ∧
      ((∀ s ∈ d.items.map Item.statement, ¬ IsDead b.body.statements s) →
        Without (IsDead b.body.statements) (b.items.map Item.statement)
          (b'.items.map Item.statement)) := by
  have hnamed : ∀ f ∈ ds, f.name.isSome := fun f hf => by
    obtain ⟨helper, -, hf⟩ := Transform.exists_of_forall₂ hds.flip hf
    rw [hf.portable.named]
    rfl
  have hportable := portableEntries_of_declares hds
  have hkept := portableEntries_kept hds
  cases ds with
  | nil => exact ⟨d, d, .alone, h, .alone, h, Without.of_kept⟩
  | cons f ds =>
    obtain ⟨statements, hstatements, hextends⟩ := h.exists_extends_all
    obtain ⟨b, hb, hbportable, hbs⟩ := hextends hportable
    obtain ⟨b', hb', hbportable', hbs'⟩ := hextends (hkept (liveNames b.body.statements))
    refine ⟨b, b', hb, hbportable, hb', hbportable', fun hown => ?_⟩
    obtain ⟨hf, hds⟩ := List.forall_mem_cons.mp hnamed
    obtain ⟨_, hname⟩ := Option.isSome_iff_exists.mp hf
    rw [hbs, hbs', List.map_append, List.map_append]
    refine .append (.of_kept fun s hs => ?_) (.append (without_entry hname) (without_appended hds))
    rcases hstatements with rfl | rfl
    · exact hown s hs
    · rcases List.mem_append.mp hs with hs | hs
      · exact hown s hs
      · obtain rfl := List.mem_singleton.mp hs
        exact not_isDead_of_none rfl

/-- A bundle is pruned to a text that declares one function, of the same name and parameters. If
nothing that the bundled function itself declares is dead, the statements of that function are those
of the bundle without the dead declarations. -/
theorem prune_keeps_statements {code name canonical bundled : String} {helpers : Entries Export}
    (hn : normalize code name = .ok canonical) (hb : bundle canonical helpers = .ok bundled) :
    ∃ body f d, parseScript? bundled = some body ∧ soleFunction body = .ok f ∧
      f.name = some name ∧ declared? canonical = some d ∧
      ((∀ s ∈ d.body.statements, ¬ IsDead f.body.statements s) →
        ∃ text f', prune bundled = .ok text ∧
          parseScript? text = some ⟨[⟨"", text, .function f'⟩], ""⟩ ∧
          f'.name = f.name ∧ f'.params = f.params ∧
          Without (IsDead f.body.statements) (f.items.map Item.statement)
            (f'.items.map Item.statement)) := by
  obtain ⟨_, d, other, ds, -, -, -, rfl, hds, hd, hother, -, rfl⟩ := bundle_declares hn hb
  obtain ⟨b, b', hextends, hbportable, hextends', hbportable', hwithout⟩ := exists_remaining hd hds
  have hsource : other.source = b.source := by
    rw [hother.source_eq, hextends.source_eq]
  have hentries : ∀ f, some f ∈ ds.map some → f.tree.isPending = false :=
    isPending_of_declares hds
  have hdpending := hd.isPending_eq hn
  have hparse := hbportable.declaresOnly.parseScript?_eq (hextends.isPending_eq hdpending hentries)
  rw [hsource]
  refine ⟨_, b, d, hparse, rfl, hbportable.named, hd.declared?_eq hn, fun hlive => ?_⟩
  have hown : ∀ s ∈ d.items.map Item.statement, ¬ IsDead b.body.statements s := fun s hs hdead => by
    obtain ⟨other, hname, hunreached⟩ := hdead
    exact hlive s (mem_statements_of_declared hs hname) ⟨other, hname, hunreached⟩
  have hkept : ∀ s ∈ d.items.map Item.statement, ∀ name, s.declared? = some name →
      name ∈ liveNames b.body.statements := fun s hs name hname =>
    not_not.mp fun hdead => hown s hs ((isDead_iff hname).mpr hdead)
  have hpruned : prune b.source = .ok b'.source := by
    unfold prune
    rw [hparse]
    show Except.ok (Body.mapFunctions Function.prunedSource _) = _
    rw [← prunedSource_bundle hextends hextends' hkept]
    simp [Body.mapFunctions, String.join_cons]
  have hentries' : ∀ f, some f ∈ ds.map (keptEntry (liveNames b.body.statements)) →
      f.tree.isPending = false := fun f hf => by
    obtain ⟨f', hf', heq⟩ := List.mem_map.mp hf
    unfold keptEntry at heq
    split at heq
    · obtain rfl := Option.some.inj heq
      exact hentries f' (List.mem_map_of_mem hf')
    · cases heq
  refine ⟨b'.source, b', hpruned, ?_, ?_, ?_, hwithout hown⟩
  · exact hbportable'.declaresOnly.parseScript?_eq (hextends'.isPending_eq hdpending hentries')
  · exact hbportable'.named.trans hbportable.named.symm
  · rw [hextends.eq_with, hextends'.eq_with]

/-- Helpers of which the first is used by a function, and the second uses what is declared there. -/
def inward : Entries Export := [("a", .function "() => 1"), ("b", .function "() => g()")]

/-- The text of a function behind its parameters: it declares a function itself, and uses it. -/
def declaring : String := "\x7bfunction g(y)\x7b\x7dg(a())\x7d"

/-- The second helper is left out, and the function that is declared in the body stays. -/
theorem prune_keeps_statements_declaring :
    ∃ (canonical bundled text : String) (f d f' : Function),
      normalize ("x => " ++ declaring) "outer" = .ok canonical ∧
      bundle canonical inward = .ok bundled ∧ declared? canonical = some d ∧
      (∀ s ∈ d.body.statements, ¬ IsDead f.body.statements s) ∧
      (∃ s ∈ d.body.statements, s.declared? = some "g") ∧ prune bundled = .ok text ∧
      parseScript? text = some ⟨[⟨"", text, .function f'⟩], ""⟩ ∧
      Without (IsDead f.body.statements) (f.items.map Item.statement)
        (f'.items.map Item.statement) := by
  let outer := "function outer(x)" ++ declaring
  have hcanonical : (normalize ("x => " ++ declaring) "outer").toOption = some outer := by
    decide +kernel
  have hbundle : (bundle outer inward).toOption.isSome = true := by
    decide +kernel
  have hlive : (declared? outer).all fun d => ((bundle outer inward).toOption.bind fun text =>
      (parseScript? text).bind fun body => (soleFunction body).toOption).all fun f =>
        (d.body.statements.all fun s => s.declared?.all (liveNames f.body.statements).contains) &&
          d.body.statements.any fun s => s.declared? == some "g" := by
    decide +kernel
  obtain ⟨bundled, hbundled⟩ := Option.isSome_iff_exists.mp hbundle
  have hcanonical := Outcome.eq_ok_of_toOption hcanonical
  obtain ⟨body, f, d, hbody, hsole, -, hd, h⟩ :=
    prune_keeps_statements hcanonical (Outcome.eq_ok_of_toOption hbundled)
  rw [hd, Option.all_some, hbundled, Option.bind_some, hbody, Option.bind_some, hsole,
    Except.toOption, Option.all_some, Bool.and_eq_true] at hlive
  have hown : ∀ s ∈ d.body.statements, ¬ IsDead f.body.statements s := by
    intro s hs hdead
    obtain ⟨name, hname, hunreached⟩ := hdead
    have hs := List.all_eq_true.mp hlive.1 s hs
    rw [hname, Option.all_some, List.contains_iff_mem] at hs
    exact hunreached (mem_liveNames_iff_reached.mp hs)
  obtain ⟨text, f', hprune, hparse, -, -, hwithout⟩ := h hown
  refine ⟨outer, bundled, text, f, d, f', hcanonical, Outcome.eq_ok_of_toOption hbundled, hd, hown,
    ?_, hprune, hparse, hwithout⟩
  obtain ⟨s, hs, hname⟩ := List.any_eq_true.mp hlive.2
  exact ⟨s, hs, beq_iff_eq.mp hname⟩

/-- A declaration that nothing uses is all that keeps two statements apart. -/
def joining : String :=
  "function f(ctx)\x7bctx.a\nfunction g()\x7b\x7d\n/x/.test(ctx.b)\x7d"

/-- Without it, a text that can be pruned is left as one that cannot be read. -/
theorem prune_joins_statements : ((parseScript? joining).bind fun body =>
      (soleFunction body).toOption).isSome = true ∧
    prune joining = .ok "function f(ctx)\x7bctx.a\n\n/x/.test(ctx.b)\x7d" ∧
    parseScript? "function f(ctx)\x7bctx.a\n\n/x/.test(ctx.b)\x7d" = none := by
  have hpruned : (prune joining).toOption =
      some "function f(ctx)\x7bctx.a\n\n/x/.test(ctx.b)\x7d" := by
    decide +kernel
  have hunread : (parseScript? "function f(ctx)\x7bctx.a\n\n/x/.test(ctx.b)\x7d").isNone := by
    decide +kernel
  exact ⟨by decide +kernel, Outcome.eq_ok_of_toOption hpruned, Option.isNone_iff_eq_none.mp hunread⟩

end Collector
