import Collector.Proofs.Entries
import Collector.Proofs.Function.Declared
import Collector.Proofs.Script.Appending
import Collector.Proofs.Script.Rereading

/-!
# What a bundle declares

A bundle is read as one declaration: the canonical form of its function, behind whose statements
stand the canonical forms of the helpers, each behind a semicolon (`bundle_declares`). The same
holds where some of the helpers are left out (`Script.Function.Portable.exists_extends`).
-/

namespace Collector

open Script

namespace Script

/-! ## Functions with more behind their statements -/

theorem appendedItems_cons (entry : Option Function) (entries : List (Option Function)) :
    appendedItems (entry :: entries) =
      ⟨"", ";", .empty⟩ :: (entryItems entry ++ appendedItems entries) := rfl

theorem appended_cons (entry : Option Function) (entries : List (Option Function)) :
    appended (entry :: entries) = ";" ++ (entryText entry ++ appended entries) := by
  simp only [appended, List.map_cons, String.join_cons, String.append_assoc]

theorem source_entryItems (entry : Option Function) :
    String.join ((entryItems entry).map Item.source) = entryText entry := by
  cases entry with
  | none => rfl
  | some d => simp [entryItems, entryText, Item.source, String.join_cons]

theorem source_appendedItems (entries : List (Option Function)) :
    String.join ((appendedItems entries).map Item.source) = appended entries := by
  induction entries with
  | nil => rfl
  | cons entry entries ih =>
    rw [appendedItems_cons, List.map_cons, List.map_append, String.join_cons, String.join_append, ih,
      source_entryItems, appended_cons]
    simp [Item.source]

theorem mem_entryItems {entry : Option Function} {s : Statement} :
    s ∈ (entryItems entry).map Item.statement ↔ ∃ f, entry = some f ∧ s = .function f := by
  cases entry <;> simp [entryItems]

theorem mem_appendedItems {entries : List (Option Function)} {s : Statement}
    (h : s ∈ (appendedItems entries).map Item.statement) :
    s = .empty ∨ ∃ f, some f ∈ entries ∧ s = .function f := by
  induction entries with
  | nil => cases h
  | cons entry entries ih =>
    rw [appendedItems_cons, List.map_cons, List.map_append] at h
    rcases List.mem_cons.mp h with rfl | h
    · exact .inl rfl
    · rcases List.mem_append.mp h with h | h
      · obtain ⟨f, rfl, rfl⟩ := mem_entryItems.mp h
        exact .inr ⟨f, List.mem_cons_self, rfl⟩
      · rcases ih h with rfl | ⟨f, hf, rfl⟩
        · exact .inl rfl
        · exact .inr ⟨f, List.mem_cons_of_mem _ hf, rfl⟩

theorem mem_appendedItems_of_mem {entries : List (Option Function)} {f : Function}
    (h : some f ∈ entries) : Statement.function f ∈ (appendedItems entries).map Item.statement := by
  induction entries with
  | nil => cases h
  | cons entry entries ih =>
    rw [appendedItems_cons, List.map_cons, List.map_append]
    refine List.mem_cons_of_mem _ (List.mem_append.mpr ?_)
    rcases List.mem_cons.mp h with rfl | h
    · exact .inl (mem_entryItems.mpr ⟨f, rfl, rfl⟩)
    · exact .inr (ih h)

/-- A function with declarations behind its statements, each behind a semicolon, some of them left
out. The first semicolon ends the last statement, or is an empty one. -/
inductive Function.Extends (d : Function) : List (Option Function) → Function → Prop
  | alone : Extends d [] d
  | entries {entry : Option Function} {entries : List (Option Function)} {base : List Item}
    (hs : base.map Item.statement = d.items.map Item.statement ∨
      base.map Item.statement = d.items.map Item.statement ++ [.empty])
    (ht : String.join (base.map Item.source) = d.body.source ++ ";") :
    Extends d (entry :: entries)
      { d with items := base ++ (entryItems entry ++ appendedItems entries), tail := "" }

namespace Function.Extends

variable {d b : Function} {entries : List (Option Function)} (h : d.Extends entries b)

include h

theorem eq_with : b = { d with items := b.items, tail := b.tail } := by
  cases h with
  | alone =>
    cases d
    rfl
  | entries => rfl

theorem body_source : b.body.source = d.body.source ++ appended entries := by
  cases h with
  | alone => simp [appended]
  | @entries entry entries base hs ht =>
    unfold Function.body Body.source
    rw [List.map_append, String.join_append, ht, List.map_append, String.join_append,
      source_entryItems, source_appendedItems]
    rw [appended_cons]
    simp [Body.source, Function.body, String.append_assoc]

theorem source_eq : b.source =
    d.head ++ d.paramsText ++ d.gap ++ ("\x7b" ++ d.body.source ++ appended entries ++ "\x7d") := by
  have hbody := h.body_source
  rw [Function.source, Body.block, hbody]
  rw [h.eq_with]
  simp only [String.append_assoc]

/-- The statements of the function, an empty one perhaps, and the declarations. -/
theorem statement_cases {s : Statement} (hs : s ∈ b.items.map Item.statement) :
    s ∈ d.items.map Item.statement ∨ s = .empty ∨ ∃ f, some f ∈ entries ∧ s = .function f := by
  cases h with
  | alone => exact .inl hs
  | @entries entry entries base hbase _ =>
    rw [List.map_append, List.mem_append, List.map_append, List.mem_append, mem_entryItems] at hs
    rcases hs with hs | ⟨f, rfl, rfl⟩ | hs
    · rcases hbase with hbase | hbase
      · exact .inl (hbase ▸ hs)
      · rw [hbase, List.mem_append, List.mem_singleton] at hs
        exact hs.imp_right .inl
    · exact .inr (.inr ⟨f, List.mem_cons_self, rfl⟩)
    · rcases mem_appendedItems hs with rfl | ⟨f, hf, rfl⟩
      · exact .inr (.inl rfl)
      · exact .inr (.inr ⟨f, List.mem_cons_of_mem _ hf, rfl⟩)

theorem mem_of_own {s : Statement} (hs : s ∈ d.items.map Item.statement) :
    s ∈ b.items.map Item.statement := by
  cases h with
  | alone => exact hs
  | @entries entry entries base hbase _ =>
    rw [List.map_append]
    refine List.mem_append_left _ ?_
    rcases hbase with hbase | hbase
    · rwa [hbase]
    · rw [hbase]
      exact List.mem_append_left _ hs

theorem mem_of_entry {f : Function} (hf : some f ∈ entries) :
    Statement.function f ∈ b.items.map Item.statement := by
  cases h with
  | alone => cases hf
  | @entries entry entries base _ _ =>
    rw [List.map_append, List.map_append]
    refine List.mem_append_right _ (List.mem_append.mpr ?_)
    rcases List.mem_cons.mp hf with rfl | hf
    · exact .inl (mem_entryItems.mpr ⟨f, rfl, rfl⟩)
    · exact .inr (mem_appendedItems_of_mem hf)

end Function.Extends

/-- Behind the statements of a portable function there may stand portable ones, and which ones does
not change how the statements are read. -/
theorem Function.Portable.exists_extends_all {d : Function} {name : String} (h : d.Portable name) :
    ∃ statements : List Statement,
      (statements = d.items.map Item.statement ∨
        statements = d.items.map Item.statement ++ [.empty]) ∧
      ∀ {entry : Option Function} {entries : List (Option Function)},
        (∀ other ∈ entry :: entries, PortableEntry other) →
        ∃ b : Function, d.Extends (entry :: entries) b ∧ b.Portable name ∧
          b.items.map Item.statement = statements ++
            (entryItems entry ++ appendedItems entries).map Item.statement := by
  obtain ⟨statements, hstatements, happend⟩ := h.body.append
  refine ⟨statements, hstatements, fun {entry entries} hs => ?_⟩
  obtain ⟨hentry, hentries⟩ := List.forall_mem_cons.mp hs
  obtain ⟨base, hbase, ht, hread⟩ := happend hentry hentries
  refine ⟨_, .entries (hbase ▸ hstatements) ht, { h with body := hread }, ?_⟩
  rw [List.map_append, hbase]

/-- Behind the statements of a portable function there may stand portable ones. -/
theorem Function.Portable.exists_extends {d : Function} {name : String} (h : d.Portable name)
    {entries : List (Option Function)} (hs : ∀ entry ∈ entries, PortableEntry entry) :
    ∃ b : Function, d.Extends entries b ∧ b.Portable name := by
  cases entries with
  | nil => exact ⟨d, .alone, h⟩
  | cons entry entries =>
    obtain ⟨_, -, hextends⟩ := h.exists_extends_all
    obtain ⟨b, hb, hportable, -⟩ := hextends hs
    exact ⟨b, hb, hportable⟩

end Script

/-! ## Defaults that are pending -/

/-- Nothing is pending in a function with declarations behind its statements, if nothing is in the
function or in one of the declarations. -/
theorem Script.Function.Extends.isPending_eq {d b : Function} {entries : List (Option Function)}
    (h : d.Extends entries b) (hd : d.tree.isPending = false)
    (hentries : ∀ f, some f ∈ entries → f.tree.isPending = false) : b.tree.isPending = false := by
  rw [isPending_function, Bool.or_eq_false_iff] at hd ⊢
  refine ⟨?_, List.any_eq_false.mpr fun s hs => ?_⟩
  · rw [h.eq_with]
    exact hd.1
  · rcases h.statement_cases hs with hs | rfl | ⟨f, hf, rfl⟩
    · exact List.any_eq_false.mp hd.2 s hs
    · decide
    · rw [Bool.not_eq_true]
      exact hentries f hf

/-! ## Helpers -/

/-- The canonical form of a helper is a declaration under its name. -/
theorem helperText_declares {name : String} {helper : Export} {text : String}
    (h : helperText name helper = .ok text) : ∃ d : Function, d.Portable name ∧ d.source = text := by
  unfold helperText at h
  split at h
  · obtain ⟨_, d, -, hportable, hsource, -⟩ := normalize_declares h
    exact ⟨d, hportable, hsource⟩
  · cases h

/-- What a helper is declared as. -/
structure DeclaresHelper (helper : String × Export) (d : Function) : Prop where
  portable : d.Portable helper.1
  text : helperText helper.1 helper.2 = .ok d.source

theorem DeclaresHelper.declared?_eq {helper : String × Export} {d : Function}
    (h : DeclaresHelper helper d) : declared? d.source = some d := by
  have htext := h.text
  unfold helperText at htext
  split at htext
  · exact h.portable.declared?_eq htext
  · cases htext

/-- Nothing is pending in what a helper is declared as. -/
theorem DeclaresHelper.isPending_eq {helper : String × Export} {d : Function}
    (h : DeclaresHelper helper d) : d.tree.isPending = false := by
  have htext := h.text
  unfold helperText at htext
  split at htext
  · exact h.portable.isPending_eq htext
  · cases htext

theorem declarations_eq_ok {helpers : Entries Export} {texts : String}
    (h : declarations helpers = .ok texts) : ∃ ds : List Function,
      List.Forall₂ DeclaresHelper helpers ds ∧ texts = appended (ds.map some) := by
  induction helpers generalizing texts with
  | nil =>
    cases h
    exact ⟨[], .nil, rfl⟩
  | cons helper rest ih =>
    obtain ⟨text, htext, h⟩ := Outcome.bind_eq_ok.mp h
    obtain ⟨others, hothers, h⟩ := Outcome.bind_eq_ok.mp h
    obtain rfl := Except.ok.inj h
    obtain ⟨d, hd, rfl⟩ := helperText_declares htext
    obtain ⟨ds, hds, rfl⟩ := ih hothers
    exact ⟨d :: ds, .cons ⟨hd, htext⟩ hds, by simp [appended, entryText, String.join_cons]⟩

theorem portableEntries_of_declares {helpers : Entries Export} {ds : List Function}
    (h : List.Forall₂ DeclaresHelper helpers ds) : ∀ entry ∈ ds.map some, PortableEntry entry := by
  induction h with
  | nil => nofun
  | cons hd _ ih =>
    refine List.forall_mem_cons.mpr ⟨?_, ih⟩
    rintro _ ⟨⟩
    exact ⟨_, hd.portable⟩

theorem isPending_of_declares {helpers : Entries Export} {ds : List Function}
    (h : List.Forall₂ DeclaresHelper helpers ds) :
    ∀ f, some f ∈ ds.map some → f.tree.isPending = false := by
  induction h with
  | nil => nofun
  | cons hd _ ih =>
    intro f hf
    rcases List.mem_cons.mp hf with hf | hf
    · obtain rfl := Option.some.inj hf
      exact hd.isPending_eq
    · exact ih f hf

/-- The helpers are declared under their names. -/
theorem exists_declares_iff {helpers : Entries Export} {ds : List Function}
    (h : List.Forall₂ DeclaresHelper helpers ds) {id : String} :
    (∃ f, some f ∈ ds.map some ∧ f.name = some id) ↔ id ∈ Entries.names helpers := by
  induction h with
  | nil => simp [Entries.names]
  | cons hd _ ih =>
    rw [Entries.names_cons, List.mem_cons, ← ih]
    have hname := hd.portable.named
    simp only [List.map_cons, List.mem_cons, Option.some.injEq]
    grind

/-! ## Bundles -/

/-- A bundle declares the function with its helpers behind its statements. -/
theorem bundle_declares {code name canonical bundled : String} {helpers : Entries Export}
    (hn : normalize code name = .ok canonical) (hb : bundle canonical helpers = .ok bundled) :
    ∃ (source d b : Function) (ds : List Function),
      Canonical.denoted? (Canonical.trimmed code) = some source ∧
      d.params = source.params ∧ Recast source.body d.body ∧ d.source = canonical ∧
      List.Forall₂ DeclaresHelper helpers ds ∧
      d.Portable name ∧ d.Extends (ds.map some) b ∧ b.Portable name ∧ b.source = bundled := by
  obtain ⟨source, d, hdenoted, hportable, rfl, hparams, hbody⟩ := normalize_declares hn
  have hsource : d.source =
      (d.head ++ d.paramsText ++ d.gap ++ ("\x7b" ++ d.body.source)) ++ "\x7d" := by
    simp only [Function.source, Body.block, String.append_assoc]
  rw [hsource, bundle_eq] at hb
  obtain ⟨texts, htexts, hb⟩ := Outcome.map_eq_ok.mp hb
  obtain ⟨ds, hds, rfl⟩ := declarations_eq_ok htexts
  obtain ⟨b, hextends, hb'⟩ := hportable.exists_extends (portableEntries_of_declares hds)
  refine ⟨source, d, b, ds, hdenoted, hparams, hbody, rfl, hds, hportable, hextends, hb', ?_⟩
  rw [hextends.source_eq, ← hb]
  simp only [String.append_assoc]

end Collector
