import Collector.Proofs.Function.Declared
import Collector.Proofs.Script.Scopes

/-!
# What names stand for in canonical forms

The canonical form of a function takes its parameters and its statements along, but not its name.
So a name that the function declares stands for the same thing there, and a name that stood for
something outside still does or stands for the new declaration. Where the function has used its
own name, though, nothing declares that name any more.

* `canonical_scoping` compares the uses of names one by one.
* `canonical_frees_own_name` is a function that calls itself.
-/

namespace Collector

open Script Collector.Compact

/-- What a name stands for that is used in a function. -/
inductive Meaning where
  /-- Something that is declared inside, a parameter among them. -/
  | inside
  /-- The function itself, by its own name. -/
  | own
  /-- Something outside. -/
  | outside
  deriving DecidableEq

namespace Meaning

/-- What a name stands for that is not declared inside a function. -/
def around (own : Option String) (id : String) : Meaning :=
  if own = some id then .own else .outside

theorem around_ne_inside (own : Option String) (id : String) : around own id ≠ .inside := by
  unfold around
  split <;> nofun

theorem around_eq_own {own : Option String} {id : String} (h : own = some id) :
    around own id = .own := if_pos h

theorem around_eq_outside {own : Option String} {id : String} :
    around own id = .outside ↔ own ≠ some id := by
  unfold around
  split <;> simp [*]

end Meaning

/-- The names that are used in a function, in the order of the text, and what they stand for. -/
def Script.Function.meanings (f : Function) : List (String × Meaning) :=
  f.uses .inside (Meaning.around f.name)

/-- A body stands for the same uses of names in a canonical form. -/
theorem Recast.uses_eq {β : Type} {body body' : Body} (h : Recast body body') (inside : β)
    (view : String → β) :
    itemsUses inside (within inside (bodyDeclared (body'.items.map Item.statement)) view) body'.items =
      itemsUses inside (within inside (bodyDeclared (body.items.map Item.statement)) view) body.items := by
  cases h with
  | same => rfl
  | answer text value => exact List.append_nil _

theorem Script.Function.uses_eq {β : Type} (f : Function) (inside : β) (view : String → β) :
    f.uses inside view =
      patternsUses inside (within inside (patternsNames f.params) view) f.params ++
        itemsUses inside (within inside (bodyDeclared (f.body.items.map Item.statement))
          (within inside (patternsNames f.params) view)) f.body.items := by
  cases f
  rfl

/-- In whatever way a function is looked at from outside, its canonical form uses the same names
for the same things. -/
theorem uses_of_recast {β : Type} {f d : Function} (hp : d.params = f.params)
    (hb : Recast f.body d.body) (inside : β) (view : String → β) :
    d.uses inside view = f.uses inside view := by
  rw [d.uses_eq, f.uses_eq, hp, hb.uses_eq]

/-- A use is known once it is known whether its name is declared inside. -/
theorem Script.Function.uses_eq_map {β : Type} (f : Function) (inside : β) (view : String → β) :
    f.uses inside view = (f.uses true fun _ => false).map fun use =>
      (use.1, if use.2 then inside else view use.1) :=
  (@Function.uses_map _ _ true inside (fun id isInside => if isInside then inside else view id)
    (fun _ => rfl) (fun _ => false) f).symm

/-- What the canonical form of a function says about a use of a name, given what the function
itself says. What is free there was free before, or was the name of the function. -/
structure KeepsMeaning (own : Option String) (name : String) (now before : String × Meaning) :
    Prop where
  same : now.1 = before.1
  inside : now.2 = .inside ↔ before.2 = .inside
  outside : now.2 = .outside → before.2 = .outside ∨ before.2 = .own ∧ own ≠ some name

theorem keepsMeaning_of_names {f d : Function} {name : String} (hd : d.name = some name)
    (hu : d.uses true (fun _ => false) = f.uses true fun _ => false) :
    List.Forall₂ (KeepsMeaning f.name name) d.meanings f.meanings := by
  unfold Function.meanings
  rw [d.uses_eq_map, f.uses_eq_map, hu, List.forall₂_map_left_iff, List.forall₂_map_right_iff,
    List.forall₂_same]
  rintro ⟨id, isInside⟩ -
  cases isInside with
  | true => exact ⟨rfl, Iff.rfl, nofun⟩
  | false =>
    refine ⟨rfl, ?_, fun h => ?_⟩
    · exact iff_of_false (Meaning.around_ne_inside _ _) (Meaning.around_ne_inside _ _)
    · have hne : d.name ≠ some id := Meaning.around_eq_outside.mp h
      by_cases hf : f.name = some id
      · exact .inr ⟨Meaning.around_eq_own hf, fun hn => hne (hd.trans (hn.symm.trans hf))⟩
      · exact .inl (Meaning.around_eq_outside.mpr hf)

/-- Whatever is used in a canonical form and stands for something outside did so in the function
that its source is, or is the former name of the function. All references are looked at. -/
theorem canonical_scoping {code name text : String} (h : normalize code name = .ok text) :
    ∃ f d : Function, Canonical.denoted? (Canonical.trimmed code) = some f ∧
      declared? text = some d ∧ d.name = some name ∧
      d.meanings.map Prod.fst = d.tree.references ∧
      List.Forall₂ (KeepsMeaning f.name name) d.meanings f.meanings := by
  obtain ⟨f, d, hdenoted, hportable, rfl, hparams, hbody⟩ := normalize_declares h
  exact ⟨f, d, hdenoted, hportable.declared?_eq h, hportable.named,
    d.uses_names _ _, keepsMeaning_of_names hportable.named (uses_of_recast hparams hbody _ _)⟩

/-! ## A function that calls itself -/

/-- A function expression that uses its own name. -/
def factorial : String := "function fact(ctx, subjects) { return fact(ctx, subjects); }"

theorem factorial_normalizes : (normalize factorial "transformBulk").toOption =
    some "function transformBulk(ctx, subjects){ return fact(ctx, subjects); }" := by
  decide +kernel

theorem canonical_scoping_factorial :
    (normalize factorial "transformBulk").toOption =
        some "function transformBulk(ctx, subjects){ return fact(ctx, subjects); }" ∧
      ∃ f d : Function, Canonical.denoted? (Canonical.trimmed factorial) = some f ∧
        declared? "function transformBulk(ctx, subjects){ return fact(ctx, subjects); }" = some d ∧
        d.name = some "transformBulk" ∧ d.meanings.map Prod.fst = d.tree.references ∧
        List.Forall₂ (KeepsMeaning f.name "transformBulk") d.meanings f.meanings := by
  exact ⟨factorial_normalizes,
    canonical_scoping (Outcome.eq_ok_of_toOption factorial_normalizes)⟩

/-- Under another name its own one is free. -/
theorem canonical_frees_own_name :
    (normalize factorial "transformBulk").toOption =
        some "function transformBulk(ctx, subjects){ return fact(ctx, subjects); }" ∧
      (Canonical.denoted? (Canonical.trimmed factorial)).map Function.meanings =
        some [("fact", .own), ("ctx", .inside), ("subjects", .inside)] ∧
      (declared? "function transformBulk(ctx, subjects){ return fact(ctx, subjects); }").map
          Function.meanings =
        some [("fact", .outside), ("ctx", .inside), ("subjects", .inside)] :=
  ⟨factorial_normalizes, by decide +kernel, by decide +kernel⟩

end Collector
