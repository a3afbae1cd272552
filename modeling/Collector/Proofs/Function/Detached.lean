import Collector.Function.Compression
import Collector.Proofs.Function.Bundled
import Collector.Proofs.Group.Separate
import Collector.Proofs.Script.Scopes

/-!
# Functions without their parameters

Before a function is made smaller its parameters are taken off, so that their names stand for
something outside, which keeps its name. That works for every use of a parameter unless the body
declares the name once more. A body declares what its source declares, and the helpers.

* `Referent.detached` tells what a name stands for then, and `detached_uses` is the result.
* `detached_binds_redeclared` is a function that declares a parameter once more.
-/

namespace Collector

open Script Collector.Compact

/-! ## Declared names -/

/-- The names that the statements of a function declare there. -/
def Script.Function.declaredNames (f : Function) : List String :=
  bodyDeclared (f.items.map Item.statement)

theorem functionNamesOf_eq (statements : List Statement) :
    functionNamesOf statements = statements.flatMap functionNames := by
  induction statements with
  | nil => rfl
  | cons s rest ih => rw [functionNamesOf, ih, List.flatMap_cons]

theorem mem_bodyDeclared {id : String} {statements : List Statement} :
    id ∈ bodyDeclared statements ↔ ∃ s ∈ statements, id ∈ functionNames s ++ blockDeclared s := by
  rw [bodyDeclared, functionNamesOf_eq]
  simp only [List.mem_append, List.mem_flatMap]
  grind

/-- A function with declarations behind its statements declares what it did, and those. -/
theorem Script.Function.Extends.mem_declaredNames {d b : Function}
    {entries : List (Option Function)} (h : d.Extends entries b) {id : String} :
    id ∈ b.declaredNames ↔
      id ∈ d.declaredNames ∨ ∃ f, some f ∈ entries ∧ f.name = some id := by
  have hfunction (f : Function) :
      id ∈ functionNames (.function f) ++ blockDeclared (.function f) ↔ f.name = some id :=
    Option.mem_toList
  unfold Function.declaredNames
  simp only [mem_bodyDeclared]
  constructor
  · rintro ⟨s, hs, hid⟩
    rcases h.statement_cases hs with hs | rfl | ⟨f, hf, rfl⟩
    · exact .inl ⟨s, hs, hid⟩
    · cases hid
    · exact .inr ⟨f, hf, (hfunction f).mp hid⟩
  · rintro (⟨s, hs, hid⟩ | ⟨f, hf, hid⟩)
    · exact ⟨s, h.mem_of_own hs, hid⟩
    · exact ⟨_, h.mem_of_entry hf, (hfunction f).mpr hid⟩

theorem Recast.declaredNames_eq {f d : Function} (h : Recast f.body d.body) :
    d.declaredNames = f.declaredNames := by
  have hitems (f : Function) : f.declaredNames = bodyDeclared (f.body.items.map Item.statement) := rfl
  rw [hitems, hitems]
  generalize f.body = body, d.body = body' at h
  cases h <;> rfl

/-! ## Parameters -/

/-- What a name stands for that is used in the body of a function. -/
inductive Referent where
  /-- A parameter. A body that declares the name once more means the parameter by it. -/
  | parameter
  /-- Something that is declared in the body. -/
  | inner
  /-- Something outside the function. -/
  | outer
  deriving DecidableEq

/-- What a name stands for at the front of the body of a function. -/
def Referent.of (f : Function) (id : String) : Referent :=
  if id ∈ patternsNames f.params then .parameter
  else if id ∈ f.declaredNames then .inner
  else .outer

/-- What a name stands for once the parameters are taken off, if the body declares some names. -/
def Referent.detached (declared : List String) (id : String) : Referent → Referent
  | .parameter => if id ∈ declared then .inner else .outer
  | referent => referent

/-- The names that are used in the body of a function, in the order of the text, and what they
stand for. -/
def Script.Function.bodyUses (f : Function) : List (String × Referent) :=
  itemsUses .inner (Referent.of f) f.items

/-- A function without its parameters. -/
def Script.Function.detached (f : Function) : Function := { f with params := [], paramsText := "()" }

theorem Script.Function.source_detached (f : Function) : f.detached.source = f.detachedSource := by
  simp only [Function.source, Function.detached, Function.detachedSource, Body.block,
    String.append_assoc]
  rfl

theorem Referent.detached_congr {declared declared' : List String} {id : String}
    (h : id ∈ declared ↔ id ∈ declared') (referent : Referent) :
    referent.detached declared id = referent.detached declared' id := by
  cases referent <;> simp [Referent.detached, h]

theorem Referent.of_detached (f : Function) (id : String) :
    Referent.of f.detached id = (Referent.of f id).detached f.declaredNames id := by
  have hnone : id ∉ patternsNames f.detached.params := nofun
  have hsame : f.detached.declaredNames = f.declaredNames := rfl
  unfold Referent.of
  rw [if_neg hnone, hsame]
  by_cases hp : id ∈ patternsNames f.params
  · rw [if_pos hp]
    rfl
  · rw [if_neg hp]
    split <;> rfl

/-- Without the parameters, a name that stood for one is free unless the body declares it. -/
theorem Script.Function.bodyUses_detached (f : Function) :
    f.detached.bodyUses = f.bodyUses.map fun use => (use.1, use.2.detached f.declaredNames use.1) := by
  have hmap := @itemsUses_map _ _ .inner .inner (Referent.detached f.declaredNames) (fun _ => rfl)
    (Referent.of f) f.items
  exact (hmap.trans (congrArg (fun view => itemsUses .inner view f.items)
    (funext fun id => (Referent.of_detached f id).symm))).symm

theorem readsParameters_none : ReadsParameters [] "()" := by
  have hread : (grammar 1 1).parameters Mode.plain (.front .inside "()".toList) =
      some (([], "()"), .front .inside []) := by rfl
  exact (readsParameters hread).2.2

theorem Script.Function.Portable.detached {f : Function} {name : String} (h : f.Portable name) :
    f.detached.Portable name :=
  have htext : "()".toList = '(' :: [] ++ [')'] := by decide
  { h with paramsText := ⟨[], htext⟩, params := readsParameters_none }

theorem patternNames_of_plainName? {p : Pattern} {id : String} (h : plainName? p = some id) :
    patternNames p = [id] := by
  unfold plainName? at h
  split at h
  · cases h
    rfl
  · cases h
    rfl
  · cases h

theorem names_of_plainNames {params : List Pattern} {names : List String}
    (h : params.mapM plainName? = some names) : names = patternsNames params := by
  induction params generalizing names with
  | nil =>
    obtain rfl := Option.some.inj h
    rfl
  | cons p params ih =>
    rw [List.mapM_cons] at h
    obtain ⟨id, hid, h⟩ := Option.bind_eq_some_iff.mp h
    obtain ⟨rest, hrest, h⟩ := Option.bind_eq_some_iff.mp h
    obtain rfl := Option.some.inj h
    rw [patternsNames, patternNames_of_plainName? hid, ih hrest]
    rfl

/-- The names that can be bound are all names that the parameters declare. -/
theorem boundNames_eq_ok {f : Function} {params : List String} (h : boundNames f = .ok params) :
    params = patternsNames f.params := by
  unfold boundNames at h
  split at h
  · cases h
  · split at h
    next names hnames =>
      obtain rfl := Except.ok.inj h
      exact names_of_plainNames hnames
    · cases h

/-- Without its parameters, a bundle is read as its function without them. A name that stands for
a parameter in the body stands for something outside then, unless the source of the function
declares it once more or a helper has the same name. -/
theorem detached_uses {compressor : Compressor} {helpers : Entries Export}
    {code name bundled : String} {body : Body} {f : Function} {params : List String}
    (hseen : bundled ∈ (compileFunction compressor helpers code name).trace.2)
    (hparse : parseScript? bundled = some body) (hsole : soleFunction body = .ok f)
    (hparams : boundNames f = .ok params) :
    ∃ source, Canonical.denoted? (Canonical.trimmed code) = some source ∧
      f.params = source.params ∧ params = patternsNames f.params ∧
      (∀ id, id ∈ f.declaredNames ↔ id ∈ source.declaredNames ∨ id ∈ Entries.names helpers) ∧
      DeclaresOnly (body.mapFunctions Function.detachedSource) f.detached ∧
      f.bodyUses.map Prod.fst = (itemTrees f.items).flatMap Tree.references ∧
      f.detached.bodyUses = f.bodyUses.map fun use =>
        (use.1, use.2.detached (source.declaredNames ++ Entries.names helpers) use.1) := by
  obtain ⟨canonical, hcanonical, hbundle⟩ := bundled_of_mem_trace hseen
  obtain ⟨source, d, b, ds, hdenoted, hsame, hbody, -, hds, -, hextends, hportable, rfl⟩ :=
    bundle_declares hcanonical hbundle
  obtain ⟨rfl, -⟩ := hportable.parseScript_eq hparse
  obtain rfl : b = f := Except.ok.inj hsole
  have hdeclared (id : String) :
      id ∈ b.declaredNames ↔ id ∈ source.declaredNames ∨ id ∈ Entries.names helpers := by
    rw [hextends.mem_declaredNames, hbody.declaredNames_eq, exists_declares_iff hds]
  have hdetached : Body.mapFunctions Function.detachedSource ⟨[⟨"", b.source, .function b⟩], ""⟩ =
      b.detached.source := by
    rw [b.source_detached]
    simp [Body.mapFunctions, String.join_cons]
  refine ⟨source, hdenoted, ?_, boundNames_eq_ok hparams, hdeclared, ?_, itemsUses_names _ _ _, ?_⟩
  · rw [hextends.eq_with]
    exact hsame
  · rw [hdetached]
    exact hportable.detached.declaresOnly
  · rw [b.bodyUses_detached]
    refine List.map_congr_left fun use _ => Prod.ext rfl (Referent.detached_congr ?_ use.2)
    rw [hdeclared, List.mem_append]

/-! ## A function that declares a parameter once more -/

/-- A function that gives its parameter a default. -/
def defaulting : String := "function (ctx) { var ctx = ctx || {}; return ctx.url; }"

/-- Its bundle with one helper. -/
def defaultingBundle : String :=
  "function toUrl(ctx){ var ctx = ctx || {}; return ctx.url; ;function id(x){return (x);}}"

/-- The names that the parameters of the only function of a script bind. -/
def boundOf? (text : String) : Option (List String) :=
  (parseScript? text).bind fun body =>
    (soleFunction body).toOption.bind fun f => (boundNames f).toOption

theorem detached_uses_defaulting :
    defaultingBundle ∈ (compileFunction .ok [("id", .function "x => x")] defaulting "toUrl").trace.2 ∧
      ∃ body f, parseScript? defaultingBundle = some body ∧ soleFunction body = .ok f ∧
        boundNames f = .ok ["ctx"] ∧
        ∃ source, Canonical.denoted? (Canonical.trimmed defaulting) = some source ∧
          f.params = source.params ∧ ["ctx"] = patternsNames f.params ∧
          (∀ id, id ∈ f.declaredNames ↔ id ∈ source.declaredNames ∨ id ∈ ["id"]) ∧
          DeclaresOnly (body.mapFunctions Function.detachedSource) f.detached ∧
          f.bodyUses.map Prod.fst = (itemTrees f.items).flatMap Tree.references ∧
          f.detached.bodyUses = f.bodyUses.map fun use =>
            (use.1, use.2.detached (source.declaredNames ++ ["id"]) use.1) := by
  have hseen : defaultingBundle ∈
      (compileFunction .ok [("id", .function "x => x")] defaulting "toUrl").trace.2 := by
    decide +kernel
  have hbound : boundOf? defaultingBundle = some ["ctx"] := by decide +kernel
  obtain ⟨body, hparse, hbound⟩ := Option.bind_eq_some_iff.mp hbound
  obtain ⟨f, hsole, hbound⟩ := Option.bind_eq_some_iff.mp hbound
  have hsole := Outcome.eq_ok_of_toOption hsole
  have hbound := Outcome.eq_ok_of_toOption hbound
  exact ⟨hseen, body, f, hparse, hsole, hbound, detached_uses hseen hparse hsole hbound⟩

/-- What the names in the body of the only function of a script stand for. -/
def usesOf? (text : String) : Option (List (String × Referent)) :=
  (parseScript? text).bind fun body => (soleFunction body).toOption.map Function.bodyUses

/-- A parameter that is declared once more is not free when the parameters are taken off. -/
theorem detached_binds_redeclared :
    (compileFunction .ok [] defaulting "toUrl").trace.2 =
        ["function toUrl(ctx){ var ctx = ctx || {}; return ctx.url; }"] ∧
      boundOf? "function toUrl(ctx){ var ctx = ctx || {}; return ctx.url; }" = some ["ctx"] ∧
      usesOf? "function toUrl(ctx){ var ctx = ctx || {}; return ctx.url; }" =
        some [("ctx", .parameter), ("ctx", .parameter)] ∧
      (parseScript? "function toUrl(ctx){ var ctx = ctx || {}; return ctx.url; }").map
          (Body.mapFunctions Function.detachedSource) =
        some "function toUrl(){ var ctx = ctx || {}; return ctx.url; }" ∧
      usesOf? "function toUrl(){ var ctx = ctx || {}; return ctx.url; }" =
        some [("ctx", .inner), ("ctx", .inner)] := by
  decide +kernel

end Collector
