import Collector.Proofs.Function.Cutting

/-!
# What is stored of a script

A collector stores the body of a function, so a script that was made smaller is read once more and
the body is cut out. The script may declare one function only (`extractBody_eq_ok_iff`). What else
stands in it is left out without notice: a script of other statements besides is no error here,
though it is one where functions are handed in (`extraction_leaves_statement`).
-/

namespace Collector

open Script

namespace Script

/-! ## The only function -/

theorem Statement.function?_eq_some_iff {s : Statement} {f : Function} :
    s.function? = some f ↔ s = .function f := by
  cases s <;> simp [Statement.function?]

/-- A function is declared at the top of a script, and no other one is. -/
def Body.Stores (body : Body) (f : Function) : Prop :=
  ∃ front back, body.statements = front ++ .function f :: back ∧
    ∀ s ∈ front ++ back, s.function? = none

theorem Body.stores_iff {body : Body} {f : Function} :
    body.Stores f ↔ body.statements.filterMap Statement.function? = [f] := by
  rw [List.filterMap_eq_cons_iff]
  constructor
  · rintro ⟨front, back, hstatements, hothers⟩
    obtain ⟨hfront, hback⟩ := List.forall_mem_append.mp hothers
    exact ⟨front, _, back, hstatements, hfront, rfl, List.filterMap_eq_nil_iff.mpr hback⟩
  · rintro ⟨front, s, back, hstatements, hfront, hs, hback⟩
    obtain rfl := Statement.function?_eq_some_iff.mp hs
    exact ⟨front, back, hstatements,
      List.forall_mem_append.mpr ⟨hfront, List.filterMap_eq_nil_iff.mp hback⟩⟩

/-- Among functions alone, the only one is all there is. -/
theorem Body.Stores.statements_eq {body : Body} {f : Function} (h : body.Stores f)
    (hfunctions : ∀ s ∈ body.statements, s.function? ≠ none) : body.statements = [.function f] := by
  obtain ⟨front, back, hstatements, hothers⟩ := h
  rw [hstatements] at hfunctions ⊢
  have hnone (others : List Statement) (hmem : ∀ s ∈ others, s ∈ front ++ back) : others = [] := by
    refine List.eq_nil_iff_forall_not_mem.mpr fun s hs => ?_
    have hs := hmem s hs
    refine hfunctions s ?_ (hothers s hs)
    rw [List.mem_append, List.mem_cons]
    exact (List.mem_append.mp hs).imp_right .inr
  rw [hnone front fun s hs => List.mem_append_left _ hs,
    hnone back fun s hs => List.mem_append_right _ hs]
  rfl

/-- A script that declares a function is its text with the texts of the other statements around. -/
theorem exists_items {source : String} {body : Body} {f : Function}
    (h : parseScript? source = some body) (hf : .function f ∈ body.statements) :
    ∃ pre item post, body.items = pre ++ item :: post ∧ item.statement = .function f ∧
      source = String.join (pre.map Item.source) ++ item.lead ++ f.head ++ f.paramsText ++ f.gap ++
        ("\x7b" ++ f.body.source ++ "\x7d") ++ String.join (post.map Item.source) ++ body.tail := by
  obtain ⟨item, hitem, hs⟩ := List.mem_map.mp (List.mem_of_mem_filter hf)
  obtain ⟨pre, post, hitems⟩ := List.append_of_mem hitem
  obtain ⟨c, hread, -, -⟩ := parseScript?_eq_some h
  have htext : item.text = f.source := (function_of_body hread hitem hs).1
  refine ⟨pre, item, post, hitems, hs, ?_⟩
  rw [← parseScript?_source h, Body.source, hitems, List.map_append, List.map_cons,
    String.join_append, String.join_cons, Item.source, htext]
  simp only [Function.source, Body.block, String.append_assoc]

end Script

/-! ## Extraction -/

theorem extractBody_of_some {source : String} {body : Body} (h : parseScript? source = some body) :
    (∃ f, body.Stores f ∧ extractBody source = .ok f.body.source) ∨
      (∀ f, ¬ body.Stores f) ∧ extractBody source = .error .outputNotOneFunction := by
  unfold extractBody Artifact.ofSource
  rw [h]
  dsimp only
  split
  next f hf => exact .inl ⟨f, Body.stores_iff.mpr hf, rfl⟩
  next hf => exact .inr ⟨fun f hstores => hf f (Body.stores_iff.mp hstores), rfl⟩

theorem extractBody_of_none {source : String} (h : parseScript? source = none) :
    extractBody source = .error .outputSyntax := by
  unfold extractBody Artifact.ofSource
  rw [h]
  rfl

theorem Script.Body.Stores.unique {body : Body} {f g : Function} (hf : body.Stores f)
    (hg : body.Stores g) : f = g := by
  rw [Body.stores_iff] at hf hg
  exact (List.cons.inj (hf.symm.trans hg)).1

/-- What is extracted from a script is the body of the only function that it declares. -/
theorem extractBody_eq_ok_iff {source text : String} :
    extractBody source = .ok text ↔ ∃ body f, parseScript? source = some body ∧ body.Stores f ∧
      text = f.body.source := by
  cases hparse : parseScript? source with
  | none => simp [extractBody_of_none hparse]
  | some body =>
    rcases extractBody_of_some hparse with ⟨f, hf, hok⟩ | ⟨hnone, herror⟩
    · rw [hok, Except.ok.injEq]
      constructor
      · rintro rfl
        exact ⟨body, f, rfl, hf, rfl⟩
      · rintro ⟨_, g, ⟨⟩, hg, rfl⟩
        rw [hf.unique hg]
    · rw [herror]
      constructor
      · intro h
        cases h
      · rintro ⟨_, g, ⟨⟩, hg, -⟩
        exact absurd hg (hnone g)

theorem extractBody_eq_error_iff {source : String} {error : Error} :
    extractBody source = .error error ↔
      (parseScript? source = none ∧ error = .outputSyntax) ∨
        ∃ body, parseScript? source = some body ∧ (∀ f, ¬ body.Stores f) ∧
          error = .outputNotOneFunction := by
  cases hparse : parseScript? source with
  | none => simp [extractBody_of_none hparse, eq_comm]
  | some body =>
    rcases extractBody_of_some hparse with ⟨f, hf, hok⟩ | ⟨hnone, herror⟩
    · rw [hok]
      constructor
      · intro h
        cases h
      · rintro (⟨⟨⟩, -⟩ | ⟨_, ⟨⟩, hnone, -⟩)
        exact absurd hf (hnone f)
    · rw [herror, Except.error.injEq]
      constructor
      · rintro rfl
        exact .inr ⟨body, rfl, hnone, rfl⟩
      · rintro (⟨⟨⟩, -⟩ | ⟨_, -, -, rfl⟩)
        rfl

/-- What is extracted from a script is the text between the braces of the only function that it
declares; it is cut out of the script where it stands, and what stands around the function are the
other statements. Without such a function nothing is extracted. A script that is handed in as one
function and nothing else has that function, and where no statement but functions stands at the top,
the script of which a body is extracted is one function and nothing else. -/
theorem extraction_keeps_function (source : String) :
    (∀ text, extractBody source = .ok text ↔ ∃ body f, parseScript? source = some body ∧
      body.Stores f ∧ text = f.body.source) ∧
    (∀ error, extractBody source = .error error ↔
      (parseScript? source = none ∧ error = .outputSyntax) ∨
        ∃ body, parseScript? source = some body ∧ (∀ f, ¬ body.Stores f) ∧
          error = .outputNotOneFunction) ∧
    ∀ body, parseScript? source = some body →
      (∀ f, body.Stores f → ∃ pre item post,
        body.items = pre ++ item :: post ∧ item.statement = .function f ∧
        source = String.join (pre.map Item.source) ++ item.lead ++ f.head ++ f.paramsText ++
          f.gap ++ ("\x7b" ++ f.body.source ++ "\x7d") ++ String.join (post.map Item.source) ++
          body.tail) ∧
      (∀ f, soleFunction body = .ok f → body.Stores f) ∧
      ((∀ s ∈ body.statements, s.function? ≠ none) → ∀ text,
        extractBody source = .ok text ↔ ∃ f, soleFunction body = .ok f ∧ text = f.body.source) := by
  have hsole {body : Body} {f : Function} (h : soleFunction body = .ok f) : body.Stores f :=
    ⟨[], [], soleFunction_eq_ok h, nofun⟩
  refine ⟨fun text => extractBody_eq_ok_iff, fun error => extractBody_eq_error_iff,
    fun body h => ⟨fun f hf => exists_items h ?_, fun f => hsole, fun hfunctions text => ?_⟩⟩
  · obtain ⟨front, back, hstatements, -⟩ := hf
    rw [hstatements]
    exact List.mem_append_right _ List.mem_cons_self
  · rw [extractBody_eq_ok_iff]
    constructor
    · rintro ⟨found, f, hfound, hf, rfl⟩
      obtain rfl := Option.some.inj (h.symm.trans hfound)
      refine ⟨f, ?_, rfl⟩
      unfold soleFunction
      rw [hf.statements_eq hfunctions]
    · rintro ⟨f, hf, rfl⟩
      exact ⟨body, f, h, hsole hf, rfl⟩

/-- A function with a brace in a string and a function inside. -/
def bracedScript : String := "function f(a)\x7b'\x7d'\nfunction g()\x7b\x7d\x7d"

/-- Its body ends with the last brace. -/
theorem extraction_keeps_function_nested :
    ∃ body, parseScript? bracedScript = some body ∧
      (∀ s ∈ body.statements, s.function? ≠ none) ∧
      ∃ f, soleFunction body = .ok f ∧ "'\x7d'\nfunction g()\x7b\x7d" = f.body.source := by
  have hextract : (extractBody bracedScript).toOption = some "'\x7d'\nfunction g()\x7b\x7d" := by
    decide +kernel
  have hfunctions : ((parseScript? bracedScript).map
      fun body => body.statements.all fun s => s.function?.isSome) = some true := by
    decide +kernel
  obtain ⟨body, hbody, hall⟩ := Option.map_eq_some_iff.mp hfunctions
  have hfunctions : ∀ s ∈ body.statements, s.function? ≠ none := fun s hs =>
    Option.isSome_iff_ne_none.mp (List.all_eq_true.mp hall s hs)
  obtain ⟨-, -, hparsed⟩ := extraction_keeps_function bracedScript
  obtain ⟨-, -, hagree⟩ := hparsed body hbody
  exact ⟨body, hbody, hfunctions, (hagree hfunctions _).mp (Outcome.eq_ok_of_toOption hextract)⟩

/-- Of a variable beside the function nothing is left, though the function needs it. Handed in, the
same script is refused. -/
theorem extraction_leaves_statement :
    ∃ body, parseScript? "var k=1;function f()\x7breturn k\x7d" = some body ∧
      body.statements.length = 2 ∧ soleFunction body = .error .notOneDeclaration ∧
      extractBody "var k=1;function f()\x7breturn k\x7d" = .ok "return k" := by
  have hextract : (extractBody "var k=1;function f()\x7breturn k\x7d").toOption =
      some "return k" := by
    decide +kernel
  have hparse : ((parseScript? "var k=1;function f()\x7breturn k\x7d").map fun body =>
      (body.statements.length, Outcome.error? (soleFunction body))) =
        some (2, some .notOneDeclaration) := by
    decide +kernel
  obtain ⟨body, hbody, hboth⟩ := Option.map_eq_some_iff.mp hparse
  obtain ⟨hlength, herror⟩ := Prod.mk.inj hboth
  exact ⟨body, hbody, hlength, Outcome.eq_error_of_error? herror,
    Outcome.eq_ok_of_toOption hextract⟩

end Collector
