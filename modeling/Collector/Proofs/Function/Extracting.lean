import Collector.Proofs.Function.Bundled
import Collector.Proofs.Function.Pruned

/-!
# What is extracted from a bundle

Helpers are declared before the last brace of a text, and the body of a function is cut out where a
parser finds it. In a canonical form the two places are the same, whatever statement the body ends
with, so nothing is lost: `bundle_extracts`. A bundle fails for its helpers only, and with the first
of them that has no canonical form.
-/

namespace Collector

open Script

/-! ## Helpers that can be declared -/

/-- A helper is a function, and it has a canonical form under its own name. -/
def Normalizes (helper : String × Export) (source : String) : Prop :=
  ∃ code, helper.2 = .function code ∧ normalize code helper.1 = .ok source

/-- A helper is no function, or it has no canonical form under its own name. -/
def Offends (helper : String × Export) (error : Error) : Prop :=
  (helper.2.function? = none ∧ error = .helperNotFunction helper.1) ∨
    ∃ code, helper.2 = .function code ∧ normalize code helper.1 = .error error

theorem helperText_eq_ok {helper : String × Export} {source : String} :
    helperText helper.1 helper.2 = .ok source ↔ Normalizes helper source := by
  obtain ⟨name, helper⟩ := helper
  cases helper <;> simp [helperText, Normalizes, Export.function?]

theorem helperText_eq_error {helper : String × Export} {error : Error} :
    helperText helper.1 helper.2 = .error error ↔ Offends helper error := by
  obtain ⟨name, helper⟩ := helper
  cases helper <;> simp [helperText, Offends, Export.function?, eq_comm]

theorem Offends.not_normalizes {helper : String × Export} {error : Error} {source : String}
    (h : Offends helper error) : ¬ Normalizes helper source := by
  intro hsource
  cases (helperText_eq_error.mpr h).symm.trans (helperText_eq_ok.mpr hsource)

/-- The declarations of helpers, or else the first helper that cannot be declared. -/
theorem declarations_cases (helpers : Entries Export) :
    (∃ sources, List.Forall₂ Normalizes helpers sources ∧
        declarations helpers = .ok (String.join (sources.map (";" ++ ·)))) ∨
      ∃ before helper behind error, helpers = before ++ helper :: behind ∧
        (∀ other ∈ before, ∃ source, Normalizes other source) ∧ Offends helper error := by
  induction helpers with
  | nil => exact .inl ⟨[], .nil, rfl⟩
  | cons helper rest ih =>
    cases htext : helperText helper.1 helper.2 with
    | error error => exact .inr ⟨[], helper, rest, error, rfl, nofun, helperText_eq_error.mp htext⟩
    | ok source =>
      have hsource := helperText_eq_ok.mp htext
      rcases ih with ⟨sources, hsources, hrest⟩ | ⟨before, other, behind, error, rfl, hbefore, hother⟩
      · refine .inl ⟨source :: sources, .cons hsource hsources, ?_⟩
        rw [declarations, htext, Outcome.bind_ok, hrest, Outcome.bind_ok, List.map_cons,
          String.join_cons]
      · exact .inr ⟨helper :: before, other, behind, error, rfl,
          List.forall_mem_cons.mpr ⟨⟨source, hsource⟩, hbefore⟩, hother⟩

/-- The first helper that cannot be declared decides the error. -/
theorem declarations_of_offends {before behind : Entries Export} {helper : String × Export}
    {error : Error} (hbefore : ∀ other ∈ before, ∃ source, Normalizes other source)
    (h : Offends helper error) : declarations (before ++ helper :: behind) = .error error := by
  induction before with
  | nil => rw [List.nil_append, declarations, helperText_eq_error.mpr h, Outcome.bind_error]
  | cons other before ih =>
    obtain ⟨⟨source, hsource⟩, hbefore⟩ := List.forall_mem_cons.mp hbefore
    rw [List.cons_append, declarations, helperText_eq_ok.mpr hsource, Outcome.bind_ok, ih hbefore,
      Outcome.bind_error]

/-- Declarations fail with the error of the first helper that cannot be declared. -/
theorem declarations_eq_error {helpers : Entries Export} {error : Error} :
    declarations helpers = .error error ↔ ∃ before helper behind,
      helpers = before ++ helper :: behind ∧
        (∀ other ∈ before, ∃ source, Normalizes other source) ∧ Offends helper error := by
  constructor
  · intro h
    rcases declarations_cases helpers with
      ⟨sources, -, hok⟩ | ⟨before, helper, behind, found, rfl, hbefore, hhelper⟩
    · cases hok.symm.trans h
    · obtain rfl := Except.error.inj ((declarations_of_offends hbefore hhelper).symm.trans h)
      exact ⟨before, helper, behind, rfl, hbefore, hhelper⟩
  · rintro ⟨before, helper, behind, rfl, hbefore, hhelper⟩
    exact declarations_of_offends hbefore hhelper

theorem exists_declarations_iff {helpers : Entries Export} :
    (∃ texts, declarations helpers = .ok texts) ↔
      ∀ helper ∈ helpers, ∃ source, Normalizes helper source := by
  constructor
  · rintro ⟨texts, h⟩ helper hhelper
    rcases declarations_cases helpers with
      ⟨sources, hsources, -⟩ | ⟨before, other, behind, error, rfl, hbefore, hother⟩
    · obtain ⟨source, -, hsource⟩ := Transform.exists_of_forall₂ hsources hhelper
      exact ⟨source, hsource⟩
    · cases (declarations_of_offends hbefore hother).symm.trans h
  · intro h
    rcases declarations_cases helpers with
      ⟨sources, -, hok⟩ | ⟨before, other, behind, error, rfl, hbefore, hother⟩
    · exact ⟨_, hok⟩
    · obtain ⟨source, hsource⟩ := h other (by simp)
      exact (hother.not_normalizes hsource).elim

/-! ## Extraction -/

/-- What is stored of a text that is one declaration. -/
theorem extractBody_of_parse {text : String} {f : Function}
    (h : parseScript? text = some ⟨[⟨"", text, .function f⟩], ""⟩) :
    extractBody text = .ok f.body.source ∧ declared? text = some f := by
  unfold extractBody Artifact.ofSource declared?
  rw [h]
  exact ⟨rfl, rfl⟩

/-- A bundle of a canonical form, read again: the function and its helpers. -/
theorem extractBody_bundle {code name text bundled : String} {helpers : Entries Export}
    (hn : normalize code name = .ok text) (hb : bundle text helpers = .ok bundled) :
    ∃ (d b : Function) (front : String) (sources : List String), declared? text = some d ∧
      text = front ++ ("\x7b" ++ d.body.source ++ "\x7d") ∧
      List.Forall₂ Normalizes helpers sources ∧
      extractBody bundled = .ok (d.body.source ++ String.join (sources.map (";" ++ ·))) ∧
      declared? bundled = some b ∧ b.name = some name := by
  obtain ⟨_, d, b, ds, -, -, -, rfl, hds, hd, hextends, hb', rfl⟩ := bundle_declares hn hb
  have hpending := hextends.isPending_eq (hd.isPending_eq hn) (isPending_of_declares hds)
  obtain ⟨hextract, hdeclared⟩ := extractBody_of_parse (hb'.declaresOnly.parseScript?_eq hpending)
  refine ⟨d, b, d.head ++ d.paramsText ++ d.gap, ds.map Function.source, hd.declared?_eq hn, ?_, ?_,
    ?_, hdeclared, hb'.named⟩
  · rfl
  · rw [List.forall₂_map_right_iff]
    exact hds.imp fun helper f hf => helperText_eq_ok.mp hf.text
  · rw [hextract, hextends.body_source, appended, List.map_map, List.map_map]
    rfl

/-- A canonical form can be bundled with helpers if each of them is a function with a canonical form
under its own name, and else the first that is not decides the error. What is extracted from the
bundle is the text in the braces of the canonical form, and behind it those of the helpers, each
behind a semicolon. The bundle is still one declaration under the name of the function. -/
theorem bundle_extracts {code name text : String} (h : normalize code name = .ok text)
    (helpers : Entries Export) :
    ((∃ bundled, bundle text helpers = .ok bundled) ↔
        ∀ helper ∈ helpers, ∃ source, Normalizes helper source) ∧
      (∀ error, bundle text helpers = .error error ↔ ∃ before helper behind,
        helpers = before ++ helper :: behind ∧
          (∀ other ∈ before, ∃ source, Normalizes other source) ∧ Offends helper error) ∧
      ∀ bundled, bundle text helpers = .ok bundled →
        ∃ (d b : Function) (front : String) (sources : List String), declared? text = some d ∧
          text = front ++ ("\x7b" ++ d.body.source ++ "\x7d") ∧
          List.Forall₂ Normalizes helpers sources ∧
          extractBody bundled = .ok (d.body.source ++ String.join (sources.map (";" ++ ·))) ∧
          declared? bundled = some b ∧ b.name = some name := by
  refine ⟨?_, fun error => ?_, fun bundled hb => extractBody_bundle h hb⟩
  · obtain ⟨front, rfl⟩ := exists_front_of_normalize h
    rw [bundle_eq, ← exists_declarations_iff]
    cases declarations helpers <;> simp [Except.map]
  · obtain ⟨front, rfl⟩ := exists_front_of_normalize h
    rw [bundle_eq, ← declarations_eq_error]
    cases declarations helpers <;> simp [Except.map]

/-- A body that ends without a semicolon, and a helper behind it. -/
theorem bundle_extracts_unterminated :
    ∃ (bundled : String) (d b : Function) (front : String) (sources : List String),
      normalize "x=>\x7bx\x7d" "f" = .ok "function f(x)\x7bx\x7d" ∧
      bundle "function f(x)\x7bx\x7d" [("a", .function "a()\x7b\x7d")] = .ok bundled ∧
      declared? "function f(x)\x7bx\x7d" = some d ∧
      "function f(x)\x7bx\x7d" = front ++ ("\x7b" ++ d.body.source ++ "\x7d") ∧
      List.Forall₂ Normalizes [("a", .function "a()\x7b\x7d")] sources ∧
      extractBody bundled = .ok (d.body.source ++ String.join (sources.map (";" ++ ·))) ∧
      declared? bundled = some b ∧ b.name = some "f" := by
  have hnormalize : (normalize "x=>\x7bx\x7d" "f").toOption = some "function f(x)\x7bx\x7d" := by
    decide +kernel
  have hbundle : (bundle "function f(x)\x7bx\x7d"
      [("a", .function "a()\x7b\x7d")]).toOption.isSome = true := by
    decide +kernel
  obtain ⟨bundled, hbundled⟩ := Option.isSome_iff_exists.mp hbundle
  have hnormalize := Outcome.eq_ok_of_toOption hnormalize
  have hbundled := Outcome.eq_ok_of_toOption hbundled
  obtain ⟨d, b, front, sources, h⟩ := (bundle_extracts hnormalize _).2.2 bundled hbundled
  exact ⟨bundled, d, b, front, sources, hnormalize, hbundled, h⟩

end Collector
