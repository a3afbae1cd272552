import Collector.Context.Usage
import Collector.Proofs.Occurrences
import Collector.Proofs.Outcomes

/-!
# Undeclared context variables

A script that reads variables which its schema does not declare is refused. The message names them:
each one once, in the order in which they are first read, and no declared one.

* `Undeclared` is the list of the message, and `checkUsages_eq` the answer of the check by it.
* `usage_check_exact` is the result.
-/

namespace Collector

open Script

/-! ## The check -/

/-- The variables that a message names: those that are read and not declared. -/
abbrev Undeclared (schema : Schema) (used listed : List String) : Prop :=
  ListsFirst (fun name => Entries.has schema name = false) used listed

theorem undeclared_eraseDups (schema : Schema) (used : List String) :
    Undeclared schema used (used.filter fun name => !Entries.has schema name).eraseDups := by
  have h := (listsFirst_eraseDups (used.filter fun name => !Entries.has schema name)).filter
  simpa using h

theorem checkUsages_eq {code : String} {used : List String} (h : contextUsages code = .ok used)
    (schema : Schema) (label : String) :
    checkUsages code schema label = reportUndeclared label
      (used.filter fun name => !Entries.has schema name).eraseDups := by
  unfold checkUsages
  rw [h]
  rfl

theorem reportUndeclared_eq_ok {label : String} {listed : List String} :
    reportUndeclared label listed = .ok () ↔ listed = [] := by
  cases listed with
  | nil => exact iff_of_true rfl rfl
  | cons first others => exact iff_of_false nofun nofun

theorem Undeclared.eq_nil_iff {schema : Schema} {used listed : List String}
    (h : Undeclared schema used listed) :
    listed = [] ↔ ∀ name ∈ used, Entries.has schema name = true := by
  simp [List.eq_nil_iff_forall_not_mem, h.mem]

/-- The wording of the message for one name and for several. -/
theorem reportUndeclared_error (label : String) {listed : List String} (h : listed ≠ []) :
    ∃ error, reportUndeclared label listed = .error error ∧ error.kind = .contextUsage ∧
      (∀ name, listed = [name] → error.message =
        "context variable " ++ Error.quoted name ++ " used in " ++ label ++
          " is not defined in contextDefinition") ∧
      (2 ≤ listed.length → error.message =
        "context variables [" ++ ",".intercalate listed ++ "] used in " ++ label ++
          " are not defined in contextDefinition") := by
  cases listed with
  | nil => exact absurd rfl h
  | cons first others =>
    refine ⟨_, rfl, rfl, fun name hname => ?_, fun hlength => ?_⟩
    · obtain ⟨rfl, rfl⟩ := List.cons.inj hname
      rfl
    · cases others with
      | nil => simp at hlength
      | cons second others => rfl

/-- The check of a script against a schema succeeds exactly if the schema declares all that the
script reads, and otherwise its message lists what is missing. So further declarations never make
it fail, and with those of the listed names it succeeds. -/
theorem usage_check_exact {code : String} {body : Body} (h : parseScript? code = some body)
    (schema : Schema) (label : String) :
    ∃ used listed, contextUsages code = .ok used ∧ Undeclared schema used listed ∧
      (checkUsages code schema label = .ok () ↔
        ∀ name ∈ used, Entries.has schema name = true) ∧
      (checkUsages code schema label ≠ .ok () → listed ≠ [] ∧
        ∃ error, checkUsages code schema label = .error error ∧ error.kind = .contextUsage ∧
          (∀ name, listed = [name] → error.message =
            "context variable " ++ Error.quoted name ++ " used in " ++ label ++
              " is not defined in contextDefinition") ∧
          (2 ≤ listed.length → error.message =
            "context variables [" ++ ",".intercalate listed ++ "] used in " ++ label ++
              " are not defined in contextDefinition")) ∧
      ∀ larger : Schema, (∀ name, Entries.has schema name = true → Entries.has larger name = true) →
        (checkUsages code schema label = .ok () → checkUsages code larger label = .ok ()) ∧
        ((∀ name ∈ listed, Entries.has larger name = true) →
          checkUsages code larger label = .ok ()) := by
  have hused : contextUsages code = .ok body.tree.usages := by
    unfold contextUsages
    rw [h]
  generalize body.tree.usages = used at hused
  have hlisted := undeclared_eraseDups schema used
  have hcheck := checkUsages_eq hused
  have hok (schema : Schema) : checkUsages code schema label = .ok () ↔
      ∀ name ∈ used, Entries.has schema name = true := by
    rw [hcheck, reportUndeclared_eq_ok, (undeclared_eraseDups schema used).eq_nil_iff]
  refine ⟨used, _, hused, hlisted, hok schema, fun hfails => ?_, fun larger hlarger =>
    ⟨fun hsucceeds => ?_, fun hnames => ?_⟩⟩
  · have hsome : (used.filter fun name => !Entries.has schema name).eraseDups ≠ [] := by
      rwa [ne_eq, hlisted.eq_nil_iff, ← hok]
    obtain ⟨error, herror, hmessage⟩ := reportUndeclared_error label hsome
    exact ⟨hsome, error, (hcheck schema label).trans herror, hmessage⟩
  · exact (hok larger).2 fun name hname => hlarger name ((hok schema).1 hsucceeds name hname)
  · refine (hok larger).2 fun name hname => ?_
    by_cases hdeclared : Entries.has schema name = true
    · exact hlarger name hdeclared
    · exact hnames name ((hlisted.mem name).2 ⟨hname, by simpa using hdeclared⟩)

/-- A script that reads one declared variable between two others, of which one is read twice. -/
def readingThree : String := "ctx.b+ctx.k+ctx.a+ctx.b"

/-- The message names the two, and a schema that declares them as well is enough. -/
theorem usage_check_exact_three :
    ∃ body, parseScript? readingThree = some body ∧
      Undeclared [("k", .ofDescription "K")] ["b", "k", "a", "b"] ["b", "a"] ∧
      (∃ error, checkUsages readingThree [("k", .ofDescription "K")] "404" = .error error ∧
        error.kind = .contextUsage ∧ error.message =
          "context variables [b,a] used in 404 are not defined in contextDefinition") ∧
      checkUsages readingThree [("a", .ofDescription "A"), ("k", .ofDescription "K"),
        ("b", .ofDescription "B")] "404" = .ok () := by
  have hread : (parseScript? readingThree).map (fun body => body.tree.usages) =
      some ["b", "k", "a", "b"] := by
    decide +kernel
  obtain ⟨body, hbody, husages⟩ := Option.map_eq_some_iff.1 hread
  obtain ⟨used, listed, hused, hlisted, hok, hfails, hlarger⟩ :=
    usage_check_exact hbody [("k", .ofDescription "K")] "404"
  have hcontext : contextUsages readingThree = .ok ["b", "k", "a", "b"] := by
    unfold contextUsages
    rw [hbody, ← husages]
  obtain rfl : ["b", "k", "a", "b"] = used := Except.ok.inj (hcontext.symm.trans hused)
  have hfirst : Undeclared [("k", .ofDescription "K")] ["b", "k", "a", "b"] ["b", "a"] :=
    undeclared_eraseDups _ _
  obtain rfl : listed = ["b", "a"] := hlisted.unique hfirst
  obtain ⟨-, error, herror, hkind, -, hseveral⟩ := hfails fun hsucceeds => by
    have hall := hok.1 hsucceeds
    revert hall
    decide
  refine ⟨body, hbody, hfirst, ⟨error, herror, hkind, hseveral (by decide)⟩, ?_⟩
  refine (hlarger _ fun name hname => ?_).2 (by decide)
  have hk : "k" = name := by
    by_contra hne
    simp [Entries.has, Entries.get?, hne] at hname
  rw [← hk]
  rfl

end Collector
