import Collector.Proofs.Export.Sources

/-!
# Exported functions in canonical form

A function that a module exports is read three times: in the module, on its own to take it apart,
and as the declaration that its parts make under a name. The three agree
(`exported_functions_normalize`). An async function or a generator is refused. Of any other the
parts come out if the count of parentheses finds the end of its parameter list
(`Function.Between`), and then the declaration has the parameters and the statements that were read
in the module (`Function.Restated`).
-/

namespace Collector

open Script Text

namespace Script.Function

/-! ## Parameter lists without their parentheses -/

/-- The text between the outer parentheses of a parameter list. A list without parentheses is a
single name; in any other the first parenthesis is closed by the last character, as the count of
parentheses has it. -/
inductive Between (f : Function) : String → Prop
  | name {id : String} (hp : f.params = [.bind id]) (hn : f.paramsText.toList.head? ≠ some '(') :
      Between f f.paramsText
  | list {inner : String} (ht : f.paramsText = "(" ++ inner ++ ")")
      (hs : splitBalanced 0 (inner.toList ++ [')']) = some (inner.toList, [])) : Between f inner

/-- A parameter list that is written loses its parentheses and is read without them, or it keeps
them, and then the count has not found its end. -/
theorem between_or_kept {f : Function} (h : WritesParameters f.params f.paramsText) :
    (∃ inner, f.Between inner ∧ Canonical.bareParameters f.paramsText = inner ∧
        ReadsParameters f.params ("(" ++ inner ++ ")")) ∨
      (∃ inner, Canonical.bareParameters f.paramsText = "(" ++ inner ++ ")") ∧
        ¬ ∃ inner, f.Between inner := by
  cases h with
  | list hinner hr =>
    obtain ⟨inner, hinner⟩ := hinner
    have htext : f.paramsText = "(" ++ String.ofList inner ++ ")" := by
      apply String.toList_injective
      simp [hinner]
    rcases Canonical.bareParameters_list hinner with ⟨hb, hs⟩ | ⟨hb, hs⟩
    · exact .inl ⟨String.ofList inner, .list htext (by simpa using hs), hb, htext ▸ hr⟩
    · refine .inr ⟨⟨String.ofList inner, hb.trans htext⟩, ?_⟩
      rintro ⟨other, hother⟩
      cases hother with
      | name _ hn => exact hn (by simp [hinner])
      | list ht hs' =>
        have hsame : inner = other.toList := by
          rw [ht] at hinner
          simpa using hinner.symm
        exact hs (hsame ▸ hs')
  | single id hp h hr =>
    obtain ⟨first, rest, ht, hfirst, hs⟩ := h
    have hopen : first ≠ '(' := by
      rintro rfl
      revert hfirst
      decide
    refine .inl ⟨f.paramsText, .name hp (by simp [ht, hopen]),
      Canonical.bareParameters_name ht hfirst hs, ?_⟩
    rw [hp]
    exact readsParameters_single hr

/-! ## Declarations of what functions are -/

/-- The body of a declaration: that of the function, or the answer of its value. -/
inductive RestatesBody : Option String → Body → Body → Prop
  | block (body : Body) : RestatesBody none body body
  | value (text : String) (value : Expr) :
      RestatesBody (some text) ⟨[⟨"", text, .expression value⟩], ""⟩
        ⟨[⟨"", "return (" ++ text ++ ");", .return [.paren text value]⟩], ""⟩

/-- A function is declared under a name with its own parameters and statements. -/
structure Restated (f : Function) (valueText : Option String) (name : String) (d : Function) :
    Prop where
  named : d.name = some name
  isAsync : d.isAsync = false
  isGenerator : d.isGenerator = false
  params : d.params = f.params
  body : RestatesBody valueText f.body d.body

theorem exists_restated_body {valueText : Option String} {body : Body}
    (h : WritesBody valueText body) (hp : body.tree.isPending = false) :
    ∃ body', RestatesBody valueText body body' ∧ ReadsBody body' ∧ body'.tree.isPending = false ∧
      body'.block = valueText.elim body.block Canonical.answering := by
  cases h with
  | block h => exact ⟨body, .block body, h, hp, rfl⟩
  | @value text value h =>
    refine ⟨_, .value text value, readsBody_answering h, ?_, ?_⟩
    · have htree : (Statement.expression value).tree = .node .other [value.tree] := rfl
      have htree' : (Statement.return [.paren text value]).tree =
          .node .other [.node .paren [value.tree]] := rfl
      rw [isPending_body] at hp ⊢
      simpa [htree, htree', Tree.isPending_other, Tree.isPending_paren] using hp
    · rw [Option.elim_some, Canonical.answering_eq]
      simp [Body.block, Body.source, Item.source, String.join]

/-- Nothing is pending in a function if nothing is in its parameters and in its body. -/
theorem isPending_eq_or (f : Function) : f.tree.isPending =
    ((patternTrees f.params).any Tree.isPending || f.body.tree.isPending) := by
  rw [isPending_function, isPending_body]
  rfl

variable {f : Function} {valueText : Option String} {name : String}

/-- The parts of a function that is written, with a parameter list that is read, make a declaration
of it. -/
theorem Written.exists_restated (h : f.Written valueText) (hp : f.tree.isPending = false)
    (hname : IsWord name) (hfree : reservedWords.contains name = false) {inner text : String}
    (hinner : ReadsParameters f.params ("(" ++ inner ++ ")"))
    (ht : text = Canonical.text ⟨name, inner, valueText.elim f.body.block Canonical.answering⟩) :
    ∃ d, parseScript? text = some ⟨[⟨"", text, .function d⟩], ""⟩ ∧
      f.Restated valueText name d := by
  rw [isPending_eq_or, Bool.or_eq_false_iff] at hp
  obtain ⟨body, hrestates, hreads, hbody, hblock⟩ := exists_restated_body h.body hp.2
  obtain ⟨d, hd, hsource, hparams, -, rfl⟩ := exists_portable_of_reads hname hfree hinner hreads
  have hpending : d.tree.isPending = false := by
    rw [isPending_eq_or, hparams, hp.1, hbody]
    rfl
  have hparse := hd.declaresOnly.parseScript?_eq hpending
  rw [hsource, hblock, ← ht] at hparse
  exact ⟨d, hparse, hd.named, hd.isAsync, hd.isGenerator, hparams, hrestates⟩

end Script.Function

/-! ## The canonical form -/

theorem not_isDeclarationOf_doubled {name inner block : String} (hname : IsWord name) :
    isDeclarationOf name (Canonical.text ⟨name, "(" ++ inner ++ ")", block⟩) = false := by
  refine Bool.eq_false_iff.mpr fun h => ?_
  obtain ⟨body, -, hbody, -⟩ := exists_parse_of_isDeclarationOf h
  obtain ⟨-, fuel, level, f, c, hf⟩ :=
    exists_functionRest hname (Canonical.toList_text ⟨name, "(" ++ inner ++ ")", block⟩) hbody
  obtain ⟨_, _, _, _, hp, -⟩ := Grammar.functionRest_eq_some.mp hf
  have hdoubled : '(' :: (("(" ++ inner ++ ")").toList ++ ')' :: block.toList) =
      '(' :: '(' :: (inner.toList ++ [')'] ++ ')' :: block.toList) := by
    simp
  rw [hdoubled] at hp
  cases parameters_doubled.symm.trans hp

/-- A name that can be declared is not reserved. -/
theorem not_reserved_of_isDeclarationOf {name : String} (hname : IsWord name)
    (h : isDeclarationOf name ("function " ++ name ++ "()\x7b\x7d") = true) :
    reservedWords.contains name = false := by
  obtain ⟨body, -, hbody, -⟩ := exists_parse_of_isDeclarationOf h
  have htext : "function " ++ name ++ "()\x7b\x7d" = Canonical.text ⟨name, "", "\x7b\x7d"⟩ := by
    apply String.toList_injective
    simp [Canonical.text]
  exact (exists_functionRest hname (htext ▸ Canonical.toList_text _) hbody).1

/-- How a function with a given source comes into canonical form under a name. -/
structure NormalizesAs (source name : String) (valueText : Option String) (f : Function) :
    Prop where
  /-- Async functions and generators are refused as such, and no others are. -/
  refused : normalize source name = .error (.asyncOrGenerator name) ∨
    normalize source name = .error (.asyncArrow name) ↔ (f.isAsync || f.isGenerator) = true
  /-- Of the others those succeed in whose parameter list the count finds the end. -/
  succeeds : (f.isAsync || f.isGenerator) = false →
    ((∃ text, normalize source name = .ok text) ↔ ∃ inner, f.Between inner)
  /-- What comes out has the parts that stand in the source, and declares the function. -/
  result : ∀ text, normalize source name = .ok text → ∃ inner before gap d,
    f.Between inner ∧
    source = before ++ f.paramsText ++ gap ++ valueText.elim f.body.block id ∧
    text = "function " ++ name ++ "(" ++ inner ++ ")" ++
      valueText.elim f.body.block (fun value => "\x7breturn (" ++ value ++ ");\x7d") ∧
    parseScript? text = some ⟨[⟨"", text, .function d⟩], ""⟩ ∧ f.Restated valueText name d

section Normalize

variable {f : Function} {source name : String} {valueText : Option String}

theorem normalize_of_plain (h : f.Sourced source valueText) (hn : isPlainName name = true) :
    normalize source name = Canonical.ofSource name source >>= fun c =>
      if isDeclarationOf name c.text then .ok c.text else .error (.notAFunctionForm name) := by
  unfold normalize
  rw [h.trimmed_eq, hn]
  rfl

/-- The parts of a source, put together, are what comes out, if they declare a function. -/
theorem normalize_of_parts (h : f.Sourced source valueText) (hn : isPlainName name = true)
    (hf : (f.isAsync || f.isGenerator) = false) {text : String}
    (ht : text = Canonical.text ⟨name, Canonical.bareParameters f.paramsText,
      valueText.elim f.body.block Canonical.answering⟩) :
    normalize source name =
      if isDeclarationOf name text then .ok text else .error (.notAFunctionForm name) := by
  rw [normalize_of_plain h hn, h.ofSource_parts hf, ht]
  rfl

/-- A function that was read in a script comes into canonical form as what it was read. -/
theorem normalizesAs_of_sourced (h : f.Sourced source valueText) (hn : isPlainName name = true)
    (hfree : reservedWords.contains name = false) : NormalizesAs source name valueText f := by
  have hname : IsWord name := .of_plain hn
  cases hf : f.isAsync || f.isGenerator with
  | true =>
    have hrefused : normalize source name = .error (.asyncOrGenerator name) ∨
        normalize source name = .error (.asyncArrow name) := by
      rw [normalize_of_plain h hn]
      rcases h.ofSource_refused hf name with hs | hs
      · exact .inl (by rw [hs]; rfl)
      · exact .inr (by rw [hs]; rfl)
    refine ⟨iff_of_true hrefused hf, fun hf' => ?_, fun text ht => ?_⟩
    · cases hf.symm.trans hf'
    · rcases hrefused with hr | hr <;> cases hr.symm.trans ht
  | false =>
    have hwritten := h.written hf
    have hparts := normalize_of_parts h hn hf rfl
    generalize htext : Canonical.text ⟨name, Canonical.bareParameters f.paramsText,
      valueText.elim f.body.block Canonical.answering⟩ = text at hparts
    have hrefused : ¬ (normalize source name = .error (.asyncOrGenerator name) ∨
        normalize source name = .error (.asyncArrow name)) := by
      rw [hparts]
      split <;> simp
    rcases Function.between_or_kept hwritten.params with
      ⟨inner, hbetween, hbare, hinner⟩ | ⟨⟨inner, hbare⟩, hnone⟩
    · rw [hbare] at htext
      obtain ⟨d, hparse, hd⟩ :=
        hwritten.exists_restated h.isPending_eq hname hfree hinner htext.symm
      have hdeclares : isDeclarationOf name text = true := by
        unfold isDeclarationOf
        rw [hparse]
        simp [Body.statements, Statement.isDirective, hd.named]
      rw [hdeclares, if_pos rfl] at hparts
      refine ⟨iff_of_false hrefused (by simp [hf]), fun _ => ?_, fun text' ht => ?_⟩
      · exact iff_of_true ⟨text, hparts⟩ ⟨inner, hbetween⟩
      · obtain rfl := Except.ok.inj (hparts.symm.trans ht)
        obtain ⟨before, gap, hsource⟩ := h.exists_split (Bool.or_eq_false_iff.mp hf).1
        exact ⟨inner, before, gap, d, hbetween, hsource, htext.symm, hparse, hd⟩
    · rw [← htext, hbare, not_isDeclarationOf_doubled hname, if_neg Bool.false_ne_true] at hparts
      refine ⟨iff_of_false hrefused (by simp [hf]), fun _ => ?_, fun text' ht => ?_⟩
      · refine iff_of_false ?_ hnone
        rintro ⟨text', ht⟩
        cases hparts.symm.trans ht
      · cases hparts.symm.trans ht

end Normalize

/-- Every function that a module exports comes into canonical form as what it is in the module. -/
theorem exported_functions_normalize {module source name : String} {exports : Exports}
    (h : Exports.ofSource module = .ok exports)
    (hs : (Export.function source).Inside (.object exports)) (hn : isPlainName name = true)
    (hd : isDeclarationOf name ("function " ++ name ++ "()\x7b\x7d") = true) :
    (∃ valueText f, ExportsFunction module source valueText f) ∧
      ∀ valueText f, ExportsFunction module source valueText f →
        NormalizesAs source name valueText f := by
  have hfree := not_reserved_of_isDeclarationOf (.of_plain hn) hd
  exact ⟨exists_exportsFunction h hs, fun _ _ hf => normalizesAs_of_sourced hf.sourced hn hfree⟩

/-- A method in an object, with the name that functions have as a keyword. -/
def methodSource : String :=
  "module.exports = \x7b a: \x7b function(s, t = '()') \x7b return s \x7d \x7d \x7d"

/-- Read as an expression, the text of the method is a function expression. -/
theorem exported_functions_normalize_method :
    ∃ exports, Exports.ofSource methodSource = .ok exports ∧
      (Export.function "function(s, t = '()') \x7b return s \x7d").Inside (.object exports) ∧
      isPlainName "f" = true ∧
      isDeclarationOf "f" ("function " ++ "f" ++ "()\x7b\x7d") = true ∧
      (∃ valueText f, ExportsFunction methodSource
        "function(s, t = '()') \x7b return s \x7d" valueText f) ∧
      ∀ valueText f, ExportsFunction methodSource
          "function(s, t = '()') \x7b return s \x7d" valueText f →
        NormalizesAs "function(s, t = '()') \x7b return s \x7d" "f" valueText f := by
  have hread : ((Exports.ofSource methodSource).toOption.bind fun exports =>
      ((Entries.get? exports "a").bind Export.object?).bind fun inner =>
        (Entries.get? inner "function").bind Export.function?) =
      some "function(s, t = '()') \x7b return s \x7d" := by
    decide +kernel
  obtain ⟨exports, hfound, hread⟩ := Option.bind_eq_some_iff.1 hread
  obtain ⟨inner, hinner, hread⟩ := Option.bind_eq_some_iff.1 hread
  obtain ⟨value, hvalue, hinner⟩ := Option.bind_eq_some_iff.1 hinner
  obtain ⟨method, hmethod, hread⟩ := Option.bind_eq_some_iff.1 hread
  cases value <;> cases hinner
  cases method <;> cases hread
  have hsource := Outcome.eq_ok_of_toOption hfound
  have hinside : Export.Inside (.function _) (.object exports) :=
    .entry (Entries.mem_of_get? hvalue) (.entry (Entries.mem_of_get? hmethod) .self)
  have hname : isPlainName "f" = true := by decide
  have hdeclares : isDeclarationOf "f" ("function " ++ "f" ++ "()\x7b\x7d") = true := by
    decide +kernel
  obtain ⟨hexists, hnormalizes⟩ := exported_functions_normalize hsource hinside hname hdeclares
  exact ⟨exports, hsource, hinside, hname, hdeclares, hexists, hnormalizes⟩

end Collector
