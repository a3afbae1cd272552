import Collector.Proofs.Function.Bundle
import Collector.Proofs.Script.Forms
import Collector.Proofs.Text.Parentheses

/-!
# What a canonical form declares

The parts of a function are cut out of its source and put together under another name. The text
that comes out is read again, as one declaration: of the parameters and the statements that were
read in the source (`normalize_declares`).
-/

namespace Collector

open Script Text

/-! ## The parts -/

namespace Canonical

/-- A parameter list loses its own parentheses, where they are found to close each other, or keeps
them. -/
theorem bareParameters_list {text : String} {inner : List Char}
    (h : text.toList = '(' :: inner ++ [')']) :
    bareParameters text = String.ofList inner ∧
        splitBalanced 0 (inner ++ [')']) = some (inner, []) ∨
      bareParameters text = text ∧ splitBalanced 0 (inner ++ [')']) ≠ some (inner, []) := by
  have htrim : trim text.toList = text.toList := by
    have hends : '(' :: (inner ++ [')']) = ('(' :: inner) ++ [')'] := rfl
    rw [h]
    exact trim_of_ends (by decide) (by decide) hends
  unfold bareParameters
  rw [htrim, h, List.cons_append]
  dsimp only
  split
  next rest hrest =>
    obtain rfl := (List.cons.inj hrest).2
    split
    next inside hs =>
      left
      obtain rfl := List.append_cancel_right (splitBalanced_eq_some_iff.mp hs).1
      exact ⟨rfl, hs⟩
    next hs =>
      right
      exact ⟨by rw [← List.cons_append, ← h, String.ofList_toList], hs inner⟩
  next hopen => exact (hopen _ rfl).elim

/-- A single name has no parentheses to lose. -/
theorem bareParameters_name {text : String} {first : Char} {rest : List Char}
    (h : text.toList = first :: rest) (hf : first = '\\' ∨ isIdentifierStart first = true)
    (hs : Solid (first :: rest)) : bareParameters text = text := by
  have hne : first ≠ '(' := by
    rintro rfl
    revert hf
    decide
  unfold bareParameters
  rw [h, trim_of_solid hs]
  dsimp only
  split
  next heq => exact (hne (List.cons.inj heq).1).elim
  · rw [← h, String.ofList_toList]

/-! ## The function that a source is -/

/-- The function that an expression is, perhaps in parentheses. -/
def functionOf? (e : Expr) : Option Function :=
  match e.withoutParens with
  | .function f => some f
  | .arrow _ f => some f
  | _ => none

/-- The function that a text without blanks around it is: an expression, or else a method. -/
def denoted? (source : String) : Option Function :=
  match (parseExpression? source).bind functionOf? with
  | some f => some f
  | none => (parseExpression? ("\x7b" ++ source ++ "\x7d")).bind soleMethod?

theorem ofExpr?_none {name : String} {e : Expr} (h : ofExpr? name e = none) :
    functionOf? e = none := by
  unfold ofExpr? at h
  unfold functionOf?
  generalize e.withoutParens = inner at h ⊢
  cases inner with
  | function f => cases h
  | arrow valueText f => cases h
  | _ => rfl

/-- The parts of a source are those of the function that it is. -/
theorem exists_written_of_ofSource {name source : String} {c : Canonical}
    (h : ofSource name source = .ok c) : ∃ f valueText, denoted? source = some f ∧
      f.Written valueText ∧
      c = ⟨name, bareParameters f.paramsText, valueText.elim f.body.block answering⟩ := by
  unfold ofSource at h
  split at h
  next parts hparts =>
    obtain ⟨e, he, hp⟩ := Option.bind_eq_some_iff.mp hparts
    unfold ofExpr? at hp
    split at hp
    next f hf =>
      obtain rfl := Option.some.inj hp
      obtain ⟨ha, hg, rfl⟩ := ofFunction_eq_ok h
      obtain ⟨fuel, level, d, d', hd⟩ :=
        exists_assignment_of_parseExpression? he (by simp [hf])
      rw [hf] at hd
      refine ⟨f, none, ?_, written_of_functionExpression hd ha hg, rfl⟩
      simp [denoted?, he, functionOf?, hf]
    next valueText f hf =>
      obtain rfl := Option.some.inj hp
      obtain ⟨ha, rfl⟩ := ofArrow_eq_ok h
      obtain ⟨fuel, level, d, d', hd⟩ :=
        exists_assignment_of_parseExpression? he (by simp [hf])
      rw [hf] at hd
      refine ⟨f, valueText, ?_, written_of_arrow hd ha, rfl⟩
      simp [denoted?, he, functionOf?, hf]
    · cases hp
  next hnone =>
    split at h
    next f hf =>
      obtain ⟨e, he, hm⟩ := Option.bind_eq_some_iff.mp hf
      unfold soleMethod? at hm
      split at hm
      next key f' text comma ho =>
        obtain rfl := Option.some.inj hm
        obtain ⟨ha, hg, rfl⟩ := ofFunction_eq_ok h
        obtain ⟨fuel, level, d, d', hd⟩ :=
          exists_assignment_of_parseExpression? he (by simp [ho])
        rw [ho] at hd
        refine ⟨f', none, ?_, written_of_method hd ha hg, rfl⟩
        have hdenoted : (parseExpression? source).bind functionOf? = none :=
          Option.bind_eq_none_iff.mpr fun e he =>
            ofExpr?_none (Option.bind_eq_none_iff.mp hnone e he)
        unfold denoted?
        rw [hdenoted]
        exact hf
      · cases hm
    · cases h

end Canonical

/-! ## The declaration -/

/-- The function that a text declares, if it declares nothing else. -/
def declared? (text : String) : Option Function :=
  match (parseScript? text).map Body.statements with
  | some [.function f] => some f
  | _ => none

/-- How a body stands in a canonical form: as it is, or as the answer of a value. -/
inductive Recast : Body → Body → Prop
  | same (body : Body) : Recast body body
  | answer (text : String) (value : Expr) :
    Recast ⟨[⟨"", text, .expression value⟩], ""⟩
      ⟨[⟨"", "return (" ++ text ++ ");", .return [.paren text value]⟩], ""⟩

theorem exists_recast {valueText : Option String} {body : Body} (h : WritesBody valueText body) :
    ∃ body', Recast body body' ∧ ReadsBody body' ∧
      body'.block = valueText.elim body.block Canonical.answering := by
  cases h with
  | block h => exact ⟨body, .same body, h, rfl⟩
  | @value text value h =>
    refine ⟨_, .answer text value, readsBody_answering h, ?_⟩
    rw [Option.elim_some, Canonical.answering_eq]
    simp [Body.block, Body.source, Item.source, String.join]

/-- The parameters of a text that reads as a declaration. -/
theorem readsParameters_of_declared {name : String} {params : List Pattern} {text : String}
    {tail : List Char} {fuel level : Nat} {f : Function} {c : Cursor}
    (h : WritesParameters params text)
    (hf : (grammar fuel level).functionRest false false (some name)
      (declarationText name ((Canonical.bareParameters text).toList ++ ')' :: tail))
      (.front .inside ('(' :: ((Canonical.bareParameters text).toList ++ ')' :: tail))) =
        some (f, c)) :
    ReadsParameters params ("(" ++ Canonical.bareParameters text ++ ")") := by
  cases h with
  | list hinner hr =>
    obtain ⟨inner, hinner⟩ := hinner
    rcases Canonical.bareParameters_list hinner with ⟨hb, -⟩ | ⟨hb, -⟩
    · have hsame : "(" ++ Canonical.bareParameters text ++ ")" = text := by
        apply String.toList_injective
        rw [hb, hinner]
        simp
      rwa [hsame]
    · -- With its parentheses kept, the list begins with two of them.
      rw [hb, hinner, List.cons_append, List.cons_append] at hf
      obtain ⟨ps, t, c₁, body, hp, -⟩ := Grammar.functionRest_eq_some.mp hf
      cases parameters_doubled.symm.trans hp
  | single id hp h hr =>
    obtain ⟨first, rest, ht, hfirst, hs⟩ := h
    rw [Canonical.bareParameters_name ht hfirst hs, hp]
    exact readsParameters_single hr

theorem exists_parse_of_isDeclarationOf {name text : String}
    (h : isDeclarationOf name text = true) : ∃ body f, parseScript? text = some body ∧
      body.statements = [.function f] ∧ f.name = some name := by
  unfold isDeclarationOf at h
  split at h
  next f hf =>
    obtain ⟨body, hbody, hs⟩ := Option.map_eq_some_iff.mp hf
    exact ⟨body, f, hbody, hs, by simpa using h⟩
  · cases h

/-- A canonical form declares a function that its text, read again, declares. -/
theorem Script.Function.Portable.declared?_eq {f : Function} {code name other : String}
    (h : f.Portable name) (hn : normalize code other = .ok f.source) :
    declared? f.source = some f := by
  obtain ⟨_, _, -, hdeclares⟩ := normalize_eq_ok hn
  obtain ⟨body, g, hbody, -⟩ := exists_parse_of_isDeclarationOf hdeclares
  obtain ⟨rfl, -⟩ := h.parseScript_eq hbody
  unfold declared?
  rw [hbody]
  rfl

/-- Nothing is pending in what a canonical form declares. -/
theorem Script.Function.Portable.isPending_eq {d : Function} {code name other : String}
    (h : d.Portable name) (hn : normalize code other = .ok d.source) :
    d.tree.isPending = false := by
  obtain ⟨_, _, -, hdeclares⟩ := normalize_eq_ok hn
  obtain ⟨body, f, hbody, -⟩ := exists_parse_of_isDeclarationOf hdeclares
  exact (h.parseScript_eq hbody).2

theorem Canonical.toList_text (c : Canonical) :
    c.text.toList = declarationText c.name (c.params.toList ++ ')' :: c.body.toList) := by
  have hword : "function ".toList = "function".toList ++ [' '] := by decide
  unfold Canonical.text declarationText
  simp only [String.toList_append, hword, List.append_assoc]
  rfl

/-- Parts that are read wherever they stand, put together as a declaration. -/
theorem exists_portable_of_reads {name inner : String} {params : List Pattern} {body : Body}
    (hname : IsWord name) (hfree : reservedWords.contains name = false)
    (hp : ReadsParameters params ("(" ++ inner ++ ")")) (hb : ReadsBody body) :
    ∃ d : Function, d.Portable name ∧ d.source = Canonical.text ⟨name, inner, body.block⟩ ∧
      d.params = params ∧ d.paramsText = "(" ++ inner ++ ")" ∧ d.body = body := by
  have hinner : ∃ text, ("(" ++ inner ++ ")").toList = '(' :: text ++ [')'] :=
    ⟨inner.toList, by simp⟩
  refine ⟨⟨false, false, some name, "function " ++ name, params, "(" ++ inner ++ ")", "",
    body.items, body.tail⟩, ⟨rfl, rfl, rfl, rfl, rfl, hname, hfree, hinner, hp, hb⟩, ?_, rfl, rfl,
    rfl⟩
  unfold Function.source Canonical.text
  simp only [String.append_assoc, String.empty_append]
  rfl

/-- Parts that were read, put together as a declaration. -/
theorem exists_portable {name paramsText : String} {params : List Pattern} {body : Body}
    (hname : IsWord name) (hp : WritesParameters params paramsText)
    (hb : ReadsBody body)
    (hd : isDeclarationOf name
      (Canonical.text ⟨name, Canonical.bareParameters paramsText, body.block⟩) = true) :
    ∃ d : Function, d.Portable name ∧
      d.source = Canonical.text ⟨name, Canonical.bareParameters paramsText, body.block⟩ ∧
      d.params = params ∧ d.paramsText = "(" ++ Canonical.bareParameters paramsText ++ ")" ∧
      d.body = body := by
  obtain ⟨parsed, -, hparsed, -⟩ := exists_parse_of_isDeclarationOf hd
  obtain ⟨hfree, fuel, level, f, c, hf⟩ :=
    exists_functionRest hname
      (Canonical.toList_text ⟨name, Canonical.bareParameters paramsText, body.block⟩) hparsed
  exact exists_portable_of_reads hname hfree (readsParameters_of_declared hp hf) hb

/-- A canonical form declares a function with the parameters and the statements of its source. -/
theorem normalize_declares {code name text : String} (h : normalize code name = .ok text) :
    ∃ f d : Function, Canonical.denoted? (Canonical.trimmed code) = some f ∧ d.Portable name ∧
      d.source = text ∧ d.params = f.params ∧ Recast f.body d.body := by
  unfold normalize at h
  split at h
  · cases h
  next hname =>
    obtain ⟨c, hc, h⟩ := Outcome.bind_eq_ok.1 h
    obtain ⟨f, valueText, hdenoted, ⟨hparams, hbody⟩, rfl⟩ := Canonical.exists_written_of_ofSource hc
    obtain ⟨body, hrecast, hreads, hblock⟩ := exists_recast hbody
    rw [← hblock] at h
    split at h
    next hdeclares =>
      obtain rfl := Except.ok.inj h
      obtain ⟨d, hportable, hsource, hparams, -, rfl⟩ :=
        exists_portable (.of_plain (by simpa using hname)) hparams hreads hdeclares
      exact ⟨f, d, hdenoted, hportable, hsource, hparams, hrecast⟩
    · cases h

end Collector
