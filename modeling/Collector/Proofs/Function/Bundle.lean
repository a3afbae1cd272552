import Collector.Function.Bundle
import Collector.Proofs.Outcomes

/-!
# Bundles of functions in canonical form

The text of a function in canonical form ends with the brace of its body, so its helpers are
declared there: `normalize_eq_ok` and `bundle_eq`. Whether a bundle can be made depends on the
helpers only.
-/

namespace Collector

/-! ## Parts -/

namespace Canonical

theorem ofFunction_eq_ok {name : String} {f : Script.Function} {c : Canonical}
    (h : ofFunction name f = .ok c) : f.isAsync = false ∧ f.isGenerator = false ∧
      c = ⟨name, bareParameters f.paramsText, f.body.block⟩ := by
  unfold ofFunction at h
  split at h
  · cases h
  next hf =>
    obtain ⟨ha, hg⟩ := Bool.or_eq_false_iff.mp ((Bool.not_eq_true _).mp hf)
    exact ⟨ha, hg, (Except.ok.inj h).symm⟩

theorem ofArrow_eq_ok {name : String} {valueText : Option String} {f : Script.Function}
    {c : Canonical} (h : ofArrow name valueText f = .ok c) : f.isAsync = false ∧
      c = ⟨name, bareParameters f.paramsText, valueText.elim f.body.block answering⟩ := by
  unfold ofArrow at h
  split at h
  · cases h
  next hf =>
    refine ⟨(Bool.not_eq_true _).mp hf, ?_⟩
    cases valueText <;> exact (Except.ok.inj h).symm

theorem answering_eq (valueText : String) :
    answering valueText = "\x7b" ++ ("return (" ++ valueText ++ ");") ++ "\x7d" := by
  apply String.ext
  simp [answering]

/-- Where the parts of a function come from. -/
theorem ofSource_cases {name source : String} {c : Canonical} (h : ofSource name source = .ok c) :
    (∃ f, ofFunction name f = .ok c) ∨ ∃ valueText f, ofArrow name valueText f = .ok c := by
  unfold ofSource at h
  split at h
  · rename_i parts hparts
    obtain ⟨e, -, he⟩ := Option.bind_eq_some_iff.1 hparts
    unfold ofExpr? at he
    split at he
    · rename_i f _
      obtain rfl := Option.some.inj he
      exact .inl ⟨f, h⟩
    · rename_i valueText f _
      obtain rfl := Option.some.inj he
      exact .inr ⟨valueText, f, h⟩
    · cases he
  · split at h
    · rename_i f _
      exact .inl ⟨f, h⟩
    · cases h

theorem ofSource_name {name source : String} {c : Canonical} (h : ofSource name source = .ok c) :
    c.name = name := by
  rcases ofSource_cases h with ⟨f, hf⟩ | ⟨valueText, f, hf⟩
  · obtain ⟨-, -, rfl⟩ := ofFunction_eq_ok hf
    rfl
  · obtain ⟨-, rfl⟩ := ofArrow_eq_ok hf
    rfl

/-- A body stands in braces. -/
theorem ofSource_body {name source : String} {c : Canonical} (h : ofSource name source = .ok c) :
    ∃ inside, c.body = "\x7b" ++ inside ++ "\x7d" := by
  rcases ofSource_cases h with ⟨f, hf⟩ | ⟨valueText, f, hf⟩
  · obtain ⟨-, -, rfl⟩ := ofFunction_eq_ok hf
    exact ⟨_, rfl⟩
  · obtain ⟨-, rfl⟩ := ofArrow_eq_ok hf
    cases valueText with
    | none => exact ⟨_, rfl⟩
    | some text => exact ⟨_, answering_eq text⟩

end Canonical

/-- The canonical form of a function is the text of its parts, and it reads as one declaration. -/
theorem normalize_eq_ok {code name canonical : String} (h : normalize code name = .ok canonical) :
    ∃ params inside, canonical =
        (⟨name, params, "\x7b" ++ inside ++ "\x7d"⟩ : Canonical).text ∧
      isDeclarationOf name canonical = true := by
  unfold normalize at h
  split at h
  · cases h
  · obtain ⟨c, hc, h⟩ := Outcome.bind_eq_ok.1 h
    split at h
    · rename_i hdeclares
      cases h
      obtain ⟨inside, hbody⟩ := Canonical.ofSource_body hc
      refine ⟨c.params, inside, ?_, hdeclares⟩
      rw [← Canonical.ofSource_name hc, ← hbody]
    · cases h

/-- The canonical form of a function up to the brace that closes its body. -/
theorem exists_front_of_normalize {code name canonical : String}
    (h : normalize code name = .ok canonical) : ∃ front, canonical = front ++ "\x7d" := by
  obtain ⟨params, inside, rfl, -⟩ := normalize_eq_ok h
  refine ⟨"function " ++ name ++ "(" ++ params ++ ")" ++ ("\x7b" ++ inside), ?_⟩
  simp only [Canonical.text, String.append_assoc]

/-! ## Declarations at the end of a body -/

theorem splitLastBrace_append (front : List Char) :
    splitLastBrace (front ++ ['\x7d']) = some (front, ['\x7d']) := by
  unfold splitLastBrace
  rw [List.reverse_append]
  simp

/-- Helpers are declared at the end of a body, whatever function it belongs to. -/
theorem bundle_eq (front : String) (helpers : Entries Export) :
    bundle (front ++ "\x7d") helpers =
      (declarations helpers).map fun texts => front ++ texts ++ "\x7d" := by
  unfold bundle
  rw [String.toList_append, show "\x7d".toList = ['\x7d'] from rfl, splitLastBrace_append]
  cases helpers with
  | nil => simp [declarations, Except.map]
  | cons helper rest =>
    cases declarations (helper :: rest) with
    | error error => rfl
    | ok texts =>
      show Except.ok (String.ofList front.toList ++ texts ++ "\x7d") = _
      rw [String.ofList_toList]
      rfl

end Collector
