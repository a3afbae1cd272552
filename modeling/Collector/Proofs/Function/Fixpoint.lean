import Collector.Proofs.Function.Parameters
import Collector.Proofs.Script.Rereading

/-!
# Canonical forms of canonical forms

A canonical form is the text of a function expression, and its parts are cut out of it again as they
were put in: the count of parentheses ends with the parameter list, and no blanks stand at the ends.
So a second canonical form is the one that the source has under the second name:
`normalize_canonical`.
-/

namespace Collector

open Script Text

namespace Canonical

/-! ## Names -/

section Names

variable {name source : String} {c : Canonical} (other : String)

/-- The same parts under another name. -/
def named (c : Canonical) : Canonical := { c with name := other }

theorem ofFunction_named {f : Function} (h : ofFunction name f = .ok c) :
    ofFunction other f = .ok (c.named other) := by
  obtain ⟨ha, hg, rfl⟩ := ofFunction_eq_ok h
  unfold ofFunction
  rw [ha, hg]
  rfl

theorem ofArrow_named {valueText : Option String} {f : Function}
    (h : ofArrow name valueText f = .ok c) : ofArrow other valueText f = .ok (c.named other) := by
  obtain ⟨ha, rfl⟩ := ofArrow_eq_ok h
  unfold ofArrow
  rw [ha]
  cases valueText <;> rfl

/-- Which expressions have parts does not depend on the name. -/
theorem ofExpr?_named {e : Expr} :
    (ofExpr? name e = none ∧ ofExpr? other e = none) ∨
      ∃ parts parts', ofExpr? name e = some parts ∧ ofExpr? other e = some parts' ∧
        ∀ c, parts = .ok c → parts' = .ok (c.named other) := by
  unfold ofExpr?
  generalize e.withoutParens = inner
  cases inner with
  | function f => exact .inr ⟨_, _, rfl, rfl, fun _ => ofFunction_named other⟩
  | arrow valueText f => exact .inr ⟨_, _, rfl, rfl, fun _ => ofArrow_named other⟩
  | _ => exact .inl ⟨rfl, rfl⟩

/-- The parts of a source under another name. -/
theorem ofSource_named (h : ofSource name source = .ok c) :
    ofSource other source = .ok (c.named other) := by
  have hcases : ((parseExpression? source).bind (ofExpr? name) = none ∧
        (parseExpression? source).bind (ofExpr? other) = none) ∨
      ∃ parts parts', (parseExpression? source).bind (ofExpr? name) = some parts ∧
        (parseExpression? source).bind (ofExpr? other) = some parts' ∧
        ∀ c, parts = .ok c → parts' = .ok (c.named other) := by
    cases parseExpression? source with
    | none => exact .inl ⟨rfl, rfl⟩
    | some e => exact ofExpr?_named other
  unfold ofSource at h ⊢
  obtain ⟨hnone, hnone'⟩ | ⟨parts, parts', hparts, hparts', hsame⟩ := hcases
  · rw [hnone] at h
    rw [hnone']
    dsimp only at h ⊢
    split at h
    next f hf => exact ofFunction_named other h
    · cases h
  · rw [hparts] at h
    rw [hparts']
    exact hsame c h

end Names

/-! ## The parts of a canonical form -/

/-- Parentheses that close each other are taken off. -/
theorem bareParameters_balanced {params : String} (h : Balanced params.toList) :
    bareParameters ("(" ++ params ++ ")") = params := by
  have htext : ("(" ++ params ++ ")").toList = '(' :: params.toList ++ [')'] := by simp
  have hscan : splitBalanced 0 (params.toList ++ [')']) = some (params.toList, []) := h []
  have htrim : trim ("(" ++ params ++ ")").toList = '(' :: (params.toList ++ [')']) := by
    have hends : '(' :: (params.toList ++ [')']) = ('(' :: params.toList) ++ [')'] := rfl
    rw [htext]
    exact trim_of_ends (by decide) (by decide) hends
  unfold bareParameters
  rw [htrim]
  simp only [hscan, String.ofList_toList]

namespace Declares

variable {c : Canonical} {d : Function} (h : c.Declares d)

include h

theorem trimmed_text : trimmed c.text = c.text := by
  have hfront : c.text.toList =
      'f' :: ("unction ".toList ++ (c.name ++ d.paramsText ++ d.body.block).toList) := by
    rw [← h.source_eq, h.portable.source_eq]
    simp
  obtain ⟨front, hback⟩ : ∃ front, c.text.toList = front ++ ['\x7d'] := by
    rw [← h.source_eq, h.portable.source_eq]
    exact ⟨"function ".toList ++ (c.name.toList ++ (d.paramsText.toList ++
      '\x7b' :: d.body.source.toList)), by simp [Body.block]⟩
  unfold trimmed
  rw [hfront, trim_of_ends (by decide) (by decide) (hfront.symm.trans hback), ← hfront,
    String.ofList_toList]

/-- The parts of a canonical form, cut out again under any name. -/
theorem ofSource_text (hpending : d.tree.isPending = false) (name : String) :
    ofSource name c.text = .ok (c.named name) := by
  have hparse : parseExpression? c.text = some (.function d) := by
    rw [← h.source_eq]
    exact h.portable.parseExpression?_eq hpending
  have hparts : ofFunction name d = .ok (c.named name) := by
    unfold ofFunction
    rw [h.portable.isAsync, h.portable.isGenerator, h.paramsText,
      bareParameters_balanced h.balanced, h.block]
    rfl
  unfold ofSource
  rw [hparse]
  exact hparts

end Declares

end Canonical

/-- The canonical form of a canonical form under a name is the one that the source has under that
name, and under its own name it is itself. -/
theorem normalize_canonical {code name text : String} (h : normalize code name = .ok text) :
    (∀ other, normalize text other = normalize code other) ∧ normalize text name = .ok text := by
  have hsame (other : String) : normalize text other = normalize code other := by
    obtain ⟨c, d, hc, rfl, -, hd⟩ := exists_declares h
    have hpending := hd.portable.isPending_eq (hd.source_eq ▸ h)
    unfold normalize
    rw [hd.trimmed_text, hd.ofSource_text hpending, Canonical.ofSource_named other hc]
  exact ⟨hsame, (hsame name).trans h⟩

/-- A method, whose canonical form is that of a function expression. -/
theorem normalize_canonical_method :
    (normalize "f(a = (1))\x7b\x7d" "g").toOption =
        some "function g(a = (1))\x7b\x7d" ∧
      (∀ other, normalize "function g(a = (1))\x7b\x7d" other =
        normalize "f(a = (1))\x7b\x7d" other) ∧
      normalize "function g(a = (1))\x7b\x7d" "g" =
        .ok "function g(a = (1))\x7b\x7d" := by
  have hnormalize : (normalize "f(a = (1))\x7b\x7d" "g").toOption =
      some "function g(a = (1))\x7b\x7d" := by
    decide +kernel
  exact ⟨hnormalize, normalize_canonical (Outcome.eq_ok_of_toOption hnormalize)⟩

end Collector
