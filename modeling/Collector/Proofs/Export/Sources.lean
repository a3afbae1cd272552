import Collector.Proofs.Export.Functions
import Collector.Proofs.Function.Declared

/-!
# The sources of exported functions

The source of a function that was read in a script has no blanks around it
(`Function.Sourced.trimmed_eq`) and is read a second time, on its own. A function expression and an
arrow function are the expression that their text is; a method is read in braces, or as a function
expression with the same parts. So the parts of the source are those of the function that was read
(`Function.Sourced.ofSource_cases`), and its parameter list and its body stand in it
(`Function.Sourced.exists_split`).
-/

namespace Collector.Script

open Grammar Relation

variable {fuel level : Nat} {c c' : Cursor} {f : Function} {source : String}
  {valueText : Option String}

/-! ## Arrow functions -/

/-- An arrow function has the parameters that stand before the arrow, and its body is the end of
its text. -/
theorem arrowRest_parts {isAsync : Bool} {params : List Pattern} {text : String}
    (h : (grammar fuel level).arrowRest Mode.script isAsync params text c =
      some (.arrow valueText f, c')) :
    f.isGenerator = false ∧ f.paramsText = text ∧
      ∃ gap, c.left = gap ++ (valueText.elim f.body.block id).toList ++ c'.left := by
  obtain ⟨arrow, c₁, hs, h⟩ := Parser.bind_eq_some.mp h
  obtain ⟨_, c₂, hcheck, h⟩ := Parser.bind_eq_some.mp h
  obtain ⟨rfl, harrow⟩ := seesArrow_eq_some hs
  obtain ⟨rfl, rfl⟩ := Parser.check_eq_some.mp hcheck
  have hreal : c₁.next.token.isReal = true := by
    rw [harrow rfl]
    rfl
  rw [Parser.bind_of_eq_some (Parser.advance_of_real hreal), Parser.sees_bind, Parser.peek_bind]
    at h
  have hsuffix : (Cursor.front .inside c₁.next.rest).next.start <:+ c₁.left :=
    ((Cursor.start_suffix _).trans (c₁.rest_suffix hreal)).trans c₁.start_suffix
  generalize Cursor.front .inside c₁.next.rest = d at h hsuffix
  obtain ⟨gap, hgap⟩ := hsuffix
  split at h
  · obtain ⟨body, c₃, hb, h⟩ := Parser.bind_eq_some.mp h
    obtain ⟨he, rfl⟩ := Parser.pure_eq_some.mp h
    obtain ⟨rfl, rfl⟩ := Expr.arrow.inj he
    refine ⟨rfl, rfl, gap, ?_⟩
    rw [← hgap, functionBody_text hb, List.append_assoc]
    rfl
  · rw [Parser.peek_bind] at h
    obtain ⟨value, c₃, hv, h⟩ := Parser.bind_eq_some.mp h
    obtain ⟨inside, c₄, ht, h⟩ := Parser.bind_eq_some.mp h
    obtain ⟨rfl, rfl⟩ := Prod.mk.inj (Option.some.inj ht)
    obtain ⟨he, rfl⟩ := Parser.pure_eq_some.mp h
    obtain ⟨rfl, rfl⟩ := Expr.arrow.inj he
    refine ⟨rfl, rfl, gap, ?_⟩
    have opens : Opens .same never _ _ :=
      (agrees_same (Nat.le_refl fuel) (Nat.le_refl level)).assignment
        { Mode.script with isAsync := isAsync, isGenerator := false } false
    rw [← hgap, List.append_assoc, Option.elim_some, id,
      toList_slice (suffix_of_moves_taken (opens.moves hv))]

/-- An arrow function that is not async begins with its parameters. -/
theorem arrow_cases
    (h : (grammar fuel (level + 1)).assignment Mode.script c = some (.arrow valueText f, c')) :
    f.isAsync = true ∧ c.next.token = .word "async" false ∨
      ∃ params text c₁, c.next.token ≠ .punctuator .decrement ∧
        c.next.start = text.toList ++ c₁.left ∧
        (grammar fuel level).arrowRest Mode.script false params text c₁ =
          some (.arrow valueText f, c') := by
  cases assignmentExpression_whole h rfl with
  | operand hp =>
    rcases primary_whole hp rfl with ⟨_, he, -⟩ | ⟨_, _, he, -⟩ | ⟨_, _, he, -⟩ | ⟨_, he, -⟩ |
      ⟨_, _, he, -⟩
    all_goals cases he
  | parens hr =>
    obtain ⟨_, _, he⟩ := parenthesized_value hr
    cases he
  | single hs =>
    replace hs : (Parser.identifier Mode.script >>= fun id => Parser.textFrom c.next.start >>=
        fun text => (grammar fuel level).arrowRest Mode.script false [.bind id] text) c =
        some (.arrow valueText f, c') := hs
    obtain ⟨id, c₁, hi, hs⟩ := Parser.bind_eq_some.mp hs
    obtain ⟨hid, rfl⟩ := Parser.identifier_eq_some.mp hi
    obtain ⟨escaped, hword⟩ := Lexeme.identifier?_word hid
    refine .inr ⟨_, _, _, by simp [hword], ?_, hs⟩
    exact (toList_slice (c.rest_suffix (by rw [hword]; rfl))).symm
  | arrow params text c₁ hp hr =>
    have hread := parameters_of_parenthesized (covers_grammar fuel level Mode.script) hp
    exact .inr ⟨params, text, c₁, by simp [openParen_of_parenthesized hp],
      parameters_text hread, hr⟩
  | asyncArrow value f' he hf hw =>
    obtain ⟨-, rfl⟩ := Expr.arrow.inj he
    exact .inl ⟨hf, hw⟩
  | assign _ _ _ ha =>
    obtain ⟨_, _, -, -, -, -, he⟩ := ha
    cases he
  | store _ _ _ he => cases he

/-! ## Function expressions and methods -/

theorem function_begins
    (h : (grammar fuel level).function Mode.script false c = some (f, c')) :
    c.next.token ≠ .punctuator .decrement := by
  intro ht
  replace h : (Parser.acceptWord "async" >>= (grammar fuel level).functionBehind Mode.script false
      c.next.start) c = some (f, c') := h
  rw [(Parser.acceptWord_accepts "async").bind_false (by simp [ht])] at h
  unfold functionBehind at h
  obtain ⟨_, c₁, hw, -⟩ := Parser.bind_eq_some.mp h
  cases ht.symm.trans (Parser.expectWord_eq_some.mp hw).1

/-- Behind its modifiers and its name a method is read within its text. -/
theorem Grammar.Method.suffix {mods : Modifiers} {c₁ c₂ : Cursor}
    (h : Method (grammar fuel level) Mode.script c mods c₁ c₂ f c') :
    c₂.next.start <:+ c.next.start := by
  have looks : Looks .same never _ _ := Looks.modifiers
  have opens : Opens .same never _ _ :=
    (agrees_same (Nat.le_refl fuel) (Nat.le_refl level)).key Mode.script false
  obtain ⟨key, hk⟩ := h.key
  have hmoves := TransGen.trans_right (looks.moves h.modifiers) (opens.moves hk)
  exact c₂.start_suffix.trans (suffix_of_moves_taken hmoves)

/-! ## Sources -/

namespace Function.Sourced

variable (h : f.Sourced source valueText)

include h

theorem exists_moves : ∃ c c', TransGen Move c c' ∧ source = slice c.next.start c'.left := by
  have assignment {fuel level : Nat} {c c' : Cursor} {e : Expr}
      (he : (grammar fuel level).assignment Mode.script c = some (e, c')) : TransGen Move c c' := by
    have opens : Opens .same never _ _ :=
      (agrees_same (Nat.le_refl fuel) (Nat.le_refl level)).assignment Mode.script false
    exact opens.moves he
  cases h with
  | function he hs => exact ⟨_, _, assignment he, hs⟩
  | arrow he hs => exact ⟨_, _, assignment he, hs⟩
  | @method fuel level _ _ _ hm =>
    have opens : Opens .same never _ _ :=
      (agrees_same (Nat.le_refl fuel) (Nat.le_refl level)).property_opens Mode.script false
    exact ⟨_, _, opens.moves hm, (exists_method hm).2⟩

/-- A source has no blanks around it. -/
theorem trimmed_eq : Canonical.trimmed source = source := by
  obtain ⟨c, c', hm, rfl⟩ := h.exists_moves
  unfold Canonical.trimmed
  rw [trim_of_moves hm, String.ofList_toList]

theorem isPending_eq : f.tree.isPending = false := by
  cases h with
  | function _ _ hp => exact hp
  | arrow _ _ hp => exact hp
  | @method _ _ _ _ key _ hp =>
    have htree : (Property.method key f source).tree = .node .other [key.tree, f.tree] := rfl
    rw [htree, Tree.isPending_other, List.any_cons, List.any_cons, List.any_nil, Bool.or_false,
      Bool.or_eq_false_iff] at hp
    exact hp.2

/-- What is written can be read elsewhere. -/
theorem written (hf : (f.isAsync || f.isGenerator) = false) : f.Written valueText := by
  obtain ⟨ha, hg⟩ := Bool.or_eq_false_iff.mp hf
  cases h with
  | function he => exact written_of_functionExpression he ha hg
  | arrow he => exact written_of_arrow he ha
  | method hm =>
    obtain ⟨⟨mods, c₁, c₂, hmethod⟩, -⟩ := exists_method hm
    exact written_of_functionRest hmethod.rest ha hg

/-- The parameter list and the body, or the value, stand in the source, and the latter at its
end. -/
theorem exists_split (ha : f.isAsync = false) : ∃ before gap,
    source = before ++ f.paramsText ++ gap ++ valueText.elim f.body.block id := by
  cases h with
  | function he hs =>
    refine ⟨f.head, f.gap, ?_⟩
    rw [hs, function_source (function_of_assignment he), slice_append, String.ofList_toList]
    rfl
  | @arrow _ _ c c' _ he hs =>
    rcases arrow_cases he with ⟨hasync, -⟩ | ⟨params, text, c₁, -, hstart, hr⟩
    · cases ha.symm.trans hasync
    · obtain ⟨-, rfl, gap, hgap⟩ := arrowRest_parts hr
      refine ⟨"", String.ofList gap, ?_⟩
      rw [hs, hstart, hgap, ← List.append_assoc, slice_append]
      apply String.toList_injective
      simp
  | method hm =>
    obtain ⟨⟨mods, c₁, c₂, hmethod⟩, hs⟩ := exists_method hm
    obtain ⟨name, hname⟩ := hmethod.suffix
    refine ⟨String.ofList name ++ f.head, f.gap, ?_⟩
    rw [hs, ← hname, functionRest_source hmethod.rest List.suffix_rfl, ← List.append_assoc,
      slice_append]
    apply String.toList_injective
    simp [Function.source]

/-! ## The parts of a source -/

omit h in
theorem ofFunction_congr {f' : Function} (name : String)
    (hf : f'.isAsync = true ∧ f.isAsync = true ∨ SameParts f' f) :
    Canonical.ofFunction name f' = Canonical.ofFunction name f := by
  unfold Canonical.ofFunction
  rcases hf with ⟨hf', hf⟩ | hsame
  · rw [hf', hf]
    rfl
  · rw [hsame.isAsync, hsame.isGenerator, hsame.paramsText, hsame.body]

/-- A source is taken apart as the function that was read. Its kind could be mistaken for an async
function only, and then it is refused all the same. -/
theorem ofSource_cases (name : String) :
    Canonical.ofSource name source = Canonical.ofFunction name f ∧ valueText = none ∨
      Canonical.ofSource name source = Canonical.ofArrow name valueText f ∧
        f.isAsync = false ∧ f.isGenerator = false ∨
      Canonical.ofSource name source = .error (.asyncArrow name) ∧ f.isAsync = true := by
  cases h with
  | function he hs hp =>
    have hbegins := function_begins (function_of_assignment he)
    have hparse := parseExpression?_of_assignment he hbegins hp
    rw [← hs] at hparse
    refine .inl ⟨?_, rfl⟩
    unfold Canonical.ofSource
    rw [hparse]
    rfl
  | @arrow fuel level c c' _ he hs hp =>
    have taken {token : Token} (ht : c.next.token = token)
        (hd : token ≠ .punctuator .decrement) :
        Canonical.ofSource name source = Canonical.ofArrow name valueText f := by
      have hparse := parseExpression?_of_assignment he (by rw [ht]; exact hd) hp
      rw [← hs] at hparse
      unfold Canonical.ofSource
      rw [hparse]
      rfl
    rcases arrow_cases he with ⟨ha, hw⟩ | ⟨params, text, c₁, hd, -, hr⟩
    · refine .inr (.inr ⟨(taken hw (by simp)).trans ?_, ha⟩)
      unfold Canonical.ofArrow
      rw [ha, if_pos rfl]
    · obtain ⟨_, _, he, ha⟩ := answers_arrowRest false _ _ _ _ _ hr
      obtain ⟨-, rfl⟩ := Expr.arrow.inj he
      exact .inr (.inl ⟨taken rfl hd, ha, (arrowRest_parts hr).1⟩)
  | @method fuel level c c' key hm hp =>
    obtain ⟨⟨mods, c₁, c₂, hmethod⟩, hs⟩ := exists_method hm
    have opens {σ : Seam} {g g' : Grammar} (hag : Agrees σ g g') :
        Opens σ (fun _ => True) (g.property Mode.script) (g'.property Mode.script) :=
      hag.property_opens Mode.script false
    have hread := readsAlone (p := fun g => g.property Mode.script) opens hm
      (hmethod.token_ne (by decide) (by decide))
    have hobject := parseExpression?_object (readsText (p := fun g => g.property Mode.script)
      (q := fun g => g.property Mode.script) opens hm).2 hp
    rw [← hs] at hread hobject
    unfold Canonical.ofSource
    split
    next parts hparts =>
      obtain ⟨e, he, hparts⟩ := Option.bind_eq_some_iff.mp hparts
      unfold Canonical.ofExpr? at hparts
      split at hparts
      next f' hf =>
        obtain rfl := Option.some.inj hparts
        exact .inl ⟨ofFunction_congr name ((function_of_method hread he).1 hf), rfl⟩
      next value f' hf =>
        obtain rfl := Option.some.inj hparts
        obtain ⟨hf', ha⟩ := (function_of_method hread he).2 value hf
        refine .inr (.inr ⟨?_, ha⟩)
        unfold Canonical.ofArrow
        rw [hf', if_pos rfl]
      · cases hparts
    next =>
      rw [hobject]
      exact .inl ⟨rfl, rfl⟩

theorem ofSource_refused (hf : (f.isAsync || f.isGenerator) = true) (name : String) :
    Canonical.ofSource name source = .error (.asyncOrGenerator name) ∨
      Canonical.ofSource name source = .error (.asyncArrow name) := by
  rcases h.ofSource_cases name with ⟨hs, -⟩ | ⟨-, ha, hg⟩ | ⟨hs, -⟩
  · unfold Canonical.ofFunction at hs
    rw [if_pos hf] at hs
    exact .inl hs
  · rw [ha, hg] at hf
    cases hf
  · exact .inr hs

theorem ofSource_parts (hf : (f.isAsync || f.isGenerator) = false) (name : String) :
    Canonical.ofSource name source = .ok ⟨name, Canonical.bareParameters f.paramsText,
      valueText.elim f.body.block Canonical.answering⟩ := by
  have ha := (Bool.or_eq_false_iff.mp hf).1
  rcases h.ofSource_cases name with ⟨hs, rfl⟩ | ⟨hs, -⟩ | ⟨-, hasync⟩
  · unfold Canonical.ofFunction at hs
    rw [hf, if_neg Bool.false_ne_true] at hs
    exact hs
  · unfold Canonical.ofArrow at hs
    rw [ha, if_neg Bool.false_ne_true] at hs
    cases valueText <;> exact hs
  · cases ha.symm.trans hasync

end Function.Sourced

end Collector.Script
