import Collector.Proofs.Function.Declared

/-!
# The parameters of a canonical form

Two scans look for the end of a parameter list: the parser, and a count of parentheses that knows of
no strings and no comments. On a canonical form they agree. The count has already cut the list out
of the source, and where it would not have, the list kept its parentheses and no parser reads two of
them in a row as the beginning of a parameter list.

* `Balanced` is a text that the count reads to its end, whatever stands behind it.
* `Canonical.Declares` ties the parts of a canonical form to the function that its text declares.
* `parameterList_normalize` is the result: the convention of a function is read off its parameters,
  all of them, and off nothing else.
-/

namespace Collector

open Script Text

/-! ## Counting parentheses -/

/-- A text between a parenthesis and the one that closes it, whatever stands behind. -/
def Balanced (inside : List Char) : Prop :=
  ∀ tail, splitBalanced 0 (inside ++ ')' :: tail) = some (inside, tail)

/-- What stands behind the parenthesis that closes the others does not matter. -/
theorem balanced_iff {inside : List Char} : Balanced inside ↔ Closes 0 inside := by
  constructor
  · intro h
    exact (splitBalanced_eq_some_iff.mp (h [])).2
  · intro h tail
    exact splitBalanced_eq_some_iff.mpr ⟨rfl, h⟩

theorem balanced_of_splitBalanced {text inside after : List Char}
    (h : splitBalanced 0 text = some (inside, after)) : Balanced inside :=
  balanced_iff.mpr (splitBalanced_eq_some_iff.mp h).2

/-- A text without parentheses is balanced. -/
theorem balanced_of_plain {text : List Char} (h : ∀ c ∈ text, c ≠ '(' ∧ c ≠ ')') :
    Balanced text := by
  rw [balanced_iff]
  induction text with
  | nil => exact closes_nil
  | cons c text ih =>
    obtain ⟨hc, htext⟩ := List.forall_mem_cons.mp h
    exact (closes_other hc.1 hc.2).mpr (ih htext)

theorem ne_parenthesis_of_piece {c : Char} (h : isNamePiece c = true) : c ≠ '(' ∧ c ≠ ')' := by
  constructor <;> rintro rfl <;> revert h <;> decide

/-- A name is balanced. -/
theorem balanced_of_reads_name {text id : String}
    (h : ReadsText (fun _ => Parser.identifier Mode.plain) text id) : Balanced text.toList := by
  obtain ⟨hstart, hr⟩ := h .paren []
  rw [show Closer.paren.char = ')' from rfl] at hstart hr
  have hi : Parser.identifier Mode.plain (.front .inside (text.toList ++ [')'])) =
      some (id, .front .inside [')']) := hr.exists.choose_spec
  obtain ⟨hid, hrest⟩ := Parser.identifier_eq_some.mp hi
  obtain ⟨escaped, hword⟩ := Lexeme.identifier?_word hid
  have htoken := Cursor.tokenAt_start (by rw [hword]; rfl)
  rw [hword, hstart] at htoken
  obtain ⟨_, _, -, -, hname⟩ := tokenAt_word htoken
  obtain ⟨taken, htaken, hspelled, -⟩ := name_spelled hname
  have hbehind : [')'] = (Cursor.front .inside (text.toList ++ [')'])).next.rest :=
    congrArg Cursor.left hrest
  rw [← hbehind] at htaken
  rw [List.append_cancel_right htaken]
  exact balanced_of_plain fun c hc => ne_parenthesis_of_piece (hspelled c hc)

/-! ## The parameters of a declaration -/

/-- A parameter list without the parentheses around it, which reads as one in parentheses. -/
theorem balanced_bareParameters {params params' : List Pattern} {text : String}
    (h : WritesParameters params text)
    (hr : ReadsParameters params' ("(" ++ Canonical.bareParameters text ++ ")")) :
    Balanced (Canonical.bareParameters text).toList := by
  cases h with
  | list hinner _ =>
    obtain ⟨inner, hinner⟩ := hinner
    rcases Canonical.bareParameters_list hinner with ⟨hb, hs⟩ | ⟨hb, -⟩
    · rw [hb, String.toList_ofList]
      exact balanced_of_splitBalanced hs
    · -- With its parentheses kept, the list begins with two of them.
      obtain ⟨fuel, level, hp⟩ := exists_grammar (hr [])
      have hdoubled : ("(" ++ Canonical.bareParameters text ++ ")").toList ++ [] =
          '(' :: '(' :: (inner ++ [')', ')']) := by
        rw [hb]
        simp [hinner]
      rw [hdoubled] at hp
      cases parameters_doubled.symm.trans hp
  | single id _ h hread =>
    obtain ⟨first, rest, ht, hfirst, hs⟩ := h
    rw [Canonical.bareParameters_name ht hfirst hs]
    exact balanced_of_reads_name hread

/-! ## The declaration of a canonical form -/

/-- The text of the parts in canonical form declares a function, and its parameters are theirs. -/
structure Canonical.Declares (c : Canonical) (d : Function) : Prop where
  portable : d.Portable c.name
  paramsText : d.paramsText = "(" ++ c.params ++ ")"
  block : d.body.block = c.body
  balanced : Balanced c.params.toList

namespace Canonical.Declares

variable {c : Canonical} {d : Function} (h : c.Declares d)

include h

theorem source_eq : d.source = c.text := by
  apply String.toList_injective
  rw [h.portable.source_eq, h.paramsText, h.block]
  simp [Canonical.text]

/-- The count of parentheses finds the parameters. -/
theorem parameterList_eq : parameterList c.text.toList = some c.params.toList := by
  have hkeyword : "function ".toList.all (· != '(') = true := by decide +kernel
  have hfront : ∀ a ∈ ("function " ++ c.name).toList, (a != '(') = true := by
    intro a ha
    rw [String.toList_append, List.mem_append] at ha
    rcases ha with ha | ha
    · exact List.all_eq_true.mp hkeyword a ha
    · have := (ne_parenthesis_of_piece (h.portable.word.spelled a ha)).1
      simpa using this
  have htext : c.text.toList = ("function " ++ c.name).toList ++
      '(' :: (c.params.toList ++ ')' :: c.body.toList) := by
    simp [Canonical.text]
  unfold parameterList
  rw [htext, List.dropWhile_append_of_pos hfront]
  show (splitBalanced 0 _).map Prod.fst = _
  rw [h.balanced]
  rfl

end Canonical.Declares

/-- What a canonical form was put together from, and what it declares. -/
theorem exists_declares {code name text : String} (h : normalize code name = .ok text) :
    ∃ c d, Canonical.ofSource name (Canonical.trimmed code) = .ok c ∧ c.text = text ∧
      c.name = name ∧ c.Declares d := by
  unfold normalize at h
  split at h
  · cases h
  next hname =>
    obtain ⟨c, hc, h⟩ := Outcome.bind_eq_ok.1 h
    obtain ⟨f, valueText, -, ⟨hparams, hbody⟩, rfl⟩ := Canonical.exists_written_of_ofSource hc
    obtain ⟨body, -, hreads, hblock⟩ := exists_recast hbody
    split at h
    next hdeclares =>
      obtain rfl := Except.ok.inj h
      rw [← hblock] at hdeclares
      obtain ⟨d, hportable, -, -, hparamsText, rfl⟩ :=
        exists_portable (.of_plain (by simpa using hname)) hparams hreads hdeclares
      refine ⟨_, d, hc, rfl, rfl, hportable, hparamsText, hblock, ?_⟩
      exact balanced_bareParameters hparams (hparamsText ▸ hportable.params)
    · cases h

/-- The parameter list that the count of parentheses finds in a canonical form is the one that was
put there and the one that a parser reads there, whatever parentheses stand in it or behind it. So
the convention is read off all of the parameters and nothing else. -/
theorem classify_reads_parameters {code name text : String} (h : normalize code name = .ok text) :
    ∃ (c : Canonical) (d : Function), Canonical.ofSource name (Canonical.trimmed code) = .ok c ∧
      text = c.text ∧ declared? text = some d ∧ d.paramsText = "(" ++ c.params ++ ")" ∧
      parameterList text.toList = some c.params.toList ∧
      classify text = Convention.ofParameters c.params.toList := by
  obtain ⟨c, d, hc, rfl, -, hd⟩ := exists_declares h
  have hlist := hd.parameterList_eq
  refine ⟨c, d, hc, rfl, ?_, hd.paramsText, hlist, ?_⟩
  · rw [← hd.source_eq]
    exact hd.portable.declared?_eq (hd.source_eq ▸ h)
  · unfold classify
    rw [hlist]

/-- Parentheses in a default value, in a string, in a comment and in the body. -/
theorem classify_reads_parameters_defaulting :
    ∃ (c : Canonical) (d : Function),
      Canonical.ofSource "f" (Canonical.trimmed "(s = g(\"()\"))=>\x7b/*)*/\x7d") = .ok c ∧
      "function f(s = g(\"()\"))\x7b/*)*/\x7d" = c.text ∧
      declared? "function f(s = g(\"()\"))\x7b/*)*/\x7d" = some d ∧
      d.paramsText = "(" ++ c.params ++ ")" ∧
      parameterList "function f(s = g(\"()\"))\x7b/*)*/\x7d".toList = some c.params.toList ∧
      classify "function f(s = g(\"()\"))\x7b/*)*/\x7d" =
        Convention.ofParameters c.params.toList := by
  have hnormalize : (normalize "(s = g(\"()\"))=>\x7b/*)*/\x7d" "f").toOption =
      some "function f(s = g(\"()\"))\x7b/*)*/\x7d" := by
    decide +kernel
  exact classify_reads_parameters (Outcome.eq_ok_of_toOption hnormalize)

end Collector
