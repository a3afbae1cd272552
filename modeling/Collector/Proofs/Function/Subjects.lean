import Collector.Proofs.Function.Parameters
import Collector.Proofs.Script.Listing

/-!
# Parameters that name the subjects

The convention of a function is read off the words of its parameter list. Where every parameter is a
name, these are the words of the names, as they are spelled, and of the comments around them.

A name may have signs in it that belong to no word, `$` among them, and then a part of it is a word.
So the words settle what the names do only as far as the names that hold one of the two words are
words themselves: `Piece.Plain`.

* `Convention.Follows` is a convention that is settled by two conditions.
* `convention_follows_names` is the result, for all functions whose parameters are names.
* `convention_of_affix` is a function for which the names say something else than the words.
-/

namespace Collector

open Script Text

/-! ## The two words -/

/-- Whether one of the two words stands in a text. -/
def Mentions (text : List Char) : Prop := subjectsWord ∈ words text ∨ subjectWord ∈ words text

instance (text : List Char) : Decidable (Mentions text) := inferInstanceAs (Decidable (_ ∨ _))

/-- Each of the two words is one word. -/
theorem words_self {word : List Char} (h : word = subjectsWord ∨ word = subjectWord) :
    words word = [word] := by
  rcases h with rfl | rfl <;>
    exact words_of_wordly (by decide) (List.all_eq_true.mp (by decide))

/-- The convention is for all subjects or for each one, as just one of two conditions holds. -/
structure Convention.Follows (all each : Prop) (answer : Outcome Convention) : Prop where
  batch : answer = .ok .batch ↔ all ∧ ¬ each
  singleItem : answer = .ok .singleItem ↔ each ∧ ¬ all
  otherwise : (all ↔ each) → ∃ error, answer = .error error ∧ error.kind = .signature

theorem Convention.ofParameters_follows (parameters : List Char) :
    Follows (subjectsWord ∈ words parameters) (subjectWord ∈ words parameters)
      (ofParameters parameters) := by
  unfold ofParameters
  by_cases hall : subjectsWord ∈ words parameters <;>
    by_cases heach : subjectWord ∈ words parameters <;>
    simp only [List.contains_eq_mem, hall, heach, decide_true, decide_false]
  · exact ⟨by simp, by simp, fun _ => ⟨_, rfl, rfl⟩⟩
  · exact ⟨by simp, by simp, by simp⟩
  · exact ⟨by simp, by simp, by simp⟩
  · exact ⟨by simp, by simp, fun _ => ⟨_, rfl, rfl⟩⟩

/-! ## Names and words -/

/-- A piece of a list of names that holds one of the two words only if it is a name and is one of
them. -/
def Script.Piece.Plain : Piece → Prop
  | .name spelling => '\\' ∉ spelling ∧ (Mentions spelling → ∀ c ∈ spelling, isWordly c = true)
  | .comma => True
  | .gap text => ¬ Mentions text

theorem mem_words_iff_of_spells {spelling word : List Char} {id : String}
    (h : Spells spelling id) (hp : (Piece.name spelling).Plain)
    (hword : word = subjectsWord ∨ word = subjectWord) :
    word ∈ words spelling ↔ String.ofList word = id := by
  obtain ⟨hescape, hplain⟩ := hp
  have hid : id = String.ofList spelling := by rw [← h.toList_eq hescape, String.ofList_toList]
  rw [hid]
  constructor
  · intro hmem
    have hwordly := hplain (by rcases hword with rfl | rfl; exacts [.inl hmem, .inr hmem])
    rw [words_of_wordly h.ne_nil hwordly, List.mem_singleton] at hmem
    rw [hmem]
  · intro hsame
    rw [← String.ofList_injective hsame, words_self hword]
    exact List.mem_singleton_self word

/-- One of the two words stands in a plain list if and only if it is one of the names. -/
theorem exists_word_iff_of_laid {names : List String} {pieces : List Piece} {word : List Char}
    (h : Laid names pieces) (hp : ∀ piece ∈ pieces, piece.Plain)
    (hword : word = subjectsWord ∨ word = subjectWord) :
    (∃ piece ∈ pieces, word ∈ words piece.text) ↔ String.ofList word ∈ names := by
  have hgap {text : List Char} (htext : (Piece.gap text).Plain) : word ∉ words text := by
    rcases hword with rfl | rfl
    · exact fun hmem => htext (.inl hmem)
    · exact fun hmem => htext (.inr hmem)
  have hcomma : word ∉ words [','] := by
    rw [words_cons_break (by decide)]
    exact List.not_mem_nil
  induction h with
  | done =>
    simp only [List.forall_mem_cons] at hp
    simp [Piece.text, hgap hp.1]
  | last _ hname _ =>
    simp only [List.forall_mem_cons] at hp
    obtain ⟨hfront, hspelling, hback, -⟩ := hp
    simp [Piece.text, hgap hfront, hgap hback, mem_words_iff_of_spells hname hspelling hword]
  | more _ hname _ _ ih =>
    simp only [List.forall_mem_cons] at hp
    obtain ⟨hfront, hspelling, hback, -, hrest⟩ := hp
    simp only [List.exists_mem_cons_iff, ih hrest]
    simp [Piece.text, hgap hfront, hgap hback, hcomma,
      mem_words_iff_of_spells hname hspelling hword]

/-- A list without escapes and comments is plain, if the names that hold one of the two words are
words. -/
theorem plain_of_laid {names : List String} {pieces : List Piece} (h : Laid names pieces)
    (hbare : ∀ c ∈ pieces.flatMap Piece.text, c ≠ '\\' ∧ opensComment c = false)
    (hnames : ∀ id ∈ names, Mentions id.toList → ∀ c ∈ id.toList, isWordly c = true) :
    ∀ piece ∈ pieces, piece.Plain := by
  have hgap {gap : List Char} (hg : IsGapText gap)
      (hb : ∀ c ∈ gap, c ≠ '\\' ∧ opensComment c = false) : (Piece.gap gap).Plain := by
    have hnone := hg.words_eq_nil fun c hc => (hb c hc).2
    rintro (hmem | hmem) <;> rw [hnone] at hmem <;> cases hmem
  have hspelled {spelling : List Char} {id : String} (hs : Spells spelling id)
      (hb : ∀ c ∈ spelling, c ≠ '\\' ∧ opensComment c = false)
      (hid : Mentions id.toList → ∀ c ∈ id.toList, isWordly c = true) :
      (Piece.name spelling).Plain := by
    have hescape : '\\' ∉ spelling := fun hmem => (hb _ hmem).1 rfl
    rw [hs.toList_eq hescape] at hid
    exact ⟨hescape, hid⟩
  induction h with
  | done hg =>
    simp only [List.flatMap_cons, List.flatMap_nil, List.append_nil, Piece.text] at hbare
    simpa using hgap hg hbare
  | last hfront hname hback =>
    simp only [List.flatMap_cons, List.flatMap_nil, List.append_nil, List.forall_mem_append,
      Piece.text] at hbare
    obtain ⟨hbfront, hbname, hbback⟩ := hbare
    simp only [List.forall_mem_cons]
    exact ⟨hgap hfront hbfront, hspelled hname hbname (hnames _ (by simp)), hgap hback hbback,
      by simp⟩
  | more hfront hname hback _ ih =>
    simp only [List.flatMap_cons, List.forall_mem_append] at hbare
    obtain ⟨hbfront, hbname, hbback, -, hbrest⟩ := hbare
    obtain ⟨hid, hothers⟩ := List.forall_mem_cons.mp hnames
    simp only [List.forall_mem_cons]
    exact ⟨hgap hfront hbfront, hspelled hname hbname hid, hgap hback hbback, trivial,
      ih hbrest hothers⟩

/-- The parameters of a canonical form are laid out as a list of names if all of them are names. -/
theorem Canonical.Declares.exists_laid {c : Canonical} {d : Function} (h : c.Declares d)
    {names : List String} (hnames : d.params = names.map .bind) :
    ∃ pieces, Laid names pieces ∧ c.params.toList = pieces.flatMap Piece.text := by
  obtain ⟨fuel, level, hp⟩ := exists_grammar (h.portable.params [])
  obtain ⟨-, -, _, -, _, hl⟩ := Grammar.parameters_iff_listed.mp hp
  have htext : d.paramsText.toList ++ [] = '(' :: (c.params.toList ++ [')']) := by
    rw [h.paramsText]
    simp
  rw [htext, next_of_bracket (p := .openParen) (by simp [brackets])] at hl
  obtain ⟨pieces, hlaid, hleft⟩ := exists_laid_of_listed rfl hnames.symm hl
  exact ⟨pieces, hlaid, List.append_cancel_right hleft⟩

/-! ## The result -/

/-- The name that a pattern is. -/
def Script.Pattern.bareName? : Pattern → Option String
  | .bind id => some id
  | _ => none

theorem params_eq_of_bareNames {params : List Pattern} {names : List String}
    (h : params.map Pattern.bareName? = names.map some) : params = names.map .bind := by
  induction params generalizing names with
  | nil => rw [List.map_eq_nil_iff.mp h.symm, List.map_nil]
  | cons p params ih =>
    obtain ⟨id, names, rfl, hid, hrest⟩ := List.map_eq_cons_iff.mp h.symm
    rw [List.map_cons, ih hrest.symm]
    cases p with
    | bind other => rw [Option.some.inj hid]
    | _ => cases hid

/-- What a text declares, by the names of its parameters. -/
theorem exists_declared_of_names {text paramsText : String} {names : List String}
    (h : (declared? text).map (fun d => (d.paramsText, d.params.map Pattern.bareName?)) =
      some (paramsText, names.map some)) :
    ∃ d, declared? text = some d ∧ d.paramsText = paramsText ∧ d.params = names.map .bind := by
  obtain ⟨d, hd, hboth⟩ := Option.map_eq_some_iff.mp h
  obtain ⟨htext, hparams⟩ := Prod.mk.inj hboth
  exact ⟨d, hd, htext, params_eq_of_bareNames hparams⟩

/-- A function whose parameters are names, all of them. Its convention is settled by the words of
the pieces of its parameter list. If every piece is plain, it is settled by the names: it is for all
subjects if one parameter is named `subjects` and none `subject`, for each one if it is the other
way round, and an error otherwise. A list is plain if there are no escapes and no comments in it and
if the names in it that hold one of the two words are words. -/
theorem convention_follows_names {code name text : String} {d : Function} {names : List String}
    (h : normalize code name = .ok text) (hd : declared? text = some d)
    (hnames : d.params = names.map .bind) :
    ∃ pieces, Laid names pieces ∧
      d.paramsText = "(" ++ String.ofList (pieces.flatMap Piece.text) ++ ")" ∧
      Convention.Follows (∃ piece ∈ pieces, subjectsWord ∈ words piece.text)
        (∃ piece ∈ pieces, subjectWord ∈ words piece.text) (classify text) ∧
      ((∀ piece ∈ pieces, piece.Plain) →
        Convention.Follows ("subjects" ∈ names) ("subject" ∈ names) (classify text)) ∧
      ((∀ c ∈ d.paramsText.toList, c ≠ '\\' ∧ opensComment c = false) →
        (∀ id ∈ names, Mentions id.toList → ∀ c ∈ id.toList, isWordly c = true) →
          ∀ piece ∈ pieces, piece.Plain) := by
  obtain ⟨c, d', -, rfl, -, hc⟩ := exists_declares h
  obtain rfl : d' = d := by
    have hsame := hc.portable.declared?_eq (hc.source_eq ▸ h)
    rw [hc.source_eq, hd] at hsame
    exact (Option.some.inj hsame).symm
  obtain ⟨pieces, hlaid, hparams⟩ := hc.exists_laid hnames
  have hclassify : classify c.text = Convention.ofParameters (pieces.flatMap Piece.text) := by
    unfold classify
    rw [hc.parameterList_eq, hparams]
  have hfollows := Convention.ofParameters_follows (pieces.flatMap Piece.text)
  rw [← hclassify, hlaid.words_eq] at hfollows
  simp only [List.mem_flatMap] at hfollows
  refine ⟨pieces, hlaid, ?_, hfollows, fun hplain => ?_, fun hbare => plain_of_laid hlaid ?_⟩
  · rw [hc.paramsText, ← hparams, String.ofList_toList]
  · rw [exists_word_iff_of_laid hlaid hplain (.inl rfl),
      exists_word_iff_of_laid hlaid hplain (.inr rfl)] at hfollows
    exact hfollows
  · intro c hmem
    refine hbare c ?_
    rw [hc.paramsText]
    simp [hparams, hmem]

/-- Names with signs and parts of the words in them, of which one is the word for all subjects. -/
theorem convention_follows_names_signed :
    ∃ d, normalize "($ctx, mySubjects, subjects)=>\x7b\x7d" "f" =
        .ok "function f($ctx, mySubjects, subjects)\x7b\x7d" ∧
      declared? "function f($ctx, mySubjects, subjects)\x7b\x7d" = some d ∧
      d.params = ["$ctx", "mySubjects", "subjects"].map .bind ∧
      Convention.Follows ("subjects" ∈ ["$ctx", "mySubjects", "subjects"])
        ("subject" ∈ ["$ctx", "mySubjects", "subjects"])
        (classify "function f($ctx, mySubjects, subjects)\x7b\x7d") := by
  have hnormalize : (normalize "($ctx, mySubjects, subjects)=>\x7b\x7d" "f").toOption =
      some "function f($ctx, mySubjects, subjects)\x7b\x7d" := by
    decide +kernel
  have hdeclared : (declared? "function f($ctx, mySubjects, subjects)\x7b\x7d").map
        (fun d => (d.paramsText, d.params.map Pattern.bareName?)) =
      some ("($ctx, mySubjects, subjects)",
        ["$ctx", "mySubjects", "subjects"].map some) := by
    decide +kernel
  have hbare : "($ctx, mySubjects, subjects)".toList.all
      (fun c => c != '\\' && !opensComment c) = true := by
    decide +kernel
  have hwords : ["$ctx", "mySubjects", "subjects"].all (fun id =>
      !decide (Mentions id.toList) || id.toList.all isWordly) = true := by
    decide +kernel
  obtain ⟨d, hd, htext, hparams⟩ := exists_declared_of_names hdeclared
  have hn := Outcome.eq_ok_of_toOption hnormalize
  obtain ⟨pieces, -, -, -, hfollows, hplain⟩ := convention_follows_names hn hd hparams
  refine ⟨d, hn, hd, hparams, hfollows (hplain ?_ ?_)⟩
  · rw [htext]
    intro c hc
    simpa using List.all_eq_true.mp hbare c hc
  · intro id hid hmentions
    simpa [hmentions] using List.all_eq_true.mp hwords id hid

/-- A word that stands behind a sign in a name is found, though no parameter is named so. -/
theorem convention_of_affix :
    ∃ d, normalize "function f(ctx, $subjects)\x7b\x7d" "f" =
        .ok "function f(ctx, $subjects)\x7b\x7d" ∧
      declared? "function f(ctx, $subjects)\x7b\x7d" = some d ∧
      d.params = ["ctx", "$subjects"].map .bind ∧
      classify "function f(ctx, $subjects)\x7b\x7d" = .ok .batch ∧
      ¬ Convention.Follows ("subjects" ∈ ["ctx", "$subjects"]) ("subject" ∈ ["ctx", "$subjects"])
        (classify "function f(ctx, $subjects)\x7b\x7d") := by
  have hnormalize : (normalize "function f(ctx, $subjects)\x7b\x7d" "f").toOption =
      some "function f(ctx, $subjects)\x7b\x7d" := by
    decide +kernel
  have hclassify : (classify "function f(ctx, $subjects)\x7b\x7d").toOption = some .batch := by
    decide +kernel
  have hdeclared : (declared? "function f(ctx, $subjects)\x7b\x7d").map
        (fun d => (d.paramsText, d.params.map Pattern.bareName?)) =
      some ("(ctx, $subjects)", ["ctx", "$subjects"].map some) := by
    decide +kernel
  obtain ⟨d, hd, -, hparams⟩ := exists_declared_of_names hdeclared
  have hbatch := Outcome.eq_ok_of_toOption hclassify
  refine ⟨d, Outcome.eq_ok_of_toOption hnormalize, hd, hparams, hbatch, fun hfollows => ?_⟩
  exact absurd (hfollows.batch.mp hbatch).1 (by decide)

end Collector
