import Collector.Proofs.Function.Closing
import Collector.Proofs.Function.Subjects

/-!
# Parameters in another order

Parameters that close their own parentheses are cut out together, whatever stands before the first
parenthesis and behind the one that closes it (`parameterList_joined`). A comma belongs to no word,
so the words of the list are those of the parameters (`words_intercalate`), and the convention asks
only which words there are. So the order of the parameters does not matter: `classify_of_perm`.
-/

namespace Collector

open Text

/-- Parameters that close their own parentheses are found whole. -/
theorem parameterList_joined {front : List Char} (hfront : '(' ∉ front)
    {parts : List (List Char)} (hparts : ∀ part ∈ parts, Closes 0 part) (back : List Char) :
    parameterList (front ++ '(' :: ([','].intercalate parts ++ ')' :: back)) =
      some ([','].intercalate parts) := by
  rw [parameterList_open hfront, splitBalanced_eq_some_iff.mpr ⟨rfl, closes_intercalate hparts⟩]
  rfl

/-- No word goes on behind a comma. -/
theorem words_intercalate (parts : List (List Char)) :
    words ([','].intercalate parts) = parts.flatMap words := by
  induction parts with
  | nil => rfl
  | cons part parts ih =>
    cases parts with
    | nil => simp
    | cons other parts =>
      rw [List.intercalate_cons_cons, List.append_assoc, List.singleton_append,
        words_append_break (by decide), ih]
      rfl

/-- The convention depends on what words there are. -/
theorem Convention.ofParameters_congr {parameters others : List Char}
    (h : ∀ word, word ∈ words parameters ↔ word ∈ words others) :
    ofParameters parameters = ofParameters others := by
  unfold ofParameters
  simp only [List.contains_eq_mem, h]

/-- What a function with some parameters is classified as. -/
theorem classify_joined {front : String} (hfront : '(' ∉ front.toList) {params : List String}
    (hparams : ∀ p ∈ params, Closes 0 p.toList) (back : String) :
    classify (front ++ "(" ++ ",".intercalate params ++ ")" ++ back) =
      Convention.ofParameters ([','].intercalate (params.map String.toList)) := by
  have hparts : ∀ part ∈ params.map String.toList, Closes 0 part := by
    intro part hpart
    obtain ⟨p, hp, rfl⟩ := List.mem_map.mp hpart
    exact hparams p hp
  have htext : (front ++ "(" ++ ",".intercalate params ++ ")" ++ back).toList =
      front.toList ++
        '(' :: ([','].intercalate (params.map String.toList) ++ ')' :: back.toList) := by
    simp
  unfold classify
  rw [htext, parameterList_joined hfront hparts]

/-- In what order the parameters of a function stand does not matter to its convention, and neither
does what stands around them. What matters is whether one of them holds the word for all subjects
and whether one holds that for each. -/
theorem classify_of_perm {front front' back back' : String} {params params' : List String}
    (hfront : '(' ∉ front.toList) (hfront' : '(' ∉ front'.toList)
    (hparams : ∀ p ∈ params, Closes 0 p.toList) (hperm : params.Perm params') :
    classify (front ++ "(" ++ ",".intercalate params ++ ")" ++ back) =
        classify (front' ++ "(" ++ ",".intercalate params' ++ ")" ++ back') ∧
      Convention.Follows (∃ p ∈ params, subjectsWord ∈ words p.toList)
        (∃ p ∈ params, subjectWord ∈ words p.toList)
        (classify (front ++ "(" ++ ",".intercalate params ++ ")" ++ back)) := by
  have hparams' : ∀ p ∈ params', Closes 0 p.toList :=
    fun p hp => hparams p (hperm.mem_iff.mpr hp)
  have hwords (word : List Char) (others : List String) :
      word ∈ words ([','].intercalate (others.map String.toList)) ↔
        ∃ p ∈ others, word ∈ words p.toList := by
    rw [words_intercalate, List.flatMap_map, List.mem_flatMap]
  rw [classify_joined hfront hparams, classify_joined hfront' hparams']
  constructor
  · refine Convention.ofParameters_congr fun word => ?_
    rw [hwords, hwords]
    simp only [hperm.mem_iff]
  · have hfollows :=
      Convention.ofParameters_follows ([','].intercalate (params.map String.toList))
    rwa [hwords, hwords] at hfollows

/-- A default with parentheses and commas in it, and characters above ASCII. -/
theorem classify_of_perm_defaulting :
    classify ("function f" ++ "(" ++ ",".intercalate ["größe = g((1), h())", " subjects"] ++ ")" ++
        "\x7breturn (1)\x7d") =
      classify ("" ++ "(" ++ ",".intercalate [" subjects", "größe = g((1), h())"] ++ ")" ++ ")") ∧
    Convention.Follows
      (∃ p ∈ ["größe = g((1), h())", " subjects"], subjectsWord ∈ words p.toList)
      (∃ p ∈ ["größe = g((1), h())", " subjects"], subjectWord ∈ words p.toList)
      (classify ("function f" ++ "(" ++ ",".intercalate ["größe = g((1), h())", " subjects"] ++
        ")" ++ "\x7breturn (1)\x7d")) := by
  have hclosed (text : String) (h : (splitBalanced 0 (text.toList ++ [')'])) =
      some (text.toList, [])) : Closes 0 text.toList :=
    (splitBalanced_eq_some_iff.mp h).2
  refine classify_of_perm (by decide) (by decide) ?_ (List.Perm.swap _ _ _)
  intro p hp
  simp only [List.mem_cons, List.not_mem_nil, or_false] at hp
  rcases hp with rfl | rfl
  · exact hclosed _ (by decide)
  · exact hclosed _ (by decide)

end Collector
