import Mathlib.Data.Option.Basic
import Collector.Proofs.Script.Strings

/-!
# Scanners of regular expressions and names

`Scans` for the scanners of regular expressions and of names: `regex_scans` and `name_scans`.
-/

namespace Collector.Script

open Collector.Text

/-! ## Regular expressions -/

theorem regexBody_char {c : Char} (hb : c ≠ '\\') (inClass : Bool) (text : List Char) :
    regexBody inClass (c :: text) =
      if isLineEnd c then none
      else if c == '/' && !inClass then some ([], text)
      else (regexBody (if c == '[' then true else if c == ']' then false else inClass) text).map
        fun (body, rest) => (c :: body, rest) := by
  rw [regexBody]
  exact fun _ _ hc _ => hb hc

/-- The body of a regular expression ends with its slash, whatever stands behind. -/
theorem regexBody_takes {inClass : Bool} {text rest body : List Char}
    (h : regexBody inClass text = some (body, rest)) :
    ∃ taken, text = taken ++ rest ∧ ∀ new, regexBody inClass (taken ++ new) = some (body, new) := by
  induction inClass, text using regexBody.induct generalizing rest body with
  | case1 inClass => simp [regexBody] at h
  | case2 inClass c text hl => simp [regexBody, hl] at h
  | case3 inClass c text hl ih =>
    rw [regexBody, if_neg hl] at h
    obtain ⟨⟨more, rest'⟩, hs, h⟩ := Option.map_eq_some_iff.mp h
    obtain ⟨rfl, rfl⟩ := Prod.mk.inj h
    obtain ⟨taken, rfl, same⟩ := ih hs
    exact ⟨'\\' :: c :: taken, rfl, fun new => by simp [regexBody, hl, same new]⟩
  | case4 inClass c text hne hl =>
    rw [regexBody.eq_3 inClass c text hne, if_pos hl] at h
    simp at h
  | case5 inClass c text hne hl hq =>
    rw [regexBody.eq_3 inClass c text hne, if_neg hl, if_pos hq] at h
    obtain ⟨rfl, rfl⟩ : [] = body ∧ text = rest := by simpa using h
    have hb : c ≠ '\\' := by
      rintro rfl
      simp at hq
    refine ⟨[c], rfl, fun new => ?_⟩
    rw [List.singleton_append, regexBody_char hb, if_neg hl, if_pos hq]
  | case6 inClass c text hne hl hq inner =>
    rename_i ih
    rw [regexBody.eq_3 inClass c text hne, if_neg hl, if_neg hq] at h
    obtain ⟨⟨more, rest'⟩, hs, h⟩ := Option.map_eq_some_iff.mp h
    obtain ⟨rfl, rfl⟩ := Prod.mk.inj h
    have hb : c ≠ '\\' := by
      rintro rfl
      cases text with
      | nil => simp [regexBody] at hs
      | cons d text => exact hne d text rfl rfl
    obtain ⟨taken, rfl, same⟩ := ih hs
    refine ⟨c :: taken, rfl, fun new => ?_⟩
    rw [List.cons_append, regexBody_char hb, if_neg hl, if_neg hq, same new]
    rfl

/-- The flags behind a regular expression. -/
def flagged (body : List Char) : Scanner (String × String) := fun text =>
  if goodFlags (text.takeWhile isIdentifierPart) then
    some ((String.ofList body, String.ofList (text.takeWhile isIdentifierPart)),
      text.dropWhile isIdentifierPart)
  else none

theorem flagged_scans (body : List Char) : Scans (flagged body) := by
  intro text value rest h
  unfold flagged at h
  split at h
  next hg =>
    obtain ⟨taken, ht, same⟩ := span_scans isIdentifierPart (not_of_closer (by decide))
      text _ _ rfl
    obtain ⟨rfl, rfl⟩ := Prod.mk.inj (Option.some.inj h)
    refine ⟨taken, ht, fun new hn => ?_⟩
    obtain ⟨hw, hd⟩ := Prod.mk.inj (Option.some.inj (same new hn))
    simp [flagged, hw, hd, hg]
  · simp at h

theorem regex_scans : Scans regex := by
  have scans : Scans (regexBody false) := by
    intro text value rest h
    obtain ⟨taken, ht, same⟩ := regexBody_takes h
    exact ⟨taken, ht, fun new _ => same new⟩
  exact scans.bind flagged_scans

/-! ## Names -/

theorem nameRest_escape (fuel : Nat) (text : List Char) :
    nameRest (fuel + 1) ('\\' :: 'u' :: text) = (codePoint text).bind fun (n, rest) =>
      if isIdentifierPart (Char.ofNat n) then
        (nameRest fuel rest).map fun ((more, _), rest) => ((Char.ofNat n :: more, true), rest)
      else none := by
  show ((codePoint text).bind _) = _
  simp [Option.map_eq_bind, bind]

/-- Where no escape begins, the first character alone decides whether the name goes on. -/
theorem nameRest_plain (fuel : Nat) {c : Char} {text : List Char}
    (hescape : c = '\\' → ∀ tail, text ≠ 'u' :: tail) :
    nameRest (fuel + 1) (c :: text) =
      if isIdentifierPart c then
        (nameRest fuel text).map fun ((more, escaped), rest) => ((c :: more, escaped), rest)
      else if c == '\\' then none
      else some (([], false), c :: text) := by
  conv_lhs => unfold nameRest
  split
  · rename_i heq
    obtain ⟨rfl, rfl⟩ := List.cons.inj heq
    exact (hescape rfl _ rfl).elim
  · rename_i heq
    obtain ⟨rfl, rfl⟩ := List.cons.inj heq
    rfl
  · rename_i heq
    cases heq

theorem isIdentifierPart_backslash : isIdentifierPart '\\' = false := by decide

theorem nameRest_char {fuel : Nat} {c : Char} {text : List Char} (hc : isIdentifierPart c = true) :
    nameRest (fuel + 1) (c :: text) = (nameRest fuel text).map fun ((more, escaped), rest) =>
      ((c :: more, escaped), rest) := by
  rw [nameRest_plain fuel, if_pos hc]
  rintro rfl
  simp [isIdentifierPart_backslash] at hc

theorem nameRest_stop {fuel : Nat} {text : List Char}
    (h : text.head?.any (fun c => isIdentifierPart c || c == '\\') = false) :
    nameRest (fuel + 1) text = some (([], false), text) := by
  cases text with
  | nil => rfl
  | cons c text =>
    obtain ⟨hp, hb⟩ : isIdentifierPart c = false ∧ c ≠ '\\' := by simpa using h
    rw [nameRest_plain fuel fun hc => (hb hc).elim]
    simp [hp, hb]

/-- How the rest of a name can begin. -/
theorem nameRest_cases {fuel : Nat} {text rest : List Char} {found : List Char × Bool}
    (h : nameRest (fuel + 1) text = some (found, rest)) :
    (∃ tail, text = '\\' :: 'u' :: tail) ∨
    (∃ c tail, text = c :: tail ∧ isIdentifierPart c = true) ∨
    text.head?.any (fun c => isIdentifierPart c || c == '\\') = false := by
  cases text with
  | nil => exact .inr (.inr rfl)
  | cons c text =>
    cases hc : isIdentifierPart c with
    | true => exact .inr (.inl ⟨c, text, rfl, hc⟩)
    | false =>
      by_cases hb : c = '\\'
      · subst hb
        cases hu : text.head?.any (· == 'u') with
        | true =>
          obtain ⟨tail, rfl⟩ := head_eq hu
          exact .inl ⟨tail, rfl⟩
        | false =>
          rw [nameRest_plain fuel] at h
          · simp [hc] at h
          · rintro - tail rfl
            simp at hu
      · exact .inr (.inr (by simp [hc, hb]))

theorem nameRest_takes (fuel : Nat) {text rest : List Char} {found : List Char × Bool}
    (h : nameRest fuel text = some (found, rest)) :
    ∃ taken, text = taken ++ rest ∧ ∀ new fuel', Shut rest new → taken.length < fuel' →
      nameRest fuel' (taken ++ new) = some (found, new) := by
  induction fuel generalizing text rest found with
  | zero => cases h
  | succ fuel ih =>
    rcases nameRest_cases h with ⟨tail, rfl⟩ | ⟨c, tail, rfl, hc⟩ | hstop
    · rw [nameRest_escape] at h
      obtain ⟨⟨n, behind⟩, hn, h⟩ := Option.bind_eq_some_iff.mp h
      dsimp only at h
      split at h
      next hp =>
        obtain ⟨⟨⟨more, escaped⟩, rest'⟩, hs, h⟩ := Option.map_eq_some_iff.mp h
        obtain ⟨rfl, rfl⟩ := Prod.mk.inj h
        obtain ⟨first, rfl, point⟩ := codePoint_scans _ _ _ hn
        obtain ⟨taken, rfl, same⟩ := ih hs
        refine ⟨'\\' :: 'u' :: (first ++ taken), by simp, fun new fuel' hnew hf => ?_⟩
        cases fuel' with
        | zero => simp at hf
        | succ fuel' =>
          have hf : taken.length < fuel' := by
            simp at hf
            omega
          simp [nameRest_escape, point _ (hnew.append taken), hp, same new fuel' hnew hf]
      · simp at h
    · rw [nameRest_char hc] at h
      obtain ⟨⟨⟨more, escaped⟩, rest'⟩, hs, h⟩ := Option.map_eq_some_iff.mp h
      obtain ⟨rfl, rfl⟩ := Prod.mk.inj h
      obtain ⟨taken, rfl, same⟩ := ih hs
      refine ⟨c :: taken, rfl, fun new fuel' hnew hf => ?_⟩
      cases fuel' with
      | zero => simp at hf
      | succ fuel' =>
        rw [List.cons_append, nameRest_char hc, same new fuel' hnew (by simpa using hf)]
        rfl
    · rw [nameRest_stop hstop] at h
      obtain ⟨rfl, rfl⟩ : ([], false) = found ∧ text = rest := by simpa using h
      refine ⟨[], rfl, fun new fuel' hnew hf => ?_⟩
      cases fuel' with
      | zero => simp at hf
      | succ fuel' => exact nameRest_stop (hnew.stops _ (not_of_closer (by decide)) hstop)

/-- Whether a text begins with a character that begins names, perhaps escaped. -/
def beginsName : List Char → Bool
  | '\\' :: 'u' :: rest => (codePoint rest).any fun (n, _) => isIdentifierStart (Char.ofNat n)
  | c :: _ => isIdentifierStart c
  | [] => false

theorem isIdentifierPart_of_start {c : Char} (h : isIdentifierStart c = true) :
    isIdentifierPart c = true := by simp [isIdentifierPart, h]

/-- A text begins a name if the name that is read off it begins well. -/
theorem beginsName_eq {fuel : Nat} {text rest cs : List Char} {escaped : Bool}
    (h : nameRest fuel text = some ((cs, escaped), rest)) :
    beginsName text = cs.head?.any isIdentifierStart := by
  cases fuel with
  | zero => cases h
  | succ fuel =>
    rcases nameRest_cases h with ⟨tail, rfl⟩ | ⟨c, tail, rfl, hc⟩ | hstop
    · rw [nameRest_escape] at h
      obtain ⟨⟨n, behind⟩, hn, h⟩ := Option.bind_eq_some_iff.mp h
      dsimp only at h
      split at h
      next hp =>
        obtain ⟨⟨⟨more, escaped⟩, rest'⟩, hs, h⟩ := Option.map_eq_some_iff.mp h
        obtain ⟨⟨rfl, rfl⟩, rfl⟩ : (Char.ofNat n :: more = cs ∧ true = _) ∧ rest' = rest := by
          simpa using h
        simp [beginsName, hn]
      · simp at h
    · rw [nameRest_char hc] at h
      obtain ⟨⟨⟨more, escaped⟩, rest'⟩, hs, h⟩ := Option.map_eq_some_iff.mp h
      obtain ⟨⟨rfl, rfl⟩, rfl⟩ : (c :: more = cs ∧ escaped = _) ∧ rest' = rest := by simpa using h
      rw [beginsName]
      · rfl
      · rintro tail rfl
        simp [isIdentifierPart_backslash] at hc
    · rw [nameRest_stop hstop] at h
      obtain ⟨⟨rfl, rfl⟩, rfl⟩ : ([] = cs ∧ false = escaped) ∧ text = rest := by simpa using h
      cases text with
      | nil => rfl
      | cons c text =>
        obtain ⟨hp, hb⟩ : isIdentifierPart c = false ∧ c ≠ '\\' := by simpa using hstop
        rw [beginsName]
        · cases hs : isIdentifierStart c with
          | false => rfl
          | true => simp [isIdentifierPart_of_start hs] at hp
        · exact fun _ hc _ => hb hc

theorem name_eq (text : List Char) :
    name text = if beginsName text then
      (nameRest (text.length + 1) text).map fun ((cs, escaped), rest) =>
        ((String.ofList cs, escaped), rest) else none := rfl

theorem name_scans : Scans name := by
  intro text value rest h
  rw [name_eq] at h
  split at h
  next hb =>
    obtain ⟨⟨⟨cs, escaped⟩, rest'⟩, hs, h⟩ := Option.map_eq_some_iff.mp h
    obtain ⟨rfl, rfl⟩ := Prod.mk.inj h
    obtain ⟨taken, rfl, same⟩ := nameRest_takes _ hs
    refine ⟨taken, rfl, fun new hn => ?_⟩
    have := same new ((taken ++ new).length + 1) hn (by rw [List.length_append]; omega)
    rw [name_eq, beginsName_eq this, ← beginsName_eq hs, if_pos hb, this]
    rfl
  · simp at h

end Collector.Script
