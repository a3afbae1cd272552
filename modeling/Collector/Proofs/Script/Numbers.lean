import Mathlib.Data.Option.Basic
import Collector.Proofs.Script.Scanning

/-!
# Scanners of numbers

`Scans` for the scanners of digits and of numbers. `number_scans` is the result. A number is split
at its point and at its exponent, and a leading zero is a case of its own.
-/

namespace Collector.Script

open Collector.Text

/-! ## Digits -/

/-- No closer is a digit. -/
theorem isDigitIn_closer {base : Nat} (hb : base ≤ 16) {c : Char} (h : isCloser c = true) :
    isDigitIn base c = false := by
  have value : digitValue c = 16 := by rcases isCloser_cases h with rfl | rfl | rfl <;> decide
  simpa [isDigitIn, value] using hb

theorem isDigitIn_underscore {base : Nat} (hb : base ≤ 16) : isDigitIn base '_' = false := by
  have value : digitValue '_' = 16 := by decide
  simpa [isDigitIn, value] using hb

theorem moreDigits_stop {base : Nat} {text : List Char}
    (h : text.head?.any (fun c => isDigitIn base c || c == '_') = false) :
    moreDigits base text = some ([], text) := by
  cases text with
  | nil => rfl
  | cons c rest =>
    simp only [List.head?_cons, Option.any_some, Bool.or_eq_false_iff, beq_eq_false_iff_ne] at h
    rw [moreDigits.eq_3 base c rest (fun c' rest' he => absurd he h.2)]
    simp [h.1, h.2]

theorem moreDigits_scans {base : Nat} (hb : base ≤ 16) : Scans (moreDigits base) := by
  have closers : ∀ c, isCloser c = true → (isDigitIn base c || c == '_') = false := by
    intro c hc
    rw [isDigitIn_closer hb hc]
    rcases isCloser_cases hc with rfl | rfl | rfl <;> rfl
  intro text
  induction text using moreDigits.induct base with
  | case1 =>
    rintro value rest ⟨⟩
    exact .nothing fun new hn => moreDigits_stop (hn.stops _ closers rfl)
  | case2 c text hc ih =>
    intro value rest h
    simp only [moreDigits, hc, if_true, Option.map_eq_some_iff] at h
    obtain ⟨⟨digits, rest'⟩, hd, he⟩ := h
    obtain ⟨rfl, rfl⟩ := Prod.mk.inj he
    refine (ih _ _ hd).passed ['_', c] (f := (c :: ·)) fun tail new ht => ?_
    simp [moreDigits, hc, ht]
  | case3 c text hc =>
    intro value rest h
    simp [moreDigits, hc] at h
  | case4 c text hne hc ih =>
    intro value rest h
    rw [moreDigits.eq_3 base c text hne] at h
    simp only [hc, if_true, Option.map_eq_some_iff] at h
    obtain ⟨⟨digits, rest'⟩, hd, he⟩ := h
    obtain ⟨rfl, rfl⟩ := Prod.mk.inj he
    refine (ih _ _ hd).passed [c] (f := (c :: ·)) fun tail new ht => ?_
    rw [List.singleton_append, moreDigits.eq_3]
    · simp [hc, ht]
    · rintro c' rest' rfl
      simp [isDigitIn_underscore hb] at hc
  | case5 c text hne hc hu =>
    intro value rest h
    rw [moreDigits.eq_3 base c text hne] at h
    simp [hc, hu] at h
  | case6 c text hne hc hu =>
    intro value rest h
    rw [moreDigits.eq_3 base c text hne] at h
    simp only [hc, hu, Bool.false_eq_true, if_false, Option.some.injEq, Prod.mk.injEq] at h
    obtain ⟨rfl, rfl⟩ := h
    exact .nothing fun new hn => moreDigits_stop (hn.stops _ closers (by simp [hc, hu]))

theorem someDigits_scans {base : Nat} (hb : base ≤ 16) : Scans (someDigits base) := by
  intro text value rest h
  cases text with
  | nil => simp [someDigits] at h
  | cons c text =>
    cases hc : isDigitIn base c with
    | false => simp [someDigits, hc] at h
    | true =>
      simp only [someDigits, hc, if_true, Option.map_eq_some_iff] at h
      obtain ⟨⟨digits, rest'⟩, hd, he⟩ := h
      obtain ⟨rfl, rfl⟩ := Prod.mk.inj he
      refine (moreDigits_scans hb _ _ _ hd).passed [c] (f := (c :: ·)) fun tail new ht => ?_
      simp [someDigits, hc, ht]

/-! ## Numbers -/

theorem optionalExponent_stop {text : List Char}
    (h : text.head?.any (fun c => c == 'e' || c == 'E') = false) :
    optionalExponent text = some (0, text) := by
  cases text with
  | nil => rfl
  | cons c rest =>
    simp only [List.head?_cons, Option.any_some] at h
    simp [optionalExponent, h]

theorem someDigits_head {base : Nat} {text rest : List Char} {digits : List Char}
    (h : someDigits base text = some (digits, rest)) :
    ∃ c tail, text = c :: tail ∧ isDigitIn base c = true := by
  cases text with
  | nil => simp [someDigits] at h
  | cons c text =>
    cases hc : isDigitIn base c with
    | false => simp [someDigits, hc] at h
    | true => exact ⟨c, text, rfl, hc⟩

theorem isDigit_of_isDigitIn {c : Char} (h : isDigitIn 10 c = true) : c.isDigit = true := by
  by_contra hc
  simp only [isDigitIn, digitValue, hc, if_false, decide_eq_true_eq] at h
  split_ifs at h <;> omega

/-- The digits of an exponent, behind its sign. -/
def exponentDigits (negative : Bool) : Scanner Int := fun text =>
  (someDigits 10 text).map fun (digits, rest) =>
    (if negative then -((digitsValue 10 digits : Nat) : Int) else (digitsValue 10 digits : Nat), rest)

theorem exponentDigits_scans (negative : Bool) : Scans (exponentDigits negative) :=
  (someDigits_scans (show 10 ≤ 16 by decide)).map fun digits =>
    if negative then -((digitsValue 10 digits : Nat) : Int) else (digitsValue 10 digits : Nat)

theorem optionalExponent_sign (c : Char) (hc : (c == 'e' || c == 'E') = true) (text : List Char) :
    optionalExponent (c :: text) = match text with
      | '+' :: tail => exponentDigits false tail
      | '-' :: tail => exponentDigits true tail
      | _ => exponentDigits false text := by
  unfold optionalExponent
  simp only [hc, if_true]
  split <;> simp_all [exponentDigits]

/-- Without a sign an exponent begins with a digit. -/
theorem optionalExponent_unsigned {c : Char} (hc : (c == 'e' || c == 'E') = true)
    {text rest : List Char} {value : Int} (h : exponentDigits false text = some (value, rest)) :
    optionalExponent (c :: text) = some (value, rest) := by
  obtain ⟨⟨digits, rest'⟩, hd, -⟩ := Option.map_eq_some_iff.mp h
  obtain ⟨d, tail, rfl, hd⟩ := someDigits_head hd
  rw [optionalExponent_sign c hc]
  split
  · simp_all [isDigitIn, digitValue]
  · simp_all [isDigitIn, digitValue]
  · exact h

theorem optionalExponent_scans : Scans optionalExponent := by
  intro text value rest h
  cases text with
  | nil =>
    obtain ⟨rfl, rfl⟩ : 0 = value ∧ [] = rest := by simpa [optionalExponent] using h
    exact .nothing fun new hn =>
      optionalExponent_stop (hn.stops _ (not_of_closer (by decide)) rfl)
  | cons c text =>
    cases hc : c == 'e' || c == 'E' with
    | false =>
      obtain ⟨rfl, rfl⟩ : 0 = value ∧ c :: text = rest := by simpa [optionalExponent, hc] using h
      exact .nothing fun new hn =>
        optionalExponent_stop (hn.stops _ (not_of_closer (by decide)) (by simpa using hc))
    | true =>
      rw [optionalExponent_sign c hc] at h
      split at h
      · exact (exponentDigits_scans false _ _ _ h).passed [c, '+'] (f := id) fun tail new ht => by
          simpa [optionalExponent_sign c hc] using ht
      · exact (exponentDigits_scans true _ _ _ h).passed [c, '-'] (f := id) fun tail new ht => by
          simpa [optionalExponent_sign c hc] using ht
      · exact (exponentDigits_scans false _ _ _ h).passed [c] (f := id) fun tail new ht =>
          optionalExponent_unsigned hc ht

/-- The digits behind the point of a number, if there are any. -/
def digitsOrNone : Scanner (List Char) := fun text =>
  if text.head?.any Char.isDigit then someDigits 10 text else some ([], text)

theorem digitsOrNone_scans : Scans digitsOrNone := by
  intro text value rest h
  unfold digitsOrNone at h
  split at h
  next hd =>
    refine (someDigits_scans (by decide) _ _ _ h).passed [] (f := id) fun tail new ht => ?_
    obtain ⟨d, tail, rfl, hd⟩ := someDigits_head ht
    simpa [digitsOrNone, isDigit_of_isDigitIn hd] using ht
  next hd =>
    obtain ⟨rfl, rfl⟩ : [] = value ∧ text = rest := by simpa using h
    refine .nothing fun new hn => ?_
    have := hn.stops Char.isDigit (not_of_closer (by decide)) (by simpa using hd)
    simp [digitsOrNone, this]

/-- The fraction of a number: its point and the digits behind it. -/
def fractionDigits : Scanner (List Char)
  | '.' :: rest => digitsOrNone rest
  | text => some ([], text)

theorem fractionDigits_none {text : List Char} (h : text.head?.any (· == '.') = false) :
    fractionDigits text = some ([], text) := by
  unfold fractionDigits
  split
  · simp at h
  · rfl

theorem fractionDigits_scans : Scans fractionDigits := by
  intro text value rest h
  unfold fractionDigits at h
  split at h
  next tail =>
    exact (digitsOrNone_scans _ _ _ h).passed ['.'] (f := id) fun tail new ht => ht
  next hp =>
    obtain ⟨rfl, rfl⟩ : [] = value ∧ text = rest := by simpa using h
    exact .nothing fun new hn =>
      fractionDigits_none (hn.stops _ (not_of_closer (by decide)) (head_ne hp))

/-- What stands behind the digits of a number: its exponent. -/
def decimalNumber (whole fraction : List Char) : Scanner Token := fun text =>
  (optionalExponent text).map fun (exponent, rest) =>
    (.number (Double.ofDecimal false (digitsValue 10 (whole ++ fraction))
      (exponent - fraction.length)), rest)

theorem decimalNumber_scans (whole fraction : List Char) : Scans (decimalNumber whole fraction) :=
  optionalExponent_scans.map fun exponent : Int =>
    Token.number (Double.ofDecimal false (digitsValue 10 (whole ++ fraction))
      (exponent - fraction.length))

theorem fractionAndExponent_eq (whole text : List Char) :
    fractionAndExponent whole text =
      (fractionDigits text).bind fun (fraction, rest) => decimalNumber whole fraction rest := by
  unfold fractionAndExponent
  split
  · split <;> simp_all [Option.map_eq_bind, decimalNumber, fractionDigits, digitsOrNone]
  · simp_all [Option.map_eq_bind, decimalNumber, fractionDigits, digitsOrNone]
  next hp hn =>
    have : text.head?.any (· == '.') = false := by
      match text with
      | [] => rfl
      | [c] =>
        have : c ≠ '.' := fun hc => hn (by rw [hc])
        simpa using this
      | c :: d :: tail =>
        have : c ≠ '.' := fun hc => hp d tail (by rw [hc])
        simpa using this
    simp [fractionDigits_none this, Option.map_eq_bind, decimalNumber]

theorem fractionAndExponent_scans (whole : List Char) : Scans (fractionAndExponent whole) := by
  rw [funext (fractionAndExponent_eq whole)]
  exact fractionDigits_scans.bind (decimalNumber_scans whole)

/-- What a number with a leading zero is, by its digits. -/
def legacyRest (digits : List Char) : Scanner Token := fun rest =>
  if digits.all (isDigitIn 8) then some (.number (Double.ofNat (digitsValue 8 digits)), rest)
  else fractionAndExponent digits rest

theorem legacyRest_scans (digits : List Char) : Scans (legacyRest digits) := by
  intro text value rest h
  unfold legacyRest at h
  split at h
  next hall =>
    obtain ⟨rfl, rfl⟩ : _ = value ∧ text = rest := by simpa using h
    exact .nothing fun new hn => by simp [legacyRest, hall]
  next hall =>
    refine (fractionAndExponent_scans digits _ _ _ h).passed [] (f := id) fun tail new ht => ?_
    simpa [legacyRest, hall] using ht

/-- What decimal digits begin: a bigint, or a number with a fraction and an exponent. -/
def decimalRest (digits : List Char) : Scanner Token
  | 'n' :: rest => some (.bigint (toString (digitsValue 10 digits)), rest)
  | rest => fractionAndExponent digits rest

theorem decimalRest_other {digits text : List Char} (h : text.head?.any (· == 'n') = false) :
    decimalRest digits text = fractionAndExponent digits text := by
  unfold decimalRest
  split
  · simp at h
  · rfl

theorem decimalRest_scans (digits : List Char) : Scans (decimalRest digits) := by
  intro text value rest h
  unfold decimalRest at h
  split at h
  next tail =>
    obtain ⟨rfl, rfl⟩ : _ = value ∧ tail = rest := by simpa using h
    exact ⟨['n'], rfl, fun new _ => rfl⟩
  next hn =>
    obtain ⟨taken, rfl, same⟩ := fractionAndExponent_scans digits _ _ _ h
    refine ⟨taken, rfl, fun new hnew => ?_⟩
    rw [decimalRest_other ((hnew.append taken).stops _ (not_of_closer (by decide)) (head_ne hn))]
    exact same new hnew

/-- A number in a base other than ten. -/
theorem baseNumber_scans {base : Nat} (hb : base ≤ 16) :
    Scans fun text => (someDigits base text).map fun (digits, rest) =>
      wholeOrBigint (digitsValue base digits) rest := by
  intro text value rest h
  obtain ⟨⟨digits, behind⟩, hd, hw⟩ := Option.map_eq_some_iff.mp h
  obtain ⟨taken, rfl, same⟩ := someDigits_scans hb _ _ _ hd
  cases hn : behind.head?.any (· == 'n') with
  | false =>
    have other (tail : List Char) (ht : tail.head?.any (· == 'n') = false) :
        wholeOrBigint (digitsValue base digits) tail =
          (.number (Double.ofNat (digitsValue base digits)), tail) := by
      unfold wholeOrBigint
      split
      · simp at ht
      · rfl
    obtain ⟨rfl, rfl⟩ := Prod.mk.inj ((other _ hn).symm.trans hw)
    refine ⟨taken, rfl, fun new hnew => ?_⟩
    simp [same new hnew, other new (hnew.stops _ (not_of_closer (by decide)) hn)]
  | true =>
    obtain ⟨tail, rfl⟩ := head_eq hn
    obtain ⟨rfl, rfl⟩ := Prod.mk.inj hw
    refine ⟨taken ++ ['n'], by simp, fun new hnew => ?_⟩
    simp [same _ (hnew.cons 'n'), wholeOrBigint]

/-- A number behind its first character. -/
def numberBehind (c : Char) : Scanner Token := fun text =>
  if c == '.' then (digitsOrNone text).bind fun (fraction, rest) => decimalNumber [] fraction rest
  else if isDigitIn 10 c then
    (moreDigits 10 text).bind fun (digits, rest) => decimalRest (c :: digits) rest
  else none

theorem numberBehind_scans (c : Char) : Scans (numberBehind c) := by
  unfold numberBehind
  split
  · exact digitsOrNone_scans.bind (decimalNumber_scans [])
  · split
    · exact (moreDigits_scans (by decide)).bind fun digits => decimalRest_scans (c :: digits)
    · intro text value rest h
      simp at h

/-- What makes a number out of more than a zero, a fraction and an exponent. -/
def goesOnZero (c : Char) : Bool := (baseOf? c).isSome || c.isDigit

theorem numberBody_point (text : List Char) : numberBody ('.' :: text) = numberBehind '.' text := by
  show fractionAndExponent [] ('.' :: text) = _
  rw [fractionAndExponent_eq]
  rfl

theorem numberBody_zero {text : List Char} (h : text.head?.any goesOnZero = false) :
    numberBody ('0' :: text) = decimalRest ['0'] text := by
  cases text with
  | nil => rfl
  | cons c rest =>
    simp only [List.head?_cons, Option.any_some, goesOnZero, Bool.or_eq_false_iff,
      Option.isSome_eq_false_iff, Option.isNone_iff_eq_none] at h
    by_cases hn : c = 'n'
    · subst hn
      rfl
    · rw [decimalRest_other (by simpa using hn)]
      simp [numberBody, h, hn]

theorem numberBody_plain {c : Char} (text : List Char) (hp : c ≠ '.') (h0 : c ≠ '0') :
    numberBody (c :: text) = numberBehind c text := by
  unfold numberBody numberBehind
  split
  · simp_all
  · simp_all
  · simp only [someDigits, beq_eq_false_iff_ne.mpr hp, Bool.false_eq_true, if_false]
    split
    · simp only [Option.bind_map, Function.comp_def, bind]
      congr 1
      funext found
      unfold decimalRest
      split <;> simp_all
    · rfl

/-- A number with a leading zero and another digit. -/
theorem legacyNumber_eq {c : Char} (hc : c.isDigit = true) (text : List Char) :
    legacyNumber ('0' :: c :: text) =
      (some (text.takeWhile Char.isDigit, text.dropWhile Char.isDigit)).bind
        fun (digits, rest) => legacyRest ('0' :: c :: digits) rest := by
  simp [legacyNumber, legacyRest, hc]

theorem numberBody_goesOnZero {c : Char} {text rest : List Char} {value : Token}
    (hc : goesOnZero c = true) (h : numberBody ('0' :: c :: text) = some (value, rest)) :
    Takes numberBody ('0' :: c :: text) value rest := by
  cases hb : baseOf? c with
  | some base =>
    have hle : base ≤ 16 := by
      unfold baseOf? at hb
      split at hb <;> simp_all <;> omega
    simp only [numberBody, hb] at h
    refine (baseNumber_scans hle _ _ _ h).passed ['0', c] (f := id) fun tail new ht => ?_
    simpa [numberBody, hb] using ht
  | none =>
    have hd : c.isDigit = true := by simpa [goesOnZero, hb] using hc
    simp only [numberBody, hb, hd, if_true, legacyNumber_eq hd] at h
    have scans : Scans _ := (span_scans Char.isDigit (not_of_closer (by decide))).bind
      fun digits => legacyRest_scans ('0' :: c :: digits)
    refine (scans _ _ _ h).passed ['0', c] (f := id) fun tail new ht => ?_
    simpa [numberBody, hb, hd, legacyNumber_eq hd] using ht

theorem numberBody_scans : Scans numberBody := by
  intro text value rest h
  cases text with
  | nil => simp [numberBody, someDigits] at h
  | cons c text =>
    by_cases hp : c = '.'
    · subst hp
      rw [numberBody_point] at h
      refine (numberBehind_scans '.' _ _ _ h).passed ['.'] (f := id) fun tail new ht => ?_
      simpa [numberBody_point] using ht
    · by_cases h0 : c = '0'
      · subst h0
        cases hg : text.head?.any goesOnZero with
        | true =>
          obtain ⟨c, tail, rfl⟩ : ∃ c tail, text = c :: tail := by
            cases text with
            | nil => simp at hg
            | cons c tail => exact ⟨c, tail, rfl⟩
          exact numberBody_goesOnZero (by simpa using hg) h
        | false =>
          rw [numberBody_zero hg] at h
          obtain ⟨taken, rfl, same⟩ := decimalRest_scans ['0'] _ _ _ h
          refine ⟨'0' :: taken, rfl, fun new hn => ?_⟩
          have := (hn.append taken).stops goesOnZero (not_of_closer (by decide)) hg
          rw [List.cons_append, numberBody_zero this, same new hn]
      · rw [numberBody_plain text hp h0] at h
        refine (numberBehind_scans c _ _ _ h).passed [c] (f := id) fun tail new ht => ?_
        simpa [numberBody_plain _ hp h0] using ht

theorem number_scans : Scans number := by
  have eq (text : List Char) : number text = (numberBody text).bind fun found =>
      if found.2.head?.any (fun c => isIdentifierStart c || c.isDigit) then none
      else some found := by
    unfold number
    cases numberBody text with
    | none => rfl
    | some found =>
      obtain ⟨token, rest⟩ := found
      cases rest <;> rfl
  rw [funext eq]
  exact numberBody_scans.bind fun token => guard_scans _ (not_of_closer (by decide)) token

/-! ## Tokens of numbers -/

/-- Whether a token is a number or a bigint. -/
def Token.isNumeric : Token → Bool
  | .number _ | .bigint _ => true
  | _ => false

theorem fractionAndExponent_numeric {whole text rest : List Char} {token : Token}
    (h : fractionAndExponent whole text = some (token, rest)) : token.isNumeric = true := by
  rw [fractionAndExponent_eq] at h
  obtain ⟨⟨fraction, text⟩, -, h⟩ := Option.bind_eq_some_iff.mp h
  obtain ⟨⟨exponent, rest⟩, -, h⟩ := Option.map_eq_some_iff.mp h
  obtain ⟨rfl, rfl⟩ := Prod.mk.inj h
  rfl

theorem legacyNumber_numeric {text rest : List Char} {token : Token}
    (h : legacyNumber text = some (token, rest)) : token.isNumeric = true := by
  unfold legacyNumber at h
  dsimp only at h
  split at h
  · obtain ⟨rfl, rfl⟩ := Prod.mk.inj (Option.some.inj h)
    rfl
  · exact fractionAndExponent_numeric h

theorem wholeOrBigint_numeric (value : Nat) (text : List Char) :
    (wholeOrBigint value text).1.isNumeric = true := by
  unfold wholeOrBigint
  split <;> rfl

theorem numberBody_numeric {text rest : List Char} {token : Token}
    (h : numberBody text = some (token, rest)) : token.isNumeric = true := by
  unfold numberBody at h
  split at h
  · exact fractionAndExponent_numeric h
  · split at h
    next base _ =>
      obtain ⟨⟨digits, behind⟩, -, h⟩ := Option.map_eq_some_iff.mp h
      have hn := wholeOrBigint_numeric (digitsValue base digits) behind
      rw [show wholeOrBigint (digitsValue base digits) behind = (token, rest) from h] at hn
      exact hn
    · split at h
      · exact legacyNumber_numeric h
      · split at h
        · obtain ⟨rfl, rfl⟩ := Prod.mk.inj (Option.some.inj h)
          rfl
        · exact fractionAndExponent_numeric h
  · obtain ⟨⟨digits, behind⟩, -, h⟩ := Option.bind_eq_some_iff.mp h
    dsimp only at h
    split at h
    · obtain ⟨rfl, rfl⟩ := Prod.mk.inj (Option.some.inj h)
      rfl
    · exact fractionAndExponent_numeric h

theorem number_numeric {text rest : List Char} {token : Token}
    (h : number text = some (token, rest)) : token.isNumeric = true := by
  obtain ⟨⟨token', rest'⟩, hb, h⟩ := Option.bind_eq_some_iff.mp h
  obtain rfl : token' = token := by
    cases rest' with
    | nil => exact (Prod.mk.inj (Option.some.inj h)).1
    | cons c rest' =>
      dsimp only at h
      split at h
      · cases h
      · exact (Prod.mk.inj (Option.some.inj h)).1
  exact numberBody_numeric hb

end Collector.Script
