import Mathlib.Data.List.TakeWhile
import Collector.Proofs.Script.Words
import Collector.Text.Character

/-!
# How tokens are spelled

The text of a name is made of the characters of identifiers and of escapes, so it holds no blanks.
Other tokens may hold some, but none ends with one: `tokenAt_tight`. Nor do the pieces of a template
and regular expressions, which stand between tokens: `quasi_tight` and `regex_tight`.
-/

namespace Collector.Script

open Collector.Text

variable {α β : Type}

/-- A text without blanks. -/
def Solid (text : List Char) : Prop := ∀ c ∈ text, isBlank c = false

theorem isBlank_of_part {c : Char} (h : isIdentifierPart c = true) : isBlank c = false := by
  refine Bool.eq_false_iff.mpr fun hb => ?_
  cases h.symm.trans (isIdentifierPart_space (isSpace_of_blank hb))

theorem isIdentifierPart_of_hexDigit {c : Char} (h : isDigitIn 16 c = true) :
    isIdentifierPart c = true := by
  have hdigit : c.isDigit = true ∨ c.isAlpha = true := by
    simp only [isDigitIn, digitValue] at h
    split at h
    next hd => exact .inl hd
    · right
      rw [isAlpha_iff]
      split at h
      next hlower =>
        rw [Char.le_def, Char.le_def, UInt32.le_iff_toNat_le, UInt32.le_iff_toNat_le] at hlower
        exact .inr ⟨hlower.1, hlower.2.trans (by decide)⟩
      · split at h
        next hupper =>
          rw [Char.le_def, Char.le_def, UInt32.le_iff_toNat_le, UInt32.le_iff_toNat_le] at hupper
          exact .inl ⟨hupper.1, hupper.2.trans (by decide)⟩
        · exact absurd h (by decide)
  rcases hdigit with hd | ha
  · simp [isIdentifierPart, hd]
  · simp [isIdentifierPart, isIdentifierStart, ha]

/-- The characters that names are spelled with: those of identifiers, and those of escapes. -/
def isNamePiece (c : Char) : Bool :=
  isIdentifierPart c || c == '\\' || c == '\x7b' || c == '\x7d'

/-- A text that could be a piece of a name. -/
def Spelled (text : List Char) : Prop := ∀ c ∈ text, isNamePiece c = true

theorem isNamePiece_of_part {c : Char} (h : isIdentifierPart c = true) : isNamePiece c = true := by
  simp [isNamePiece, h]

theorem IsWord.spelled {word : String} (h : IsWord word) : Spelled word.toList :=
  fun _ hc => isNamePiece_of_part (h.part hc)

theorem Spelled.solid {text : List Char} (h : Spelled text) : Solid text := by
  intro c hc
  have hpiece := h c hc
  simp only [isNamePiece, Bool.or_eq_true, beq_iff_eq] at hpiece
  rcases hpiece with ((hpart | rfl) | rfl) | rfl
  · exact isBlank_of_part hpart
  all_goals decide

/-! ## Names -/

theorem hexDigits_spelled {count value n : Nat} {text rest : List Char}
    (h : hexDigits count value text = some (n, rest)) :
    ∃ taken, text = taken ++ rest ∧ Spelled taken := by
  induction count generalizing value text with
  | zero =>
    obtain ⟨rfl, rfl⟩ := Prod.mk.inj (Option.some.inj h)
    exact ⟨[], rfl, nofun⟩
  | succ count ih =>
    obtain ⟨c, tail, rfl, hc⟩ := hexDigits_head h
    rw [hexDigits, if_pos hc] at h
    obtain ⟨taken, rfl, hs⟩ := ih h
    exact ⟨c :: taken, rfl, List.forall_mem_cons.mpr ⟨isNamePiece_of_part (isIdentifierPart_of_hexDigit hc), hs⟩⟩

theorem bracedPoint_closed {digits text rest : List Char} {n : Nat}
    (h : bracedPoint digits text = some (n, rest)) : text = '\x7d' :: rest := by
  unfold bracedPoint at h
  split at h
  · split at h
    · cases h
    · obtain ⟨-, rfl⟩ := Prod.mk.inj (Option.some.inj h)
      rfl
  · cases h

theorem codePoint_spelled {text rest : List Char} {n : Nat} (h : codePoint text = some (n, rest)) :
    ∃ taken, text = taken ++ rest ∧ Spelled taken := by
  cases hb : text.head?.any (· == '\x7b') with
  | false =>
    rw [codePoint_plain hb] at h
    exact hexDigits_spelled h
  | true =>
    obtain ⟨tail, rfl⟩ := head_eq hb
    rw [codePoint_braced, Option.bind_some] at h
    have hbehind := bracedPoint_closed h
    refine ⟨'\x7b' :: (tail.takeWhile (isDigitIn 16) ++ ['\x7d']), ?_, ?_⟩
    · rw [List.cons_append, List.append_assoc, List.singleton_append, ← hbehind,
        List.takeWhile_append_dropWhile]
    · intro c hc
      rcases List.mem_cons.mp hc with rfl | hc
      · decide
      · rcases List.mem_append.mp hc with hc | hc
        · exact isNamePiece_of_part (isIdentifierPart_of_hexDigit (List.mem_takeWhile_imp hc))
        · obtain rfl := List.mem_singleton.mp hc
          decide

/-- A name is spelled with pieces of names, and without escapes it is its spelling. -/
theorem nameRest_spelled {fuel : Nat} {text rest : List Char} {found : List Char × Bool}
    (h : nameRest fuel text = some (found, rest)) :
    ∃ taken, text = taken ++ rest ∧ Spelled taken ∧ ('\\' ∉ taken → found.1 = taken) := by
  induction fuel generalizing text rest found with
  | zero => cases h
  | succ fuel ih =>
    rcases nameRest_cases h with ⟨tail, rfl⟩ | ⟨c, tail, rfl, hc⟩ | hstop
    · rw [nameRest_escape] at h
      obtain ⟨⟨n, behind⟩, hn, h⟩ := Option.bind_eq_some_iff.mp h
      dsimp only at h
      split at h
      next =>
        obtain ⟨⟨⟨more, escaped⟩, rest'⟩, hs, h⟩ := Option.map_eq_some_iff.mp h
        obtain ⟨-, rfl⟩ := Prod.mk.inj h
        obtain ⟨first, rfl, hfirst⟩ := codePoint_spelled hn
        obtain ⟨taken, rfl, htaken, -⟩ := ih hs
        refine ⟨'\\' :: 'u' :: (first ++ taken), by simp, ?_, fun hb => (hb (by simp)).elim⟩
        refine List.forall_mem_cons.mpr ⟨by decide, List.forall_mem_cons.mpr ⟨by decide, ?_⟩⟩
        exact List.forall_mem_append.mpr ⟨hfirst, htaken⟩
      · cases h
    · rw [nameRest_char hc] at h
      obtain ⟨⟨⟨more, escaped⟩, rest'⟩, hs, h⟩ := Option.map_eq_some_iff.mp h
      obtain ⟨rfl, rfl⟩ := Prod.mk.inj h
      obtain ⟨taken, rfl, htaken, hsame⟩ := ih hs
      have hspelled : Spelled (c :: taken) :=
        List.forall_mem_cons.mpr ⟨isNamePiece_of_part hc, htaken⟩
      refine ⟨c :: taken, rfl, hspelled, fun hb => ?_⟩
      exact congrArg (c :: ·) (hsame fun hmem => hb (List.mem_cons_of_mem c hmem))
    · rw [nameRest_stop hstop] at h
      obtain ⟨rfl, rfl⟩ := Prod.mk.inj (Option.some.inj h)
      exact ⟨[], rfl, nofun, fun _ => rfl⟩

theorem name_spelled {text rest : List Char} {found : String × Bool}
    (h : name text = some (found, rest)) :
    ∃ taken, text = taken ++ rest ∧ Spelled taken ∧ ('\\' ∉ taken → found.1.toList = taken) := by
  rw [name_eq] at h
  split at h
  · obtain ⟨⟨⟨cs, escaped⟩, rest'⟩, hs, h⟩ := Option.map_eq_some_iff.mp h
    obtain ⟨rfl, rfl⟩ := Prod.mk.inj h
    obtain ⟨taken, rfl, htaken, hsame⟩ := nameRest_spelled hs
    exact ⟨taken, rfl, htaken, fun hb => String.toList_ofList.trans (hsame hb)⟩
  · cases h

/-- A word is a name. -/
theorem tokenAt_word {text rest : List Char} {id : String} {escaped : Bool}
    (h : tokenAt text = (.word id escaped, rest)) :
    ∃ c tail, text = c :: tail ∧ (c = '\\' ∨ isIdentifierStart c = true) ∧
      name text = some ((id, escaped), rest) := by
  cases text with
  | nil => cases h
  | cons c text =>
    refine ⟨c, text, rfl, ?_⟩
    rw [tokenAt_cons] at h
    cases hs : tokenScan (c :: text) with
    | none =>
      rw [hs] at h
      cases h
    | some found =>
      obtain rfl : found = (.word id escaped, rest) := by simpa [hs] using h
      rw [tokenScan_cons] at hs
      split at hs
      · obtain ⟨found, -, hs⟩ := Option.map_eq_some_iff.mp hs
        cases hs
      · split at hs
        · obtain ⟨found, -, hs⟩ := Option.map_eq_some_iff.mp hs
          cases hs
        · split at hs
          · cases number_numeric hs
          · split at hs
            next hc =>
              obtain ⟨⟨found, rest'⟩, hn, hs⟩ := Option.map_eq_some_iff.mp hs
              cases hs
              exact ⟨by simpa using hc, hn⟩
            · obtain ⟨found, -, hs⟩ := Option.map_eq_some_iff.mp hs
              cases hs

/-! ## Ends without blanks -/

/-- What stands in front of the rest of a text is empty or ends with a character that is no blank. -/
def Tight (text rest : List Char) : Prop :=
  text = rest ∨ ∃ front last, text = front ++ last :: rest ∧ isBlank last = false

namespace Tight

variable {text text' rest : List Char}

theorem refl (text : List Char) : Tight text text := .inl rfl

theorem of_last {last : Char} (h : isBlank last = false) (front rest : List Char) :
    Tight (front ++ last :: rest) rest :=
  .inr ⟨front, last, rfl, h⟩

theorem cons {c : Char} (h : isBlank c = false) (rest : List Char) : Tight (c :: rest) rest :=
  of_last h [] rest

theorem suffix (h : Tight text rest) : rest <:+ text := by
  rcases h with rfl | ⟨front, last, rfl, -⟩
  · exact List.suffix_rfl
  · exact ⟨front ++ [last], by simp⟩

theorem trans (h : Tight text text') (h' : Tight text' rest) : Tight text rest := by
  rcases h' with rfl | ⟨front, last, rfl, hlast⟩
  · exact h
  · obtain ⟨before, hb⟩ := h.suffix
    refine .inr ⟨before ++ front, last, ?_, hlast⟩
    rw [← hb, List.append_assoc]

theorem of_solid {taken : List Char} (h : Solid taken) (rest : List Char) :
    Tight (taken ++ rest) rest := by
  induction taken with
  | nil => exact refl rest
  | cons c taken ih =>
    obtain ⟨hc, hrest⟩ := List.forall_mem_cons.mp h
    exact (cons hc _).trans (ih hrest)

/-- What ends without a blank does so from any place before its end. -/
theorem of_suffix (h : Tight text rest) (hs : rest <:+ text') (hs' : text' <:+ text) :
    Tight text' rest := by
  rcases List.eq_nil_or_concat hs.choose with hnil | ⟨front, last, hlast⟩
  · left
    rw [← hs.choose_spec, hnil, List.nil_append]
  · have hsplit : text' = front ++ last :: rest := by
      rw [← hs.choose_spec, hlast, List.concat_eq_append, List.append_assoc, List.singleton_append]
    obtain ⟨before, rfl⟩ := hs'
    rcases h with hsame | ⟨other, last', heq, hblank⟩
    · have hlength := congrArg List.length hsame
      rw [hsplit] at hlength
      simp at hlength
      omega
    · refine .inr ⟨front, last, hsplit, ?_⟩
      rw [hsplit, ← List.append_assoc] at heq
      have hends := List.append_inj_right' heq rfl
      rwa [(List.cons.inj hends).1]

end Tight

/-- A scanner ends behind a character that is no blank. -/
def EndsTight (scan : Scanner α) : Prop :=
  ∀ text value rest, scan text = some (value, rest) → Tight text rest

namespace EndsTight

theorem map {scan : Scanner α} (h : EndsTight scan) (f : α → β) :
    EndsTight fun text => (scan text).map fun (value, rest) => (f value, rest) := by
  intro text value rest hs
  obtain ⟨⟨v, r⟩, hv, hr⟩ := Option.map_eq_some_iff.mp hs
  obtain ⟨rfl, rfl⟩ := Prod.mk.inj hr
  exact h text v r hv

theorem bind {scan : Scanner α} {k : α → Scanner β} (h : EndsTight scan)
    (hk : ∀ value, EndsTight (k value)) :
    EndsTight fun text => (scan text).bind fun (value, rest) => k value rest := by
  intro text value rest hs
  obtain ⟨⟨v, r⟩, hv, hr⟩ := Option.bind_eq_some_iff.mp hs
  exact (h text v r hv).trans (hk v r value rest hr)

end EndsTight

theorem name_tight : EndsTight name := by
  intro text found rest h
  obtain ⟨taken, rfl, hs, -⟩ := name_spelled h
  exact .of_solid hs.solid rest

theorem takeWhile_tight {p : Char → Bool} (hp : ∀ c, p c = true → isBlank c = false)
    (text : List Char) : Tight text (text.dropWhile p) := by
  have htaken : Solid (text.takeWhile p) := fun c hc => hp c (List.mem_takeWhile_imp hc)
  have htight := Tight.of_solid htaken (text.dropWhile p)
  rwa [List.takeWhile_append_dropWhile] at htight

/-! ## Numbers -/

theorem isBlank_of_digitIn {base : Nat} (hb : base ≤ 16) {c : Char} (h : isDigitIn base c = true) :
    isBlank c = false := by
  refine isBlank_of_part (isIdentifierPart_of_hexDigit ?_)
  simp only [isDigitIn, decide_eq_true_eq] at h ⊢
  omega

theorem isBlank_of_digit {c : Char} (h : c.isDigit = true) : isBlank c = false :=
  isBlank_of_part (by simp [isIdentifierPart, h])

theorem moreDigits_tight {base : Nat} (hb : base ≤ 16) : EndsTight (moreDigits base) := by
  intro text
  induction text using moreDigits.induct base with
  | case1 =>
    rintro value rest ⟨⟩
    exact .refl []
  | case2 c text hc ih =>
    intro value rest h
    simp only [moreDigits, hc, if_true, Option.map_eq_some_iff] at h
    obtain ⟨⟨digits, rest'⟩, hd, he⟩ := h
    obtain ⟨rfl, rfl⟩ := Prod.mk.inj he
    have hfront : Tight ('_' :: c :: text) (c :: text) := .cons (by decide) _
    exact hfront.trans ((Tight.cons (isBlank_of_digitIn hb hc) text).trans (ih _ _ hd))
  | case3 c text hc =>
    intro value rest h
    simp [moreDigits, hc] at h
  | case4 c text hne hc ih =>
    intro value rest h
    rw [moreDigits.eq_3 base c text hne] at h
    simp only [hc, if_true, Option.map_eq_some_iff] at h
    obtain ⟨⟨digits, rest'⟩, hd, he⟩ := h
    obtain ⟨rfl, rfl⟩ := Prod.mk.inj he
    exact (Tight.cons (isBlank_of_digitIn hb hc) text).trans (ih _ _ hd)
  | case5 c text hne hc hu =>
    intro value rest h
    rw [moreDigits.eq_3 base c text hne] at h
    simp [hc, hu] at h
  | case6 c text hne hc hu =>
    intro value rest h
    rw [moreDigits.eq_3 base c text hne] at h
    simp only [hc, hu, Bool.false_eq_true, if_false, Option.some.injEq, Prod.mk.injEq] at h
    obtain ⟨rfl, rfl⟩ := h
    exact .refl _

theorem someDigits_tight {base : Nat} (hb : base ≤ 16) : EndsTight (someDigits base) := by
  intro text value rest h
  obtain ⟨c, tail, rfl, hc⟩ := someDigits_head h
  simp only [someDigits, hc, if_true, Option.map_eq_some_iff] at h
  obtain ⟨⟨digits, rest'⟩, hd, he⟩ := h
  obtain ⟨rfl, rfl⟩ := Prod.mk.inj he
  exact (Tight.cons (isBlank_of_digitIn hb hc) tail).trans (moreDigits_tight hb _ _ _ hd)

theorem exponentDigits_tight (negative : Bool) : EndsTight (exponentDigits negative) :=
  (someDigits_tight (show 10 ≤ 16 by decide)).map fun digits =>
    if negative then -((digitsValue 10 digits : Nat) : Int) else (digitsValue 10 digits : Nat)

theorem optionalExponent_tight : EndsTight optionalExponent := by
  intro text value rest h
  cases text with
  | nil =>
    obtain ⟨rfl, rfl⟩ : 0 = value ∧ [] = rest := by simpa [optionalExponent] using h
    exact .refl []
  | cons c text =>
    cases hc : c == 'e' || c == 'E' with
    | false =>
      obtain ⟨rfl, rfl⟩ : 0 = value ∧ c :: text = rest := by simpa [optionalExponent, hc] using h
      exact .refl _
    | true =>
      have hletter : isBlank c = false := by
        rcases Bool.or_eq_true_iff.mp hc with hc | hc <;> rw [beq_iff_eq.mp hc] <;> decide
      rw [optionalExponent_sign c hc] at h
      refine (Tight.cons hletter text).trans ?_
      split at h
      · exact (Tight.cons (by decide) _).trans (exponentDigits_tight false _ _ _ h)
      · exact (Tight.cons (by decide) _).trans (exponentDigits_tight true _ _ _ h)
      · exact exponentDigits_tight false _ _ _ h

theorem digitsOrNone_tight : EndsTight digitsOrNone := by
  intro text value rest h
  unfold digitsOrNone at h
  split at h
  · exact someDigits_tight (by decide) _ _ _ h
  · obtain ⟨-, rfl⟩ := Prod.mk.inj (Option.some.inj h)
    exact .refl text

theorem fractionDigits_tight : EndsTight fractionDigits := by
  intro text value rest h
  unfold fractionDigits at h
  split at h
  · exact (Tight.cons (by decide) _).trans (digitsOrNone_tight _ _ _ h)
  · obtain ⟨-, rfl⟩ := Prod.mk.inj (Option.some.inj h)
    exact .refl text

theorem fractionAndExponent_tight (whole : List Char) : EndsTight (fractionAndExponent whole) := by
  rw [funext (fractionAndExponent_eq whole)]
  exact fractionDigits_tight.bind fun fraction => optionalExponent_tight.map fun exponent : Int =>
    Token.number (Double.ofDecimal false (digitsValue 10 (whole ++ fraction))
      (exponent - fraction.length))

theorem legacyNumber_tight : EndsTight legacyNumber := by
  intro text value rest h
  unfold legacyNumber at h
  dsimp only at h
  have hdigits := takeWhile_tight (fun c => isBlank_of_digit) text
  split at h
  · obtain ⟨-, rfl⟩ := Prod.mk.inj (Option.some.inj h)
    exact hdigits
  · exact hdigits.trans (fractionAndExponent_tight _ _ _ _ h)

theorem wholeOrBigint_tight (value : Nat) (text : List Char) :
    Tight text (wholeOrBigint value text).2 := by
  unfold wholeOrBigint
  split
  · exact .cons (by decide) _
  · exact .refl text

theorem numberBody_tight : EndsTight numberBody := by
  intro text value rest h
  unfold numberBody at h
  split at h
  · exact fractionAndExponent_tight _ _ _ _ h
  next c text =>
    split at h
    next base hbase =>
      have hb : base ≤ 16 := by
        unfold baseOf? at hbase
        split at hbase <;> simp_all <;> omega
      have hletter : isBlank c = false := by
        unfold baseOf? at hbase
        split at hbase <;> first | decide | cases hbase
      obtain ⟨⟨digits, behind⟩, hd, h⟩ := Option.map_eq_some_iff.mp h
      have hwhole := wholeOrBigint_tight (digitsValue base digits) behind
      rw [show wholeOrBigint (digitsValue base digits) behind = (value, rest) from h] at hwhole
      have hzero : Tight ('0' :: c :: text) (c :: text) := .cons (by decide) _
      exact (hzero.trans (.cons hletter text)).trans ((someDigits_tight hb _ _ _ hd).trans hwhole)
    · split at h
      · exact legacyNumber_tight _ _ _ h
      · have hzero : Tight ('0' :: c :: text) (c :: text) := .cons (by decide) _
        split at h
        next hn =>
          obtain ⟨-, rfl⟩ := Prod.mk.inj (Option.some.inj h)
          obtain rfl := beq_iff_eq.mp hn
          exact hzero.trans (.cons (by decide) _)
        · exact hzero.trans (fractionAndExponent_tight _ _ _ _ h)
  · obtain ⟨⟨digits, behind⟩, hd, h⟩ := Option.bind_eq_some_iff.mp h
    refine (someDigits_tight (by decide) _ _ _ hd).trans ?_
    dsimp only at h
    split at h
    · obtain ⟨-, rfl⟩ := Prod.mk.inj (Option.some.inj h)
      exact .cons (by decide) _
    · exact fractionAndExponent_tight _ _ _ _ h

theorem number_tight : EndsTight number := by
  intro text value rest h
  obtain ⟨⟨token, behind⟩, hb, h⟩ := Option.bind_eq_some_iff.mp h
  obtain rfl : behind = rest := by
    cases behind with
    | nil => exact (Prod.mk.inj (Option.some.inj h)).2
    | cons c behind =>
      dsimp only at h
      split at h
      · cases h
      · exact (Prod.mk.inj (Option.some.inj h)).2
  exact numberBody_tight _ _ _ hb

/-! ## Strings and punctuators -/

theorem stringUnits_closed {quote : Char} (fuel : Nat) {text rest : List Char}
    {units : List CodeUnit} (h : stringUnits quote fuel text = some (units, rest)) :
    ∃ front, text = front ++ quote :: rest := by
  induction fuel generalizing text units with
  | zero => cases h
  | succ fuel ih =>
    cases text with
    | nil => cases h
    | cons c text =>
      by_cases hb : c = '\\'
      · subst hb
        obtain ⟨⟨first, behind⟩, he, h⟩ := Option.bind_eq_some_iff.mp h
        obtain ⟨⟨more, rest'⟩, hs, h⟩ := Option.bind_eq_some_iff.mp h
        obtain ⟨-, rfl⟩ := Prod.mk.inj (Option.some.inj h)
        obtain ⟨taken, rfl, -⟩ := escape_scans true _ _ _ he
        obtain ⟨front, rfl⟩ := ih hs
        exact ⟨'\\' :: (taken ++ front), by simp⟩
      · rw [stringUnits_char hb] at h
        split at h
        next hq =>
          obtain ⟨-, rfl⟩ := Prod.mk.inj (Option.some.inj h)
          exact ⟨[], by rw [beq_iff_eq.mp hq, List.nil_append]⟩
        · split at h
          · cases h
          · obtain ⟨⟨more, rest'⟩, hs, h⟩ := Option.map_eq_some_iff.mp h
            obtain ⟨-, rfl⟩ := Prod.mk.inj h
            obtain ⟨front, rfl⟩ := ih hs
            exact ⟨c :: front, rfl⟩

theorem string_tight {quote : Char} (hq : isBlank quote = false) : EndsTight (string quote) := by
  intro text value rest h
  obtain ⟨⟨units, rest'⟩, hs, h⟩ := Option.map_eq_some_iff.mp h
  obtain ⟨-, rfl⟩ := Prod.mk.inj h
  obtain ⟨front, rfl⟩ := stringUnits_closed _ hs
  exact .of_last hq front _

theorem spellings_solid : ∀ entry ∈ spellings, ∀ c ∈ entry.1, isBlank c = false := by
  have hall : spellings.all (fun entry => entry.1.all fun c => !isBlank c) = true := by rfl
  intro entry hentry c hc
  have hsolid := List.all_eq_true.mp (List.all_eq_true.mp hall entry hentry) c hc
  simpa using hsolid

theorem punctuator?_tight : EndsTight punctuator? := by
  intro text p rest h
  obtain ⟨taken, rfl, hf⟩ := punctuator?_eq_some h
  exact .of_solid (spellings_solid _ (List.mem_of_find?_eq_some hf)) rest

/-- No token ends with a blank. -/
theorem tokenAt_tight {text rest : List Char} {token : Token} (h : tokenAt text = (token, rest)) :
    Tight text rest := by
  cases text with
  | nil =>
    obtain ⟨-, rfl⟩ := Prod.mk.inj h
    exact .refl []
  | cons c text =>
    rw [tokenAt_cons] at h
    cases hs : tokenScan (c :: text) with
    | none =>
      rw [hs] at h
      obtain ⟨-, rfl⟩ := Prod.mk.inj h
      exact .refl _
    | some found =>
      obtain rfl : found = (token, rest) := by simpa [hs] using h
      rw [tokenScan_cons] at hs
      split at hs
      next hquote =>
        have hblank : isBlank c = false := by
          rcases Bool.or_eq_true_iff.mp hquote with hc | hc <;> rw [beq_iff_eq.mp hc] <;> decide
        exact (Tight.cons hblank text).trans (string_tight hblank _ _ _ hs)
      · split at hs
        next hsign =>
          obtain ⟨⟨⟨id, escaped⟩, rest'⟩, hn, hs⟩ := Option.map_eq_some_iff.mp hs
          obtain ⟨-, rfl⟩ := Prod.mk.inj hs
          obtain rfl := beq_iff_eq.mp hsign
          exact (Tight.cons (by decide) text).trans (name_tight _ _ _ hn)
        · split at hs
          · exact number_tight _ _ _ hs
          · split at hs
            · obtain ⟨⟨⟨id, escaped⟩, rest'⟩, hn, hs⟩ := Option.map_eq_some_iff.mp hs
              obtain ⟨-, rfl⟩ := Prod.mk.inj hs
              exact name_tight _ _ _ hn
            · obtain ⟨⟨p, rest'⟩, hp, hs⟩ := Option.map_eq_some_iff.mp hs
              obtain ⟨-, rfl⟩ := Prod.mk.inj hs
              exact punctuator?_tight _ _ _ hp

/-! ## Templates and regular expressions -/

theorem quasi_tight : EndsTight quasi := by
  intro text value rest h
  obtain ⟨⟨piece, rest'⟩, hp, h⟩ := Option.map_eq_some_iff.mp h
  obtain ⟨-, rfl⟩ := Prod.mk.inj h
  obtain ⟨front, e, back, he, hback, rfl, -⟩ := templateText_takes _ hp
  rcases hback with rfl | rfl
  · have hlast : isBlank e = false := by rcases endsPiece_cases he with rfl | rfl <;> decide
    rw [List.append_assoc]
    exact .of_last hlast front _
  · have hsplit : front ++ [e, '\x7b'] ++ rest' = (front ++ [e]) ++ '\x7b' :: rest' := by simp
    rw [hsplit]
    exact .of_last (by decide) _ _

theorem regexBody_closed {inClass : Bool} {text body rest : List Char}
    (h : regexBody inClass text = some (body, rest)) : ∃ front, text = front ++ '/' :: rest := by
  induction inClass, text using regexBody.induct generalizing body rest with
  | case1 inClass => simp [regexBody] at h
  | case2 inClass c text hl => simp [regexBody, hl] at h
  | case3 inClass c text hl ih =>
    rw [regexBody, if_neg hl] at h
    obtain ⟨⟨more, rest'⟩, hs, h⟩ := Option.map_eq_some_iff.mp h
    obtain ⟨-, rfl⟩ := Prod.mk.inj h
    obtain ⟨front, rfl⟩ := ih hs
    exact ⟨'\\' :: c :: front, rfl⟩
  | case4 inClass c text hne hl =>
    rw [regexBody.eq_3 inClass c text hne, if_pos hl] at h
    cases h
  | case5 inClass c text hne hl hq =>
    rw [regexBody.eq_3 inClass c text hne, if_neg hl, if_pos hq] at h
    obtain ⟨-, rfl⟩ := Prod.mk.inj (Option.some.inj h)
    obtain rfl : c = '/' := beq_iff_eq.mp (Bool.and_eq_true_iff.mp hq).1
    exact ⟨[], rfl⟩
  | case6 inClass c text hne hl hq inner =>
    rename_i ih
    rw [regexBody.eq_3 inClass c text hne, if_neg hl, if_neg hq] at h
    obtain ⟨⟨more, rest'⟩, hs, h⟩ := Option.map_eq_some_iff.mp h
    obtain ⟨-, rfl⟩ := Prod.mk.inj h
    obtain ⟨front, rfl⟩ := ih hs
    exact ⟨c :: front, rfl⟩

theorem regex_tight : EndsTight regex := by
  intro text value rest h
  obtain ⟨⟨body, behind⟩, hb, hgood⟩ := Option.bind_eq_some_iff.mp h
  obtain ⟨front, rfl⟩ := regexBody_closed hb
  have hflags := takeWhile_tight (fun c => isBlank_of_part) behind
  dsimp only at hgood
  split at hgood
  · obtain ⟨-, rfl⟩ := Prod.mk.inj (Option.some.inj hgood)
    exact (Tight.of_last (by decide) front behind).trans hflags
  · cases hgood

end Collector.Script
