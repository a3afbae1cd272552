import Collector.Function.Name
import Collector.Proofs.Script.Lexing

/-!
# Words and brackets at the front of a text

What the lexer reads where a text begins with a word or with a bracket, without anything before it.
-/

namespace Collector.Script

open Collector.Text

/-! ## Fronts without white space -/

theorem Begins.of_head {newline : Bool} {c : Char} (rest : List Char) (hl : isLineEnd c = false)
    (hg : isGap c = false) (hc : c ≠ '/' ∧ c ≠ '<' ∧ c ≠ '-') : Begins newline (c :: rest) where
  head := ⟨c, rest, rfl, hl, hg⟩
  noLine := by simpa using fun h => absurd h.symm hc.1
  noBlock := by simpa using fun h => absurd h.symm hc.1
  noOpening := by simpa using fun h => absurd h.symm hc.2.1
  noClosing := by simpa using fun _ h => absurd h.symm hc.2.2

/-- A token at the very front of a text. -/
theorem lex_front {origin : Origin} {text : List Char} (h : ∀ newline, Begins newline text)
    (hs : ¬ ['#', '!'] <+: text) :
    lex origin text =
      ⟨(tokenAt text).1, origin != .inside, text, (tokenAt text).2⟩ := by
  have hb : skipBefore origin text = some (origin != .inside, text) := by
    cases origin with
    | inside => exact skipGap_of_begins (h false)
    | expression => exact skipGap_of_begins (h true)
    | script =>
      rw [skipBefore_script hs]
      exact skipGap_of_begins (h true)
  simp [lex, hb]

/-! ## Brackets -/

/-- The brackets of blocks and lists, the comma and the semicolon. -/
def brackets : List (Char × Punctuator) :=
  [('(', .openParen), (')', .closeParen), ('\x7b', .openBrace), ('\x7d', .closeBrace),
    (',', .comma), (';', .semicolon)]

/-- A bracket at the very front of a text. -/
theorem lex_bracket {origin : Origin} {c : Char} {p : Punctuator} (rest : List Char)
    (h : (c, p) ∈ brackets) :
    lex origin (c :: rest) = ⟨.punctuator p, origin != .inside, c :: rest, rest⟩ := by
  simp only [brackets, List.mem_cons, Prod.mk.injEq, List.not_mem_nil, or_false] at h
  rcases h with ⟨rfl, rfl⟩ | ⟨rfl, rfl⟩ | ⟨rfl, rfl⟩ | ⟨rfl, rfl⟩ | ⟨rfl, rfl⟩ | ⟨rfl, rfl⟩ <;>
    exact lex_front (fun _ => .of_head rest (by decide) (by decide) (by decide)) (by simp)

/-! ## Space -/

/-- The characters that are white space in one sense or another. -/
def spaceRanges : List (Nat × Nat) :=
  [(0x09, 0x0D), (0x20, 0x20), (0x85, 0x85), (0xA0, 0xA0), (0x1680, 0x1680), (0x2000, 0x200B),
    (0x2028, 0x2029), (0x202F, 0x202F), (0x205F, 0x205F), (0x3000, 0x3000), (0xFEFF, 0xFEFF)]

/-- Whether no point lies in a range of each of two lists. -/
def areApart (left right : List (Nat × Nat)) : Bool :=
  left.all fun r => right.all fun s => Nat.blt r.2 s.1 || Nat.blt s.2 r.1

theorem inRanges_of_apart {left right : List (Nat × Nat)} (h : areApart left right = true) {c : Char}
    (hc : inRanges left c = true) : inRanges right c = false := by
  obtain ⟨r, hr, hin⟩ := List.any_eq_true.mp hc
  refine Bool.eq_false_iff.mpr fun hd => ?_
  obtain ⟨s, hs, hin'⟩ := List.any_eq_true.mp hd
  have hapart := List.all_eq_true.mp (List.all_eq_true.mp h r hr) s hs
  simp only [Bool.or_eq_true, Bool.and_eq_true, decide_eq_true_eq, Nat.blt_eq] at hin hin' hapart
  omega

theorem space_apart : areApart spaceRanges startRanges = true ∧
    areApart spaceRanges continueRanges = true ∧
    areApart spaceRanges [(0x24, 0x24), (0x30, 0x39), (0x41, 0x5A), (0x5F, 0x5F), (0x61, 0x7A),
      (0x200C, 0x200D)] = true := by
  decide +kernel

/-- The letters, by their codes. -/
theorem isAlpha_iff {c : Char} : c.isAlpha = true ↔
    65 ≤ c.toNat ∧ c.toNat ≤ 90 ∨ 97 ≤ c.toNat ∧ c.toNat ≤ 122 := by
  have hletter : c.isAlpha = (decide (65 ≤ c.toNat ∧ c.toNat ≤ 90) ||
      (decide (97 ≤ c.toNat) && decide (c.toNat ≤ 122))) := rfl
  simp only [hletter, Bool.or_eq_true, Bool.and_eq_true, decide_eq_true_eq]

/-- No identifier has a space in it. -/
theorem isIdentifierPart_space {c : Char} (h : inRanges spaceRanges c = true) :
    isIdentifierPart c = false := by
  obtain ⟨hstart, hcontinue, hothers⟩ := space_apart
  have hothers := inRanges_of_apart hothers h
  simp only [inRanges, List.any_cons, List.any_nil, Bool.or_false, Bool.or_eq_false_iff,
    Bool.and_eq_false_iff, decide_eq_false_iff_not] at hothers
  have hletter : c.isAlpha = false := by
    refine Bool.eq_false_iff.mpr fun ha => ?_
    have hrange := isAlpha_iff.mp ha
    omega
  have hdigit : c.isDigit = false := by
    refine Bool.eq_false_iff.mpr fun hd => ?_
    simp only [Char.isDigit, Bool.and_eq_true, decide_eq_true_eq, ge_iff_le,
      UInt32.le_iff_toNat_le] at hd
    have hrange : 48 ≤ c.toNat ∧ c.toNat ≤ 57 := hd
    omega
  have hne (d : Char) (hd : inRanges spaceRanges d = false) : (c == d) = false := by
    refine beq_false_of_ne ?_
    rintro rfl
    cases h.symm.trans hd
  simp [isIdentifierPart, isIdentifierStart, hletter, hdigit, inRanges_of_apart hstart h,
    inRanges_of_apart hcontinue h, hne '$' (by decide), hne '_' (by decide),
    hne '\u200c' (by decide), hne '\u200d' (by decide)]

theorem isSpace_of_lineEnd {c : Char} (h : isLineEnd c = true) : inRanges spaceRanges c = true := by
  simp only [isLineEnd, Bool.or_eq_true, beq_iff_eq] at h
  rcases h with ((rfl | rfl) | rfl) | rfl <;> decide

theorem isSpace_of_gap {c : Char} (h : isGap c = true) : inRanges spaceRanges c = true := by
  simp only [isGap, inRanges, List.any_cons, List.any_nil, Bool.or_false, Bool.or_eq_true,
    Bool.and_eq_true, decide_eq_true_eq, beq_iff_eq] at h
  rcases h with (rfl | rfl) | h
  · decide
  · decide
  · simp only [spaceRanges, inRanges, List.any_cons, List.any_nil, Bool.or_false, Bool.or_eq_true,
      Bool.and_eq_true, decide_eq_true_eq]
    omega

theorem isSpace_of_blank {c : Char} (h : isBlank c = true) : inRanges spaceRanges c = true := by
  simp only [isBlank, spaceRanges, inRanges, List.any_cons, List.any_nil, Bool.or_false,
    Bool.or_eq_true, Bool.and_eq_true, decide_eq_true_eq] at h ⊢
  omega

/-- Blanks may all stand between tokens. -/
theorem lineEnd_or_gap_of_blank {c : Char} (h : isBlank c = true) :
    isLineEnd c = true ∨ isGap c = true := by
  simp only [isBlank, isLineEnd, isGap, inRanges, List.any_cons, List.any_nil, Bool.or_false,
    Bool.or_eq_true, Bool.and_eq_true, decide_eq_true_eq, beq_iff_eq, ← Char.toNat_inj,
    Char.reduceToNat] at h ⊢
  omega

/-! ## Words -/

/-- A word that is spelled without escapes. -/
def IsWord (word : String) : Prop :=
  ∃ first rest, word.toList = first :: rest ∧ isIdentifierStart first = true ∧
    ∀ c ∈ rest, isIdentifierPart c = true

theorem isIdentifierStart_of_plain {c : Char} (h : isPlainStart c = true) :
    isIdentifierStart c = true := by
  simp only [isPlainStart, Bool.or_eq_true] at h
  simp only [isIdentifierStart, Bool.or_eq_true]
  exact .inl h

theorem isIdentifierPart_of_plain {c : Char} (h : (isPlainStart c || c.isDigit) = true) :
    isIdentifierPart c = true := by
  rw [Bool.or_eq_true] at h
  rcases h with h | h
  · exact isIdentifierPart_of_start (isIdentifierStart_of_plain h)
  · simp [isIdentifierPart, h]

theorem IsWord.of_plain {word : String} (h : isPlainName word = true) : IsWord word := by
  unfold isPlainName at h
  split at h
  · cases h
  next first rest hword =>
    obtain ⟨hfirst, hrest⟩ := Bool.and_eq_true_iff.mp h
    exact ⟨first, rest, hword, isIdentifierStart_of_plain hfirst,
      fun c hc => isIdentifierPart_of_plain (List.all_eq_true.mp hrest c hc)⟩

theorem IsWord.part {word : String} (h : IsWord word) {c : Char} (hc : c ∈ word.toList) :
    isIdentifierPart c = true := by
  obtain ⟨first, rest, hword, hfirst, hrest⟩ := h
  rw [hword] at hc
  rcases List.mem_cons.mp hc with rfl | hc
  · exact isIdentifierPart_of_start hfirst
  · exact hrest c hc

/-- A character that begins names is nothing else that a token could begin with. -/
theorem identifierStart_alone {c : Char} (h : isIdentifierStart c = true) :
    isLineEnd c = false ∧ isGap c = false ∧ (c ≠ '/' ∧ c ≠ '<' ∧ c ≠ '-') ∧ c ≠ '#' ∧
      c ≠ '"' ∧ c ≠ '\'' ∧ c ≠ '.' ∧ c.isDigit = false := by
  have hne (d : Char) (hd : isIdentifierStart d = false) : c ≠ d := by
    rintro rfl
    cases h.symm.trans hd
  have hspace : inRanges spaceRanges c = false := by
    refine Bool.eq_false_iff.mpr fun hs => ?_
    cases (isIdentifierPart_of_start h).symm.trans (isIdentifierPart_space hs)
  have hdigit : c.isDigit = false := by
    refine Bool.eq_false_iff.mpr fun hd => ?_
    have hrange : 48 ≤ c.toNat ∧ c.toNat ≤ 57 := by
      simp only [Char.isDigit, Bool.and_eq_true, decide_eq_true_eq, ge_iff_le,
        UInt32.le_iff_toNat_le] at hd
      exact hd
    have hdigits : ∀ d : Fin 10, isIdentifierStart (Char.ofNat (48 + d)) = false := by decide
    have hc : Char.ofNat (48 + (c.toNat - 48)) = c := by
      rw [show 48 + (c.toNat - 48) = c.toNat by omega, Char.ofNat_toNat]
    have := hdigits ⟨c.toNat - 48, by omega⟩
    rw [hc, h] at this
    cases this
  refine ⟨?_, ?_, ⟨hne _ (by decide), hne _ (by decide), hne _ (by decide)⟩, hne _ (by decide),
    hne _ (by decide), hne _ (by decide), hne _ (by decide), hdigit⟩
  · exact Bool.eq_false_iff.mpr fun hl => by cases hspace.symm.trans (isSpace_of_lineEnd hl)
  · exact Bool.eq_false_iff.mpr fun hg => by cases hspace.symm.trans (isSpace_of_gap hg)

theorem nameRest_run {run : List Char} (h : ∀ c ∈ run, isIdentifierPart c = true) {text : List Char}
    (hd : text.head?.any (fun c => isIdentifierPart c || c == '\\') = false) {fuel : Nat}
    (hf : run.length < fuel) : nameRest fuel (run ++ text) = some ((run, false), text) := by
  induction run generalizing fuel with
  | nil =>
    obtain ⟨fuel, rfl⟩ := Nat.exists_eq_add_of_lt hf
    exact nameRest_stop hd
  | cons c run ih =>
    obtain ⟨fuel, rfl⟩ := Nat.exists_eq_add_of_le' (Nat.succ_le_of_lt (Nat.zero_lt_of_lt hf))
    rw [List.cons_append, nameRest_char (h c List.mem_cons_self),
      ih (fun c hc => h c (List.mem_cons_of_mem _ hc)) (by simpa using hf)]
    rfl

theorem nameRest_parts {fuel : Nat} {text rest cs : List Char} {escaped : Bool}
    (h : nameRest fuel text = some ((cs, escaped), rest)) : ∀ c ∈ cs, isIdentifierPart c = true := by
  induction fuel generalizing text rest cs escaped with
  | zero => cases h
  | succ fuel ih =>
    rcases nameRest_cases h with ⟨tail, rfl⟩ | ⟨c, tail, rfl, hc⟩ | hstop
    · rw [nameRest_escape] at h
      obtain ⟨⟨n, behind⟩, -, h⟩ := Option.bind_eq_some_iff.mp h
      dsimp only at h
      split at h
      next hp =>
        obtain ⟨⟨⟨more, escaped'⟩, rest'⟩, hs, h⟩ := Option.map_eq_some_iff.mp h
        obtain ⟨rfl, -⟩ := Prod.mk.inj (Prod.mk.inj h).1
        exact List.forall_mem_cons.mpr ⟨hp, ih hs⟩
      · cases h
    · rw [nameRest_char hc] at h
      obtain ⟨⟨⟨more, escaped'⟩, rest'⟩, hs, h⟩ := Option.map_eq_some_iff.mp h
      obtain ⟨rfl, -⟩ := Prod.mk.inj (Prod.mk.inj h).1
      exact List.forall_mem_cons.mpr ⟨hc, ih hs⟩
    · rw [nameRest_stop hstop] at h
      obtain ⟨rfl, -⟩ := Prod.mk.inj (Prod.mk.inj (Option.some.inj h)).1
      nofun

/-- The name that is read off a text, perhaps with escapes, could be spelled without them. -/
theorem isWord_of_name {text rest : List Char} {id : String} {escaped : Bool}
    (h : name text = some ((id, escaped), rest)) : IsWord id := by
  rw [name_eq] at h
  split at h
  next hbegins =>
    obtain ⟨⟨⟨cs, escaped'⟩, rest'⟩, hs, h⟩ := Option.map_eq_some_iff.mp h
    obtain ⟨rfl, -⟩ := Prod.mk.inj (Prod.mk.inj h).1
    rw [beginsName_eq hs] at hbegins
    have hparts := nameRest_parts hs
    cases cs with
    | nil => cases hbegins
    | cons first cs =>
      exact ⟨first, cs, String.toList_ofList, by simpa using hbegins,
        (List.forall_mem_cons.mp hparts).2⟩
  · cases h

/-- A word is one token, whatever stands behind it that does not go on with the word. -/
theorem IsWord.tokenAt_eq {word : String} (h : IsWord word) {text : List Char}
    (hd : text.head?.any (fun c => isIdentifierPart c || c == '\\') = false) :
    tokenAt (word.toList ++ text) = (.word word false, text) := by
  have hword : String.ofList word.toList = word := String.ofList_toList
  obtain ⟨c, rest, hw, hc, hrest⟩ := h
  rw [hw] at hword ⊢
  obtain ⟨-, -, -, hsign, hdouble, hsingle, hpoint, hdigit⟩ := identifierStart_alone hc
  have hparts : ∀ d ∈ c :: rest, isIdentifierPart d = true :=
    List.forall_mem_cons.mpr ⟨isIdentifierPart_of_start hc, hrest⟩
  have hrun := nameRest_run hparts hd
    (show (c :: rest).length < (c :: rest ++ text).length + 1 by
      rw [List.length_append]
      omega)
  have hname : name (c :: rest ++ text) = some ((word, false), text) := by
    rw [name_eq, beginsName_eq hrun, hrun]
    simp [hc, hword]
  rw [List.cons_append, tokenAt_cons, tokenScan_cons]
  rw [List.cons_append] at hname
  simp [hsign, hdouble, hsingle, hpoint, hdigit, hc, hname]

theorem IsWord.lex_eq {word : String} (h : IsWord word) {origin : Origin} {text : List Char}
    (hd : text.head?.any (fun c => isIdentifierPart c || c == '\\') = false) :
    lex origin (word.toList ++ text) =
      ⟨.word word false, origin != .inside, word.toList ++ text, text⟩ := by
  have htoken := h.tokenAt_eq hd
  obtain ⟨c, rest, hw, hc, -⟩ := h
  obtain ⟨hl, hg, hcomment, hsign, -⟩ := identifierStart_alone hc
  rw [hw, List.cons_append] at htoken ⊢
  rw [lex_front (fun _ => .of_head _ hl hg hcomment) (by simpa using fun h => absurd h.symm hsign),
    htoken]

end Collector.Script
