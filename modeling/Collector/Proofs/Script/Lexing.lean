import Collector.Script.Lexer
import Collector.Proofs.Script.Names

/-!
# Tokens end where they end

Reading a token looks no further than a closer or the end, as the scanners do. White space and comments in
front of a token are passed over in the same way, whatever the token is: `skipGap_takes`. A token
is read in the same way whatever stands behind it: `tokenAt_takes`. `lex_takes` joins the two.

There is one exception. A question mark before a point stands alone if a digit follows the point,
so the two characters behind a question mark matter: `Parts`.
-/

namespace Collector.Script

open Collector.Text

/-! ## White space and comments -/

/-- Whether a token stands at the very front of a text. The flag tells whether a line has ended
before it. -/
structure Begins (newline : Bool) (text : List Char) : Prop where
  head : ∃ c rest, text = c :: rest ∧ isLineEnd c = false ∧ isGap c = false
  noLine : ¬ ['/', '/'] <+: text
  noBlock : ¬ ['/', '*'] <+: text
  noOpening : ¬ ['<', '!', '-', '-'] <+: text
  noClosing : ¬ (newline = true ∧ ['-', '-', '>'] <+: text)

/-- What is a prefix of the new text and holds no closer is a prefix of the old one. -/
theorem Shut.isPrefix {old new front : List Char} (h : Shut old new)
    (hf : ∀ c ∈ front, isCloser c = false) (hp : front <+: new) : front <+: old := by
  induction front generalizing old new with
  | nil => exact List.nil_prefix
  | cons c front ih =>
    rcases h.head with ⟨d, tail, tail', rfl, rfl, ht⟩ | hd
    · obtain ⟨rfl, hp'⟩ := List.cons_prefix_cons.mp hp
      exact List.cons_prefix_cons.mpr ⟨rfl, ih ht (fun e he => hf e (by simp [he])) hp'⟩
    · obtain ⟨tail, rfl⟩ := hp
      simp [isClosed, hf c (by simp)] at hd

/-- A token that begins a text begins every text that goes on alike. -/
theorem Begins.shut {newline : Bool} {taken old new : List Char} (ht : taken ≠ [])
    (h : Begins newline (taken ++ old)) (hn : Shut old new) : Begins newline (taken ++ new) := by
  have back (front : List Char) (hf : ∀ c ∈ front, isCloser c = false)
      (hp : front <+: taken ++ new) : front <+: taken ++ old :=
    (hn.append taken).isPrefix hf hp
  obtain ⟨c, taken, rfl⟩ := List.exists_cons_of_ne_nil ht
  obtain ⟨d, rest, he, hl, hg⟩ := h.head
  obtain ⟨rfl, -⟩ := List.cons.inj he
  exact
    { head := ⟨c, taken ++ new, rfl, hl, hg⟩
      noLine := fun hp => h.noLine (back _ (not_closer_of_all rfl) hp)
      noBlock := fun hp => h.noBlock (back _ (not_closer_of_all rfl) hp)
      noOpening := fun hp => h.noOpening (back _ (not_closer_of_all rfl) hp)
      noClosing := fun hp => h.noClosing ⟨hp.1, back _ (not_closer_of_all rfl) hp.2⟩ }

/-- A closer begins a text. -/
theorem Begins.closer (newline : Bool) {c : Char} (behind : List Char) (h : isCloser c = true) :
    Begins newline (c :: behind) := by
  rcases isCloser_cases h with rfl | rfl | rfl
  all_goals exact
    { head := ⟨_, behind, rfl, by decide, by decide⟩
      noLine := by simp
      noBlock := by simp
      noOpening := by simp
      noClosing := by simp }

theorem skipGap_of_begins {newline : Bool} {text : List Char} (h : Begins newline text) :
    skipGap .between newline text = some (newline, text) := by
  obtain ⟨c, rest, rfl, hl, hg⟩ := h.head
  rw [skipGap]
  · simp [hl, hg]
  · rintro tail rfl rfl
    exact h.noLine (by simp)
  · rintro tail rfl rfl
    exact h.noBlock (by simp)
  · rintro tail rfl rfl
    exact h.noOpening (by simp)
  · rintro tail rfl rfl rfl
    exact h.noClosing (by simp)

theorem skipGap_blank {newline : Bool} {c : Char} (rest : List Char)
    (hc : isLineEnd c = true ∨ isGap c = true) :
    skipGap .between newline (c :: rest) =
      if isLineEnd c then skipGap .between true rest else skipGap .between newline rest := by
  have ne (d : Char) (hl : isLineEnd d = false) (hg : isGap d = false) : c ≠ d := by
    rintro rfl
    simp [hl, hg] at hc
  rw [skipGap]
  · rcases hc with hl | hg
    · simp [hl]
    · simp [hg]
  · exact fun _ hd _ => ne '/' (by decide) (by decide) hd
  · exact fun _ hd _ => ne '/' (by decide) (by decide) hd
  · exact fun _ hd _ => ne '<' (by decide) (by decide) hd
  · exact fun _ _ hd _ => ne '-' (by decide) (by decide) hd

/-- What is skipped before a token is skipped before every other token that may stand there. -/
theorem skipGap_takes {mode : GapMode} {newline newline' : Bool} {text start : List Char}
    (h : skipGap mode newline text = some (newline', start)) (hs : start ≠ []) :
    Begins newline' start ∧ ∃ gap, text = gap ++ start ∧ (mode = .block → gap ≠ []) ∧
      ∀ new, Begins newline' new → skipGap mode newline (gap ++ new) = some (newline', new) := by
  -- A step over characters that the scan takes from every text that begins with them.
  have step {mode mode' : GapMode} {flag flag' : Bool} {text : List Char} (front : List Char)
      (hf : front ≠ [])
      (ih : Begins newline' start ∧ ∃ gap, text = gap ++ start ∧ (mode' = .block → gap ≠ []) ∧
        ∀ new, Begins newline' new → skipGap mode' flag' (gap ++ new) = some (newline', new))
      (hw : ∀ gap new, text = gap ++ start → (mode' = .block → gap ≠ []) →
        skipGap mode flag (front ++ (gap ++ new)) = skipGap mode' flag' (gap ++ new)) :
      Begins newline' start ∧ ∃ gap, front ++ text = gap ++ start ∧ (mode = .block → gap ≠ []) ∧
        ∀ new, Begins newline' new → skipGap mode flag (gap ++ new) = some (newline', new) := by
    obtain ⟨hb, gap, rfl, hne, same⟩ := ih
    refine ⟨hb, front ++ gap, by simp, fun _ => by simp [hf], fun new hn => ?_⟩
    rw [List.append_assoc, hw gap new rfl hne, same new hn]
  induction mode, newline, text using skipGap.induct with
  | case1 newline =>
    simp [skipGap] at h
    exact absurd h.2 hs
  | case2 newline c text hl ih =>
    rw [skipGap, if_pos hl] at h
    exact step [c] (by simp) (ih h) fun gap new _ _ => by simp [skipGap, hl]
  | case3 newline c text hl ih =>
    rw [skipGap, if_neg hl] at h
    exact step [c] (by simp) (ih h) fun gap new _ _ => by simp [skipGap, hl]
  | case4 newline => simp [skipGap] at h
  | case5 newline text ih =>
    rw [skipGap] at h
    exact step ['*', '/'] (by simp) (ih h) fun gap new _ _ => by simp [skipGap]
  | case6 newline c text hne ih =>
    rw [skipGap.eq_5 newline c text hne] at h
    refine step [c] (by simp) (ih h) fun gap new ht hgap => ?_
    -- The comment goes on, so the character behind `c` is the same in both texts.
    obtain ⟨d, gap, rfl⟩ := List.exists_cons_of_ne_nil (hgap rfl)
    refine skipGap.eq_5 newline c _ fun tail hc hd => hne (gap ++ start) hc ?_
    rw [ht, List.cons_append, (List.cons.inj hd).1]
  | case7 newline text ih =>
    rw [skipGap] at h
    exact step ['/', '/'] (by simp) (ih h) fun gap new _ _ => by simp [skipGap]
  | case8 newline text ih =>
    rw [skipGap] at h
    exact step ['/', '*'] (by simp) (ih h) fun gap new _ _ => by simp [skipGap]
  | case9 newline text ih =>
    rw [skipGap] at h
    exact step ['<', '!', '-', '-'] (by simp) (ih h) fun gap new _ _ => by simp [skipGap]
  | case10 text ih =>
    rw [skipGap] at h
    exact step ['-', '-', '>'] (by simp) (ih h) fun gap new _ _ => by simp [skipGap]
  | case11 newline c text h1 h2 h3 h4 hl ih =>
    rw [skipGap_blank text (.inl hl), if_pos hl] at h
    exact step [c] (by simp) (ih h) fun gap new _ _ => by
      rw [List.singleton_append, skipGap_blank _ (.inl hl), if_pos hl]
  | case12 newline c text h1 h2 h3 h4 hl hg ih =>
    rw [skipGap_blank text (.inr hg), if_neg hl] at h
    exact step [c] (by simp) (ih h) fun gap new _ _ => by
      rw [List.singleton_append, skipGap_blank _ (.inr hg), if_neg hl]
  | case13 newline c text h1 h2 h3 h4 hl hg =>
    rw [skipGap.eq_10 newline c text h1 h2 h3 h4, if_neg hl, if_neg hg] at h
    obtain ⟨rfl, rfl⟩ := Prod.mk.inj (Option.some.inj h)
    refine ⟨?_, [], rfl, by simp, fun new hn => skipGap_of_begins hn⟩
    have split {front : List Char} (d : Char) (hp : d :: front <+: c :: text) :
        c = d ∧ ∃ tail, text = front ++ tail := by
      obtain ⟨rfl, tail, ht⟩ := List.cons_prefix_cons.mp hp
      exact ⟨rfl, tail, ht.symm⟩
    exact
      { head := ⟨c, text, rfl, by simpa using hl, by simpa using hg⟩
        noLine := fun hp => by
          obtain ⟨hc, tail, ht⟩ := split _ hp
          exact h1 tail hc ht
        noBlock := fun hp => by
          obtain ⟨hc, tail, ht⟩ := split _ hp
          exact h2 tail hc ht
        noOpening := fun hp => by
          obtain ⟨hc, tail, ht⟩ := split _ hp
          exact h3 tail hc ht
        noClosing := fun hp => by
          obtain ⟨hc, tail, ht⟩ := split _ hp.2
          exact h4 tail hp.1 hc ht }
  | case14 newline =>
    simp [skipGap] at h
    exact absurd h.2 hs

/-! ## Punctuators -/

/-- A spelling holds no closer, or it is one. -/
theorem spellings_closer : ∀ entry ∈ spellings, entry.1 ≠ [] ∧
    ((∀ c ∈ entry.1, isCloser c = false) ∨ entry.1.length = 1) := by
  have hall : ∀ entry ∈ spellings, entry.1 ≠ [] ∧
      (entry.1.all (fun c => !isCloser c) = true ∨ entry.1.length = 1) := by decide +kernel
  exact fun entry hentry => (hall entry hentry).imp_right (Or.imp_left not_closer_of_all)

/-- The spelling of `?.`, and the punctuators that begin it. -/
theorem spellings_question : ∀ entry ∈ spellings,
    (entry.2 = .questionDot ↔ entry.1 = ['?', '.']) ∧ (entry.1 = ['?'] → entry.2 = .question) := by
  decide +kernel

/-- Whether an entry of `spellings` stands at the front of a text. -/
def spells (text : List Char) (entry : List Char × Punctuator) : Bool :=
  entry.1.isPrefixOf text &&
    !(entry.2 == .questionDot && (text.drop 2).head?.any Char.isDigit)

theorem spells_iff {text : List Char} {entry : List Char × Punctuator} :
    spells text entry = true ↔ entry.1 <+: text ∧
      (entry.2 = .questionDot → (text.drop 2).head?.any Char.isDigit = false) := by
  simp [spells, imp_iff_not_or]

theorem punctuator?_eq_some {text rest : List Char} {p : Punctuator}
    (h : punctuator? text = some (p, rest)) :
    ∃ taken, text = taken ++ rest ∧ spellings.find? (spells text) = some (taken, p) := by
  obtain ⟨⟨taken, q⟩, hf, h⟩ := Option.map_eq_some_iff.mp h
  obtain ⟨hq, hr⟩ := Prod.mk.inj h
  dsimp only at hq hr
  subst hq
  have hs := spells_iff.mp (List.find?_some hf)
  obtain ⟨tail, rfl⟩ := hs.1
  exact ⟨taken, by simp [← hr], hf⟩

theorem punctuator?_of_find {taken rest : List Char} {p : Punctuator}
    (h : spellings.find? (spells (taken ++ rest)) = some (taken, p)) :
    punctuator? (taken ++ rest) = some (p, rest) := by
  show (spellings.find? (spells (taken ++ rest))).map _ = _
  simp [h]

/-- Whether a point stands behind a question mark in both texts, before a digit in the old one
only. -/
def Parts (token : Token) (old new : List Char) : Prop :=
  token = .punctuator .question ∧ ∃ tail tail', old = '.' :: tail ∧ new = '.' :: tail' ∧
    tail.head?.any Char.isDigit = true ∧ tail'.head?.any Char.isDigit = false

/-- No punctuator stands at the front of the new text that does not stand at the front of the old
one. -/
theorem spells_of_shut {taken old new : List Char} {p : Punctuator} (hn : Shut old new)
    (hm : (taken, p) ∈ spellings) (hs : spells (taken ++ old) (taken, p) = true)
    (hp : ¬ Parts (.punctuator p) old new) {entry : List Char × Punctuator} (he : entry ∈ spellings)
    (h : spells (taken ++ new) entry = true) : spells (taken ++ old) entry = true := by
  obtain ⟨hfront, hdigit⟩ := spells_iff.mp h
  obtain ⟨c, taken, rfl⟩ := List.exists_cons_of_ne_nil (spellings_closer _ hm).1
  refine spells_iff.mpr ⟨?_, fun hq => ?_⟩
  · rcases (spellings_closer entry he).2 with hc | h1
    · exact (hn.append (c :: taken)).isPrefix hc hfront
    · obtain ⟨d, hd⟩ := List.length_eq_one_iff.mp h1
      rw [hd] at hfront ⊢
      obtain ⟨rfl, -⟩ := List.cons_prefix_cons.mp hfront
      simp
  · rw [((spellings_question entry he).1).mp hq] at hfront
    replace hdigit := hdigit hq
    obtain ⟨rfl, htail⟩ := List.cons_prefix_cons.mp hfront
    match taken with
    | [] =>
      obtain ⟨tail', rfl⟩ : ∃ tail', new = '.' :: tail' := by
        obtain ⟨tail', ht⟩ := htail
        exact ⟨tail', ht.symm⟩
      obtain ⟨tail, rfl⟩ : ['.'] <+: old := hn.isPrefix (not_closer_of_all rfl) (by simp)
      have hq : p = .question := (spellings_question _ hm).2 rfl
      by_contra hd
      exact hp ⟨by rw [hq], tail, tail', rfl, rfl, by simpa using hd, hdigit⟩
    | [d] =>
      obtain ⟨rfl, -⟩ := List.cons_prefix_cons.mp htail
      exact (spells_iff.mp hs).2 (((spellings_question _ hm).1).mpr rfl)
    | d :: e :: taken => simpa using hdigit

theorem punctuator?_takes {text rest : List Char} {p : Punctuator}
    (h : punctuator? text = some (p, rest)) :
    ∃ taken, taken ≠ [] ∧ text = taken ++ rest ∧ ∀ new, Shut rest new →
      ¬ Parts (.punctuator p) rest new → punctuator? (taken ++ new) = some (p, new) := by
  obtain ⟨taken, rfl, hf⟩ := punctuator?_eq_some h
  have hm := List.mem_of_find?_eq_some hf
  refine ⟨taken, (spellings_closer _ hm).1, rfl, fun new hn hp => punctuator?_of_find ?_⟩
  obtain ⟨hs, front, back, hl, hno⟩ := List.find?_eq_some_iff_append.mp hf
  refine List.find?_eq_some_iff_append.mpr ⟨?_, front, back, hl, fun entry he => ?_⟩
  · refine spells_iff.mpr ⟨by simp, fun hq => ?_⟩
    have ht : taken = ['?', '.'] := ((spellings_question _ hm).1).mp hq
    have := (spells_iff.mp hs).2 hq
    simp only [ht, List.cons_append, List.drop_succ_cons, List.nil_append, List.drop_zero] at this ⊢
    exact hn.stops Char.isDigit (not_of_closer (by decide)) this
  · have hmem : entry ∈ spellings := by
      rw [hl]
      simp [he]
    have := hno entry he
    cases hnew : spells (taken ++ new) entry with
    | false => rfl
    | true => simp [spells_of_shut hn hm hs hp hmem hnew] at this

/-! ## Tokens -/

/-- Whether a token was read. -/
def Token.isReal : Token → Bool
  | .finish | .invalid => false
  | _ => true

/-- The token at the front of a text, unless it is invalid. -/
def tokenScan : Scanner Token
  | [] => none
  | c :: text =>
    if c == '"' || c == '\'' then string c text
    else if c == '#' then (name text).map fun ((id, _), rest) => (.privateName id, rest)
    else if c.isDigit || (c == '.' && text.head?.any Char.isDigit) then number (c :: text)
    else if c == '\\' || isIdentifierStart c then
      (name (c :: text)).map fun ((id, escaped), rest) => (.word id escaped, rest)
    else (punctuator? (c :: text)).map fun (p, rest) => (.punctuator p, rest)

theorem tokenAt_cons (c : Char) (text : List Char) :
    tokenAt (c :: text) = (tokenScan (c :: text)).getD (.invalid, c :: text) := by
  by_cases h1 : c = '"'
  · subst h1
    rfl
  · by_cases h2 : c = '\''
    · subst h2
      rfl
    · by_cases h3 : c = '#'
      · subst h3
        rfl
      · by_cases h4 : c = '.'
        · subst h4
          cases text with
          | nil => rfl
          | cons d text =>
            cases hd : d.isDigit <;>
              simp [tokenAt, tokenScan, hd, show isIdentifierStart '.' = false by decide]
        · unfold tokenAt
          split
          · simp at *
          next h => exact absurd (List.cons.inj h).1 h1
          next h => exact absurd (List.cons.inj h).1 h2
          next h => exact absurd (List.cons.inj h).1 h3
          next h => exact absurd (List.cons.inj h).1 h4
          next h =>
            obtain ⟨rfl, rfl⟩ := List.cons.inj h
            simp only [tokenScan, beq_eq_false_iff_ne.mpr h1, beq_eq_false_iff_ne.mpr h2,
              beq_eq_false_iff_ne.mpr h3, beq_eq_false_iff_ne.mpr h4, Bool.false_and,
              Bool.or_false, Bool.false_eq_true, if_false]
            split
            · rfl
            · split <;> rfl

/-- No digit follows a number at once. -/
theorem number_head {text rest : List Char} {token : Token}
    (h : number text = some (token, rest)) : rest.head?.any Char.isDigit = false := by
  obtain ⟨⟨token', rest'⟩, -, h⟩ := Option.bind_eq_some_iff.mp h
  cases rest' with
  | nil =>
    obtain ⟨rfl, rfl⟩ : token' = token ∧ [] = rest := by simpa using h
    rfl
  | cons c rest' =>
    dsimp only at h
    split at h
    · simp at h
    next hc =>
      obtain ⟨rfl, rfl⟩ : token' = token ∧ c :: rest' = rest := by simpa using h
      simp at hc
      simp [hc]

theorem tokenScan_cons (c : Char) (text : List Char) :
    tokenScan (c :: text) =
      if c == '"' || c == '\'' then string c text
      else if c == '#' then (name text).map fun ((id, _), rest) => (.privateName id, rest)
      else if c.isDigit || (c == '.' && text.head?.any Char.isDigit) then number (c :: text)
      else if c == '\\' || isIdentifierStart c then
        (name (c :: text)).map fun ((id, escaped), rest) => (.word id escaped, rest)
      else (punctuator? (c :: text)).map fun (p, rest) => (.punctuator p, rest) := rfl

/-- A scanner that takes nothing reads nothing but a closer. -/
theorem Takes.ne_nil {α : Type} {scan : Scanner α} {taken rest : List Char} {value : α}
    (same : ∀ new, Shut rest new → scan (taken ++ new) = some (value, new))
    (hc : scan [')'] = none) : taken ≠ [] := by
  rintro rfl
  have := same [')'] (Shut.closed rest rfl)
  simp [hc] at this

theorem tokenScan_takes {text rest : List Char} {token : Token}
    (h : tokenScan text = some (token, rest)) :
    ∃ taken, taken ≠ [] ∧ text = taken ++ rest ∧ ∀ new, Shut rest new →
      ¬ Parts token rest new → tokenScan (taken ++ new) = some (token, new) := by
  cases text with
  | nil => simp [tokenScan] at h
  | cons c text =>
    rw [tokenScan_cons] at h
    split at h
    next h1 =>
      obtain ⟨taken, rfl, same⟩ := string_scans c _ _ _ h
      exact ⟨c :: taken, by simp, rfl, fun new hn _ => by
        rw [List.cons_append, tokenScan_cons, if_pos h1, same new hn]⟩
    next h1 =>
      split at h
      next h2 =>
        obtain ⟨⟨⟨id, escaped⟩, rest'⟩, hs, h⟩ := Option.map_eq_some_iff.mp h
        obtain ⟨rfl, rfl⟩ := Prod.mk.inj h
        obtain ⟨taken, rfl, same⟩ := name_scans _ _ _ hs
        exact ⟨c :: taken, by simp, rfl, fun new hn _ => by
          rw [List.cons_append, tokenScan_cons, if_neg h1, if_pos h2, same new hn]
          rfl⟩
      next h2 =>
        split at h
        next h3 =>
          obtain ⟨taken, ht, same⟩ := number_scans _ _ _ h
          obtain ⟨d, taken, rfl⟩ := List.exists_cons_of_ne_nil (Takes.ne_nil same (by rfl))
          obtain ⟨rfl, rfl⟩ := List.cons.inj ht
          refine ⟨c :: taken, by simp, rfl, fun new hn _ => ?_⟩
          have hd : (c.isDigit || (c == '.' && (taken ++ new).head?.any Char.isDigit)) = true := by
            cases taken with
            | nil =>
              have : c.isDigit = true := by simpa [number_head h] using h3
              simp [this]
            | cons e taken => simpa using h3
          rw [List.cons_append, tokenScan_cons, if_neg h1, if_neg h2, if_pos hd]
          exact same new hn
        next h3 =>
          obtain ⟨hdigit, hpoint⟩ : c.isDigit = false ∧
              (c = '.' → text.head?.any Char.isDigit = false) := by simpa using h3
          have hd {taken new : List Char} (ht : text = taken ++ rest) (hn : Shut rest new) :
              ¬ (c.isDigit || (c == '.' && (taken ++ new).head?.any Char.isDigit)) = true := by
            simp only [hdigit, Bool.false_or, Bool.and_eq_true, beq_iff_eq, not_and,
              Bool.not_eq_true]
            intro hc
            exact (hn.append taken).stops Char.isDigit (not_of_closer (by decide))
              (ht ▸ hpoint hc)
          split at h
          next h4 =>
            obtain ⟨⟨⟨id, escaped⟩, rest'⟩, hs, h⟩ := Option.map_eq_some_iff.mp h
            obtain ⟨rfl, rfl⟩ := Prod.mk.inj h
            obtain ⟨taken, ht, same⟩ := name_scans _ _ _ hs
            obtain ⟨d, taken, rfl⟩ := List.exists_cons_of_ne_nil (Takes.ne_nil same (by rfl))
            obtain ⟨rfl, htail⟩ := List.cons.inj ht
            refine ⟨c :: taken, by simp, ht, fun new hn _ => ?_⟩
            rw [List.cons_append, tokenScan_cons, if_neg h1, if_neg h2, if_neg (hd htail hn),
              if_pos h4, ← List.cons_append, same new hn]
            rfl
          next h4 =>
            obtain ⟨⟨p, rest'⟩, hs, h⟩ := Option.map_eq_some_iff.mp h
            obtain ⟨rfl, rfl⟩ := Prod.mk.inj h
            obtain ⟨taken, hne, ht, same⟩ := punctuator?_takes hs
            obtain ⟨d, taken, rfl⟩ := List.exists_cons_of_ne_nil hne
            obtain ⟨rfl, htail⟩ := List.cons.inj ht
            refine ⟨c :: taken, by simp, ht, fun new hn hp => ?_⟩
            rw [List.cons_append, tokenScan_cons, if_neg h1, if_neg h2, if_neg (hd htail hn),
              if_neg h4, ← List.cons_append, same new hn hp]
            rfl

/-- The end of the text is no token that is scanned. -/
theorem tokenScan_ne_finish {text rest : List Char} {token : Token}
    (h : tokenScan text = some (token, rest)) : token ≠ .finish := by
  rintro rfl
  cases text with
  | nil => cases h
  | cons c text =>
    rw [tokenScan_cons] at h
    split at h
    · obtain ⟨_, -, h⟩ := Option.map_eq_some_iff.mp h
      cases h
    · split at h
      · obtain ⟨_, -, h⟩ := Option.map_eq_some_iff.mp h
        cases h
      · split at h
        · cases number_numeric h
        · split at h
          all_goals
            obtain ⟨_, -, h⟩ := Option.map_eq_some_iff.mp h
            cases h

/-- A token ends where it ends, whatever stands behind it. -/
theorem tokenAt_takes {text rest : List Char} {token : Token} (h : tokenAt text = (token, rest))
    (hr : token.isReal = true) :
    ∃ taken, taken ≠ [] ∧ text = taken ++ rest ∧ ∀ new, Shut rest new →
      ¬ Parts token rest new → tokenAt (taken ++ new) = (token, new) := by
  cases text with
  | nil =>
    obtain ⟨rfl, rfl⟩ := Prod.mk.inj h
    simp [Token.isReal] at hr
  | cons c text =>
    rw [tokenAt_cons] at h
    cases hs : tokenScan (c :: text) with
    | none =>
      obtain ⟨rfl, rfl⟩ : Token.invalid = token ∧ c :: text = rest := by simpa [hs] using h
      simp [Token.isReal] at hr
    | some found =>
      obtain rfl : found = (token, rest) := by simpa [hs] using h
      obtain ⟨taken, hne, ht, same⟩ := tokenScan_takes hs
      refine ⟨taken, hne, ht, fun new hn hp => ?_⟩
      obtain ⟨d, taken, rfl⟩ := List.exists_cons_of_ne_nil hne
      rw [List.cons_append, tokenAt_cons, ← List.cons_append, same new hn hp]
      rfl

/-! ## Reading the next token -/

theorem skipBefore_script {text : List Char} (h : ¬ ['#', '!'] <+: text) :
    skipBefore .script text = skipGap .between true text := by
  rw [skipBefore]
  rintro tail rfl
  exact h (by simp)

/-- A number sign begins a token. -/
theorem skipGap_sign (text : List Char) :
    skipGap .between true ('#' :: text) = some (true, '#' :: text) :=
  skipGap_of_begins
    { head := ⟨'#', text, rfl, by decide, by decide⟩
      noLine := by simp
      noBlock := by simp
      noOpening := by simp
      noClosing := by simp }

/-- What is skipped at an origin, and in front of every other token that may stand there. -/
theorem skipBefore_takes {origin : Origin} {newline : Bool} {text start : List Char}
    (h : skipBefore origin text = some (newline, start)) (hs : start ≠ []) :
    Begins newline start ∧ ∃ gap, text = gap ++ start ∧ ∀ new, Begins newline new →
      (['#', '!'] <+: new → ['#', '!'] <+: start) →
      skipBefore origin (gap ++ new) = some (newline, new) := by
  cases origin with
  | inside =>
    obtain ⟨hb, gap, rfl, -, same⟩ := skipGap_takes h hs
    exact ⟨hb, gap, rfl, fun new hn _ => same new hn⟩
  | expression =>
    obtain ⟨hb, gap, rfl, -, same⟩ := skipGap_takes h hs
    exact ⟨hb, gap, rfl, fun new hn _ => same new hn⟩
  | script =>
    by_cases hsign : ['#', '!'] <+: text
    · obtain ⟨tail, rfl⟩ := hsign
      obtain ⟨hb, gap, rfl, -, same⟩ := skipGap_takes (show skipGap .line true tail = _ from h) hs
      exact ⟨hb, '#' :: '!' :: gap, rfl, fun new hn _ => same new hn⟩
    · rw [skipBefore_script hsign] at h
      obtain ⟨hb, gap, rfl, -, same⟩ := skipGap_takes h hs
      refine ⟨hb, gap, rfl, fun new hn hp => ?_⟩
      rw [skipBefore_script, same new hn]
      cases gap with
      | nil => exact fun hnew => hsign (hp hnew)
      | cons c gap =>
        intro hc
        obtain ⟨rfl, -⟩ := List.cons_prefix_cons.mp hc
        rw [List.cons_append, skipGap_sign] at h
        have := congrArg List.length (Prod.mk.inj (Option.some.inj h)).2
        simp at this
        omega

/-- The next token is the same whatever stands behind it. -/
theorem lex_takes {origin : Origin} {text : List Char} (h : (lex origin text).token.isReal = true) :
    ∃ gap taken, taken ≠ [] ∧ text = gap ++ (taken ++ (lex origin text).rest) ∧
      (lex origin text).start = taken ++ (lex origin text).rest ∧
      ∀ new, Shut (lex origin text).rest new →
        ¬ Parts (lex origin text).token (lex origin text).rest new →
        lex origin (gap ++ (taken ++ new)) =
          ⟨(lex origin text).token, (lex origin text).newline, taken ++ new, new⟩ := by
  cases hb : skipBefore origin text with
  | none => simp [lex, hb, Token.isReal] at h
  | some found =>
    obtain ⟨newline, start⟩ := found
    obtain ⟨token, rest, ht⟩ : ∃ token rest, tokenAt start = (token, rest) := ⟨_, _, rfl⟩
    have hl : lex origin text = ⟨token, newline, start, rest⟩ := by simp [lex, hb, ht]
    rw [hl] at h ⊢
    obtain ⟨taken, hne, rfl, same⟩ := tokenAt_takes ht h
    obtain ⟨hbegins, gap, rfl, before⟩ := skipBefore_takes hb (by simp [hne])
    refine ⟨gap, taken, hne, rfl, rfl, fun new hn hp => ?_⟩
    have hnew := before _ (hbegins.shut hne hn) fun hp =>
      (hn.append taken).isPrefix (not_closer_of_all rfl) hp
    simp [lex, hnew, same new hn hp]

/-- The next token stands in the text that is left. -/
theorem lex_start_suffix (origin : Origin) (text : List Char) :
    (lex origin text).start <:+ text := by
  cases hb : skipBefore origin text with
  | none => simp [lex, hb]
  | some found =>
    obtain ⟨newline, start⟩ := found
    have hl : (lex origin text).start = start := by simp [lex, hb]
    rw [hl]
    by_cases hs : start = []
    · simp [hs]
    · obtain ⟨-, gap, rfl, -⟩ := skipBefore_takes hb hs
      simp

/-- The closers. -/
inductive Closer where
  | paren | brace | semicolon
  deriving DecidableEq

/-- The character of a closer. -/
def Closer.char : Closer → Char
  | .paren => ')'
  | .brace => '\x7d'
  | .semicolon => ';'

/-- The token of a closer. -/
def Closer.punctuator : Closer → Punctuator
  | .paren => .closeParen
  | .brace => .closeBrace
  | .semicolon => .semicolon

theorem Closer.isCloser (k : Closer) : isCloser k.char = true := by cases k <;> rfl

/-- What may stand behind a seam: a closer, or the end of the text. -/
inductive Stop where
  | closer (k : Closer)
  | finish

/-- The token that is read there. -/
def Stop.token : Stop → Token
  | .closer k => .punctuator k.punctuator
  | .finish => .finish

/-- No word stands there. -/
@[simp]
theorem Stop.token_ne_word (stop : Stop) (id : String) (escaped : Bool) :
    stop.token ≠ .word id escaped := by
  cases stop <;> simp [token]

/-- Whether a text begins there. -/
def Stop.Begins (text : List Char) : Stop → Prop
  | .closer k => ∃ behind, text = k.char :: behind
  | .finish => text = []

theorem Stop.Begins.isClosed {stop : Stop} {text : List Char} (h : stop.Begins text) :
    isClosed text = true := by
  cases stop with
  | closer k =>
    obtain ⟨behind, rfl⟩ := h
    exact k.isCloser
  | finish =>
    obtain rfl : text = [] := h
    rfl

theorem tokenAt_closer (k : Closer) (behind : List Char) :
    tokenAt (k.char :: behind) = (.punctuator k.punctuator, behind) := by cases k <;> rfl

/-- A closer is read behind whatever stands before the token in its place. -/
theorem lex_closer {origin : Origin} {newline : Bool} {gap start : List Char}
    (h : skipBefore origin (gap ++ start) = some (newline, start)) (hs : start ≠ []) (k : Closer)
    (behind : List Char) :
    lex origin (gap ++ k.char :: behind) =
      ⟨.punctuator k.punctuator, newline, k.char :: behind, behind⟩ := by
  obtain ⟨-, gap', hg, same⟩ := skipBefore_takes h hs
  obtain rfl : gap = gap' := List.append_cancel_right hg
  have hnew := same (k.char :: behind) (.closer newline behind k.isCloser) fun hp => by
    have := (List.cons_prefix_cons.mp hp).1
    cases k <;> simp [Closer.char] at this
  simp [lex, hnew, tokenAt_closer]

/-- A token at the very front of a text. -/
theorem lex_of_begins {text : List Char} (h : Begins false text) :
    lex .inside text = ⟨(tokenAt text).1, false, text, (tokenAt text).2⟩ := by
  have : skipBefore .inside text = some (false, text) := skipGap_of_begins h
  simp [lex, this]

/-- A point before a closer or the end is a token of its own, before a digit it is not. -/
theorem lex_point {old new : List Char} (hn : isClosed new = true)
    (hd : old.head?.any Char.isDigit = true) :
    (lex .inside ('.' :: old)).start = '.' :: old ∧
      ((lex .inside ('.' :: old)).token = (lex .inside ('.' :: new)).token →
        ¬ old <:+ (lex .inside ('.' :: old)).rest) := by
  have begins (tail : List Char) : Begins false ('.' :: tail) :=
    { head := ⟨'.', tail, rfl, by decide, by decide⟩
      noLine := by simp
      noBlock := by simp
      noOpening := by simp
      noClosing := by simp }
  have hnew : tokenAt ('.' :: new) = (.punctuator .dot, new) := by
    cases new with
    | nil => rfl
    | cons c behind => rcases isCloser_cases (show isCloser c = true from hn) with rfl | rfl | rfl <;> rfl
  have hold : tokenAt ('.' :: old) = (number ('.' :: old)).getD (.invalid, '.' :: old) := by
    rw [tokenAt_cons, tokenScan_cons]
    simp [hd]
  rw [lex_of_begins (begins old), lex_of_begins (begins new), hnew]
  refine ⟨rfl, fun ht hs => ?_⟩
  dsimp only at ht hs
  cases hn : number ('.' :: old) with
  | none => simp [hold, hn] at ht
  | some found =>
    obtain ⟨token, rest⟩ := found
    rw [hold, hn] at hs
    obtain ⟨taken, htaken, same⟩ := number_scans _ _ _ hn
    obtain ⟨c, taken, rfl⟩ := List.exists_cons_of_ne_nil (Takes.ne_nil same rfl)
    obtain ⟨front, hfront⟩ : old <:+ rest := hs
    have hlen := congrArg List.length htaken
    rw [← hfront] at hlen
    obtain rfl : front = [] := List.length_eq_zero_iff.mp (by simp at hlen; omega)
    obtain rfl : old = rest := hfront
    simp [number_head hn] at hd

end Collector.Script
