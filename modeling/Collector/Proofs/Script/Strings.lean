import Collector.Proofs.Script.Numbers

/-!
# Scanners of strings and templates

`Scans` for the scanners of escapes, strings and the text of templates. `string_scans` and
`quasi_scans` are the results. A malformed escape does not end a template, so for templates the
failure of an escape has to be told from the text up to the end of the piece: `escape_none`.
-/

namespace Collector.Script

open Collector.Text

/-! ## Escapes -/

theorem hexDigits_scans (count value : Nat) : Scans (hexDigits count value) := by
  intro text v rest h
  induction count generalizing value text with
  | zero =>
    obtain ⟨rfl, rfl⟩ : value = v ∧ text = rest := by simpa [hexDigits] using h
    exact .nothing fun new _ => rfl
  | succ count ih =>
    cases text with
    | nil => simp [hexDigits] at h
    | cons c text =>
      cases hc : isDigitIn 16 c with
      | false => simp [hexDigits, hc] at h
      | true =>
        simp only [hexDigits, hc, if_true] at h
        refine (ih _ _ h).passed [c] (f := id) fun tail new ht => ?_
        simpa [hexDigits, hc] using ht

/-- The code point of an escape with braces. -/
def bracedPoint (digits : List Char) : Scanner Nat
  | '\x7d' :: rest =>
    if digits = [] ∨ 0x10FFFF < digitsValue 16 digits then none
    else some (digitsValue 16 digits, rest)
  | _ => none

theorem bracedPoint_scans (digits : List Char) : Scans (bracedPoint digits) := by
  intro text value rest h
  unfold bracedPoint at h
  split at h
  · split at h
    · simp at h
    next hd =>
      obtain ⟨rfl, rfl⟩ : _ = value ∧ _ = rest := by simpa using h
      exact ⟨['\x7d'], rfl, fun new _ => by simp [bracedPoint, hd]⟩
  · simp at h

theorem codePoint_braced (text : List Char) :
    codePoint ('\x7b' :: text) =
      (some (text.takeWhile (isDigitIn 16), text.dropWhile (isDigitIn 16))).bind
        fun (digits, rest) => bracedPoint digits rest := by
  show _ = bracedPoint _ _
  rw [codePoint]
  generalize text.takeWhile (isDigitIn 16) = digits
  generalize text.dropWhile (isDigitIn 16) = rest
  unfold bracedPoint
  cases digits with
  | nil =>
    show none = _
    split <;> simp
  | cons d digits =>
    by_cases hv : digitsValue 16 (d :: digits) ≤ 0x10FFFF
    · split <;> simp_all [Nat.not_lt.mpr hv]
    · split <;> simp_all [Nat.lt_of_not_le hv]

theorem codePoint_plain {text : List Char} (h : text.head?.any (· == '\x7b') = false) :
    codePoint text = hexDigits 4 0 text := by
  unfold codePoint
  split
  · simp at h
  · rfl

theorem hexDigits_head {count value : Nat} {text : List Char} {found : Nat × List Char}
    (h : hexDigits (count + 1) value text = some found) :
    ∃ c tail, text = c :: tail ∧ isDigitIn 16 c = true := by
  cases text with
  | nil => simp [hexDigits] at h
  | cons c tail =>
    cases hc : isDigitIn 16 c with
    | false => simp [hexDigits, hc] at h
    | true => exact ⟨c, tail, rfl, hc⟩

theorem codePoint_scans : Scans codePoint := by
  intro text value rest h
  cases hb : text.head?.any (· == '\x7b') with
  | true =>
    obtain ⟨tail, rfl⟩ := head_eq hb
    rw [codePoint_braced] at h
    have scans : Scans _ := (span_scans (isDigitIn 16)
      fun c hc => isDigitIn_closer (by decide) hc).bind bracedPoint_scans
    refine (scans _ _ _ h).passed ['\x7b'] (f := id) fun tail new ht => ?_
    rwa [List.singleton_append, codePoint_braced]
  | false =>
    rw [codePoint_plain hb] at h
    refine (hexDigits_scans 4 0 _ _ _ h).passed [] (f := id) fun tail new ht => ?_
    obtain ⟨c, tail, rfl, hc⟩ := hexDigits_head ht
    rw [List.nil_append, codePoint_plain]
    · exact ht
    · have : c ≠ '\x7b' := by
        rintro rfl
        revert hc
        decide
      simpa using this

/-- How many octal digits may follow the first one of an escape. -/
def octalMore (c : Char) : Nat := if c ≤ '3' then 2 else 1

/-- Up to `limit` octal digits. -/
def octalRun : Nat → List Char → List Char × List Char
  | 0, text => ([], text)
  | _ + 1, [] => ([], [])
  | limit + 1, c :: text =>
    if isDigitIn 8 c then (c :: (octalRun limit text).1, (octalRun limit text).2)
    else ([], c :: text)

theorem octalRun_takes (limit : Nat) (text : List Char) :
    Takes (fun text => some (octalRun limit text)) text (octalRun limit text).1
      (octalRun limit text).2 := by
  induction limit generalizing text with
  | zero => exact .nothing fun new _ => rfl
  | succ limit ih =>
    have stop {new : List Char} (hn : new.head?.any (isDigitIn 8) = false) :
        octalRun (limit + 1) new = ([], new) := by
      cases new with
      | nil => rfl
      | cons c new =>
        have : isDigitIn 8 c = false := by simpa using hn
        simp [octalRun, this]
    have closers : ∀ c, isCloser c = true → isDigitIn 8 c = false :=
      fun c hc => isDigitIn_closer (by decide) hc
    cases text with
    | nil => exact .nothing fun new hn => congrArg some (stop (hn.stops _ closers rfl))
    | cons c text =>
      cases hc : isDigitIn 8 c with
      | false =>
        rw [stop (by simpa using hc)]
        exact .nothing fun new hn => congrArg some (stop (hn.stops _ closers (by simpa using hc)))
      | true =>
        rw [show octalRun (limit + 1) (c :: text) =
          (c :: (octalRun limit text).1, (octalRun limit text).2) by simp [octalRun, hc]]
        refine (ih text).passed [c] (f := (c :: ·)) fun tail new ht => ?_
        have ht := Option.some.inj ht
        simp [octalRun, hc, ht]

theorem octalEscape_eq {c : Char} (hc : isDigitIn 8 c = true) (text : List Char) :
    octalEscape (c :: text) =
      (digitsValue 8 (c :: (octalRun (octalMore c) text).1), (octalRun (octalMore c) text).2) := by
  by_cases h3 : c ≤ '3'
  · rcases text with _ | ⟨d, _ | ⟨e, text⟩⟩
    · simp [octalEscape, octalMore, h3, octalRun, hc]
    · cases hd : isDigitIn 8 d <;> simp [octalEscape, octalMore, h3, octalRun, hc, hd]
    · cases hd : isDigitIn 8 d <;> cases he : isDigitIn 8 e <;>
        simp [octalEscape, octalMore, h3, octalRun, hc, hd, he]
  · rcases text with _ | ⟨d, _ | ⟨e, text⟩⟩
    · simp [octalEscape, octalMore, h3, octalRun, hc]
    · cases hd : isDigitIn 8 d <;> simp [octalEscape, octalMore, h3, octalRun, hc, hd]
    · cases hd : isDigitIn 8 d <;> cases he : isDigitIn 8 e <;>
        simp [octalEscape, octalMore, h3, octalRun, hc, hd, he]

/-- What stands behind a digit that a backslash escapes. -/
def digitEscape (octal : Bool) (c : Char) (rest : List Char) :
    Option (List CodeUnit × List Char) :=
  if c == '0' && !(rest.head?.any Char.isDigit) then some ([.char '\x00'], rest)
  else if !octal then none
  else if isDigitIn 8 c then
    let (n, rest) := octalEscape (c :: rest)
    some ([.char (Char.ofNat n)], rest)
  else some ([.char c], rest)

/-- The character that a letter behind a backslash names. -/
def namedEscape : Char → Char
  | 'n' => '\n'
  | 't' => '\t'
  | 'r' => '\r'
  | 'b' => '\x08'
  | 'v' => '\x0b'
  | 'f' => '\x0c'
  | c => c

/-- What stands behind a backslash that begins none of the longer escapes. -/
def shortEscape (octal : Bool) (c : Char) (rest : List Char) :
    Option (List CodeUnit × List Char) :=
  if isLineEnd c then some ([], rest)
  else if c.isDigit then digitEscape octal c rest
  else some ([.char (namedEscape c)], rest)

theorem escape_short {octal : Bool} {c : Char} {rest : List Char}
    (hr : c = '\r' → rest.head?.any (· == '\n') = false) (hx : c ≠ 'x') (hu : c ≠ 'u') :
    escape octal (c :: rest) = shortEscape octal c rest := by
  unfold escape shortEscape
  split
  · simp at *
  next h =>
    obtain ⟨rfl, rfl⟩ := List.cons.inj h
    simp at hr
  next h => exact absurd (List.cons.inj h).1 hx
  next h => exact absurd (List.cons.inj h).1 hu
  next h =>
    obtain ⟨rfl, rfl⟩ := List.cons.inj h
    rfl

theorem digitEscape_octal {c : Char} (hc : isDigitIn 8 c = true) (text : List Char) :
    digitEscape true c text = (some (octalRun (octalMore c) text)).map fun (digits, rest) =>
      ([.char (Char.ofNat (digitsValue 8 (c :: digits)))], rest) := by
  unfold digitEscape
  split
  next h =>
    obtain ⟨rfl, hd⟩ : c = '0' ∧ text.head?.any Char.isDigit = false := by simpa using h
    have : octalRun (octalMore '0') text = ([], text) := by
      cases text with
      | nil => rfl
      | cons d text =>
        have hd : d.isDigit = false := by simpa using hd
        have h8 : isDigitIn 8 d = false := by
          by_contra h8
          have : isDigitIn 10 d = true := by
            simp only [isDigitIn, Bool.not_eq_false, decide_eq_true_eq] at h8 ⊢
            omega
          simp [isDigit_of_isDigitIn this] at hd
        simp [octalRun, show octalMore '0' = 2 from rfl, h8]
    rw [this]
    rfl
  next h => simp [octalEscape_eq hc]

theorem digitEscape_scans (octal : Bool) (c : Char) : Scans (digitEscape octal c) := by
  cases ho : octal && isDigitIn 8 c with
  | true =>
    obtain ⟨rfl, hc⟩ : octal = true ∧ isDigitIn 8 c = true := by simpa using ho
    have scans : Scans fun text => some (octalRun (octalMore c) text) := by
      intro text value rest h
      have := octalRun_takes (octalMore c) text
      rwa [Option.some.inj h] at this
    rw [funext (digitEscape_octal hc)]
    exact scans.map fun digits => [CodeUnit.char (Char.ofNat (digitsValue 8 (c :: digits)))]
  | false =>
    intro text value rest h
    unfold digitEscape at h
    split at h
    next hz =>
      obtain ⟨rfl, rfl⟩ : _ = value ∧ text = rest := by simpa using h
      obtain ⟨rfl, hd⟩ : c = '0' ∧ text.head?.any Char.isDigit = false := by simpa using hz
      refine .nothing fun new hn => ?_
      simp [digitEscape, hn.stops Char.isDigit (not_of_closer (by decide)) hd]
    next hz =>
      cases octal with
      | false => simp at h
      | true =>
        have h8 : isDigitIn 8 c = false := by simpa using ho
        have h0 : c ≠ '0' := by
          rintro rfl
          revert h8
          decide
        obtain ⟨rfl, rfl⟩ : _ = value ∧ text = rest := by simpa [h8] using h
        exact .nothing fun new _ => by simp [digitEscape, h8, h0]

theorem shortEscape_scans (octal : Bool) (c : Char) : Scans (shortEscape octal c) := by
  intro text value rest h
  unfold shortEscape at h
  split at h
  next hl =>
    obtain ⟨rfl, rfl⟩ : [] = value ∧ text = rest := by simpa using h
    exact .nothing fun new _ => by simp [shortEscape, hl]
  next hl =>
    split at h
    next hd =>
      refine (digitEscape_scans octal c _ _ _ h).passed [] (f := id) fun tail new ht => ?_
      simpa [shortEscape, hl, hd] using ht
    next hd =>
      obtain ⟨rfl, rfl⟩ : _ = value ∧ text = rest := by simpa using h
      exact .nothing fun new _ => by simp [shortEscape, hl, hd]

theorem escape_scans (octal : Bool) : Scans (escape octal) := by
  intro text value rest h
  cases text with
  | nil => simp [escape] at h
  | cons c text =>
    by_cases hx : c = 'x'
    · subst hx
      have scans : Scans _ := (hexDigits_scans 2 0).map fun n => [CodeUnit.char (Char.ofNat n)]
      exact (scans _ _ _ h).passed ['x'] (f := id) fun tail new ht => ht
    · by_cases hu : c = 'u'
      · subst hu
        have scans : Scans _ := codePoint_scans.map fun n => [CodeUnit.ofNat n]
        exact (scans _ _ _ h).passed ['u'] (f := id) fun tail new ht => ht
      · cases hn : decide (c = '\r') && text.head?.any (· == '\n') with
        | true =>
          obtain ⟨rfl, hn⟩ : c = '\r' ∧ text.head?.any (· == '\n') = true := by simpa using hn
          obtain ⟨tail, rfl⟩ := head_eq hn
          obtain ⟨rfl, rfl⟩ : [] = value ∧ tail = rest := by simpa [escape] using h
          exact ⟨['\r', '\n'], rfl, fun new _ => rfl⟩
        | false =>
          have hr : c = '\r' → text.head?.any (· == '\n') = false := by simpa using hn
          rw [escape_short hr hx hu] at h
          obtain ⟨taken, rfl, same⟩ := shortEscape_scans octal c _ _ _ h
          refine ⟨c :: taken, rfl, fun new hnew => ?_⟩
          rw [List.cons_append, escape_short _ hx hu, same new hnew]
          exact fun hc => (hnew.append taken).stops _ (not_of_closer (by decide)) (hr hc)

/-! ## Strings -/

theorem stringUnits_char {quote c : Char} (hb : c ≠ '\\') (fuel : Nat) (text : List Char) :
    stringUnits quote (fuel + 1) (c :: text) =
      if c == quote then some ([], text)
      else if c == '\n' || c == '\r' then none
      else (stringUnits quote fuel text).map fun (more, rest) => (.char c :: more, rest) := by
  rw [stringUnits]
  exact hb

theorem stringUnits_takes {quote : Char} (fuel : Nat) {text rest : List Char}
    {units : List CodeUnit} (h : stringUnits quote fuel text = some (units, rest)) :
    ∃ taken, text = taken ++ rest ∧ ∀ new fuel', Shut rest new → taken.length < fuel' →
      stringUnits quote fuel' (taken ++ new) = some (units, new) := by
  induction fuel generalizing text units rest with
  | zero => simp [stringUnits] at h
  | succ fuel ih =>
    cases text with
    | nil => simp [stringUnits] at h
    | cons c text =>
      by_cases hb : c = '\\'
      · subst hb
        obtain ⟨⟨first, behind⟩, he, h⟩ := Option.bind_eq_some_iff.mp h
        obtain ⟨⟨more, rest'⟩, hs, h⟩ := Option.bind_eq_some_iff.mp h
        obtain ⟨rfl, rfl⟩ : first ++ more = units ∧ rest' = rest := by simpa using h
        obtain ⟨taken, rfl, same⟩ := escape_scans true _ _ _ he
        obtain ⟨taken', rfl, same'⟩ := ih hs
        refine ⟨'\\' :: (taken ++ taken'), by simp, fun new fuel' hn hf => ?_⟩
        cases fuel' with
        | zero => simp at hf
        | succ fuel' =>
          have hf : taken'.length < fuel' := by
            simp at hf
            omega
          simp [stringUnits, same _ (hn.append taken'), same' new fuel' hn hf]
      · rw [stringUnits_char hb] at h
        split at h
        next hq =>
          obtain ⟨rfl, rfl⟩ : [] = units ∧ text = rest := by simpa using h
          refine ⟨[c], rfl, fun new fuel' _ hf => ?_⟩
          cases fuel' with
          | zero => simp at hf
          | succ fuel' => simp [stringUnits_char hb, hq]
        next hq =>
          split at h
          · simp at h
          next hl =>
            obtain ⟨⟨more, rest'⟩, hs, h⟩ := Option.map_eq_some_iff.mp h
            obtain ⟨rfl, rfl⟩ := Prod.mk.inj h
            obtain ⟨taken, rfl, same⟩ := ih hs
            refine ⟨c :: taken, rfl, fun new fuel' hn hf => ?_⟩
            cases fuel' with
            | zero => simp at hf
            | succ fuel' =>
              rw [List.cons_append, stringUnits_char hb, if_neg hq, if_neg hl,
                same new fuel' hn (by simpa using hf)]
              rfl

theorem string_scans (quote : Char) : Scans (string quote) := by
  intro text value rest h
  obtain ⟨⟨units, rest'⟩, hs, h⟩ := Option.map_eq_some_iff.mp h
  obtain ⟨rfl, rfl⟩ := Prod.mk.inj h
  obtain ⟨taken, rfl, same⟩ := stringUnits_takes _ hs
  refine ⟨taken, rfl, fun new hn => ?_⟩
  have := same new ((taken ++ new).length + 1) hn (by rw [List.length_append]; omega)
  simp only [string, this]
  rfl

/-! ## Templates -/

theorem hexDigits_none {count value : Nat} {front behind new : List Char} {e : Char}
    (he : isDigitIn 16 e = false) (h : hexDigits count value (front ++ e :: behind) = none) :
    hexDigits count value (front ++ e :: new) = none := by
  induction count generalizing value front with
  | zero => simp [hexDigits] at h
  | succ count ih =>
    cases front with
    | nil => simp [hexDigits, he]
    | cons c front =>
      cases hc : isDigitIn 16 c with
      | false => simp [hexDigits, hc]
      | true =>
        simp only [List.cons_append, hexDigits, hc, if_true] at h ⊢
        exact ih h

/-- The characters that end a piece of a template. -/
def endsPiece (c : Char) : Bool := c == '\x60' || c == '$'

theorem endsPiece_cases {e : Char} (h : endsPiece e = true) : e = '\x60' ∨ e = '$' := by
  simpa [endsPiece] using h

theorem endsPiece_not_hex {e : Char} (h : endsPiece e = true) : isDigitIn 16 e = false := by
  rcases endsPiece_cases h with rfl | rfl <;> decide

theorem span_stop {p : Char → Bool} {e : Char} (he : p e = false) (front behind : List Char) :
    (front ++ e :: behind).takeWhile p = front.takeWhile p ∧
      (front ++ e :: behind).dropWhile p = front.dropWhile p ++ e :: behind := by
  induction front with
  | nil => simp [he]
  | cons c front ih =>
    cases hc : p c with
    | false => simp [hc]
    | true => simpa [hc] using ih

theorem codePoint_none {front behind new : List Char} {e : Char} (he : endsPiece e = true)
    (h : codePoint (front ++ e :: behind) = none) : codePoint (front ++ e :: new) = none := by
  have hex := endsPiece_not_hex he
  cases hb : front.head?.any (· == '\x7b') with
  | true =>
    obtain ⟨front, rfl⟩ := head_eq hb
    rw [List.cons_append, codePoint_braced, (span_stop hex front _).1, (span_stop hex front _).2,
      Option.bind_some] at h ⊢
    cases hd : front.dropWhile (isDigitIn 16) with
    | nil => rcases endsPiece_cases he with rfl | rfl <;> rfl
    | cons c rest =>
      rw [hd] at h
      by_cases hc : c = '\x7d'
      · subst hc
        simp only [List.cons_append, bracedPoint] at h ⊢
        split at h <;> simp_all
      · have other (digits tail : List Char) : bracedPoint digits (c :: tail) = none := by
          unfold bracedPoint
          split
          · simp_all
          · rfl
        exact other _ _
  | false =>
    have head (tail : List Char) : (front ++ e :: tail).head?.any (· == '\x7b') = false := by
      cases front with
      | nil => rcases endsPiece_cases he with rfl | rfl <;> rfl
      | cons c front => simpa using hb
    rw [codePoint_plain (head _)] at h ⊢
    exact hexDigits_none hex h

/-- A malformed escape in a template is malformed whatever stands behind the piece. -/
theorem escape_none {c e : Char} {front behind new : List Char} (he : endsPiece e = true)
    (h : escape false (c :: (front ++ e :: behind)) = none) :
    escape false (c :: (front ++ e :: new)) = none := by
  by_cases hx : c = 'x'
  · subst hx
    exact Option.map_eq_none_iff.mpr
      (hexDigits_none (endsPiece_not_hex he) (Option.map_eq_none_iff.mp h))
  · by_cases hu : c = 'u'
    · subst hu
      exact Option.map_eq_none_iff.mpr (codePoint_none he (Option.map_eq_none_iff.mp h))
    · have head (p : Char → Bool) : (front ++ e :: new).head?.any p =
          (front ++ e :: behind).head?.any p := by
        cases front <;> rfl
      cases hn : decide (c = '\r') && (front ++ e :: behind).head?.any (· == '\n') with
      | true =>
        obtain ⟨rfl, hn⟩ : c = '\r' ∧ (front ++ e :: behind).head?.any (· == '\n') = true := by
          simpa using hn
        obtain ⟨tail, ht⟩ := head_eq hn
        simp [ht, escape] at h
      | false =>
        have hr : c = '\r' → (front ++ e :: behind).head?.any (· == '\n') = false := by
          simpa using hn
        rw [escape_short hr hx hu] at h
        rw [escape_short (by rwa [head]) hx hu]
        unfold shortEscape digitEscape at h ⊢
        simp only [head]
        split at h
        · simp at h
        next hl =>
          split at h
          next hd =>
            split at h
            · simp at h
            next hz =>
              rw [if_neg hl, if_pos hd, if_neg hz]
              rfl
          next hd => simp at h

/-- What `templateText` takes: a piece with its end, whatever stands behind. -/
def TakesPiece (text : List Char) (piece : TemplateText) (rest : List Char) : Prop :=
  ∃ front e back, endsPiece e = true ∧ (back = [] ∨ back = ['\x7b']) ∧
    text = front ++ e :: back ++ rest ∧
    ∀ new fuel, Shut rest new → (front ++ e :: back).length < fuel →
      templateText fuel (front ++ e :: back ++ new) = some (piece, new)

/-- A character, or an escape, before the rest of a piece. -/
theorem TakesPiece.pushed {tail rest : List Char} {piece : TemplateText}
    (h : TakesPiece tail piece rest) {b : List Char} (hb : b ≠ [])
    {units : Option (List CodeUnit)} {spelling : List Char}
    (hw : ∀ fuel front e back new, endsPiece e = true → tail = front ++ e :: back ++ rest →
      Shut rest new → templateText (fuel + 1) (b ++ (front ++ e :: back ++ new)) =
        (templateText fuel (front ++ e :: back ++ new)).map fun (more, rest) =>
          (more.push units spelling, rest)) :
    TakesPiece (b ++ tail) (piece.push units spelling) rest := by
  obtain ⟨front, e, back, he, hback, rfl, same⟩ := h
  refine ⟨b ++ front, e, back, he, hback, by simp, fun new fuel hn hf => ?_⟩
  have hpos : 0 < b.length := List.length_pos_iff.mpr hb
  cases fuel with
  | zero => simp at hf
  | succ fuel =>
    have hf : (front ++ e :: back).length < fuel := by
      simp at hf ⊢
      omega
    have := hw fuel front e back new he rfl hn
    simp only [List.append_assoc] at this same ⊢
    rw [this, same new fuel hn hf]
    rfl

theorem templateText_char {fuel : Nat} {c : Char} {text : List Char} (h1 : c ≠ '\x60')
    (h2 : c = '$' → text.head?.any (· == '\x7b') = false)
    (h3 : c = '\r' → text.head?.any (· == '\n') = false) (h4 : c ≠ '\\') :
    templateText (fuel + 1) (c :: text) = (templateText fuel text).map fun (more, rest) =>
      if c = '\r' then (more.push (some [.char '\n']) ['\n'], rest)
      else (more.push (some [.char c]) [c], rest) := by
  by_cases hr : c = '\r'
  · subst hr
    rw [templateText]
    · rfl
    · rintro tail rfl
      simp at h3
  · rw [templateText]
    · simp [hr]
    · exact h1
    · rintro tail rfl rfl
      simp at h2
    · exact fun _ hc _ => hr hc
    · exact hr
    · exact h4

theorem templateText_backslash (fuel : Nat) (text : List Char) :
    templateText (fuel + 1) ('\\' :: text) =
      match escape false text with
      | some (units, after) =>
        (templateText fuel after).map fun (more, rest) =>
          (more.push (some units) ('\\' :: text.take (text.length - after.length)), rest)
      | none =>
        match text with
        | c :: text =>
          (templateText fuel text).map fun (more, rest) => (more.push none ['\\', c], rest)
        | [] => none := rfl

theorem templateText_takes (fuel : Nat) {text rest : List Char} {piece : TemplateText}
    (h : templateText fuel text = some (piece, rest)) : TakesPiece text piece rest := by
  have head (front back : List Char) (e : Char) (new rest : List Char) :
      (front ++ e :: back ++ new).head? = (front ++ e :: back ++ rest).head? := by
    cases front <;> rfl
  induction fuel generalizing text rest piece with
  | zero => simp [templateText] at h
  | succ fuel ih =>
    cases text with
    | nil => simp [templateText] at h
    | cons c text =>
      by_cases h1 : c = '\x60'
      · subst h1
        obtain ⟨rfl, rfl⟩ : _ = piece ∧ text = rest := by simpa [templateText] using h
        refine ⟨[], '\x60', [], rfl, .inl rfl, rfl, fun new fuel _ hf => ?_⟩
        cases fuel with
        | zero => simp at hf
        | succ fuel => rfl
      · by_cases h2 : c = '\\'
        · subst h2
          rw [templateText_backslash] at h
          split at h
          next units after he =>
            obtain ⟨⟨more, rest'⟩, hs, h⟩ := Option.map_eq_some_iff.mp h
            obtain ⟨rfl, rfl⟩ := Prod.mk.inj h
            obtain ⟨taken, rfl, same⟩ := escape_scans false _ _ _ he
            rw [show (taken ++ after).take ((taken ++ after).length - after.length) = taken by simp]
            refine (ih hs).pushed (b := '\\' :: taken) (by simp) ?_
            rintro fuel front e back new - rfl hn
            have := same _ (hn.append (front ++ e :: back))
            rw [List.cons_append, templateText_backslash, this]
            simp
          next he =>
            cases text with
            | nil => simp at h
            | cons c text =>
              obtain ⟨⟨more, rest'⟩, hs, h⟩ := Option.map_eq_some_iff.mp h
              obtain ⟨rfl, rfl⟩ := Prod.mk.inj h
              refine (ih hs).pushed (b := ['\\', c]) (by simp) ?_
              rintro fuel front e back new hee rfl hn
              have : escape false (c :: (front ++ e :: back ++ new)) = none := by
                simp only [List.append_assoc, List.cons_append] at he ⊢
                exact escape_none hee he
              rw [List.cons_append, List.cons_append, List.nil_append, templateText_backslash, this]
        · cases h3 : decide (c = '\r') && text.head?.any (· == '\n') with
          | true =>
            obtain ⟨rfl, hn⟩ : c = '\r' ∧ text.head?.any (· == '\n') = true := by simpa using h3
            obtain ⟨tail, rfl⟩ := head_eq hn
            obtain ⟨⟨more, rest'⟩, hs, h⟩ := Option.map_eq_some_iff.mp h
            obtain ⟨rfl, rfl⟩ := Prod.mk.inj h
            exact (ih hs).pushed (b := ['\r', '\n']) (by simp) fun _ _ _ _ _ _ _ _ => rfl
          | false =>
            have h3 : c = '\r' → text.head?.any (· == '\n') = false := by simpa using h3
            cases h4 : decide (c = '$') && text.head?.any (· == '\x7b') with
            | true =>
              obtain ⟨rfl, hn⟩ : c = '$' ∧ text.head?.any (· == '\x7b') = true := by simpa using h4
              obtain ⟨tail, rfl⟩ := head_eq hn
              obtain ⟨rfl, rfl⟩ : _ = piece ∧ tail = rest := by simpa [templateText] using h
              refine ⟨[], '$', ['\x7b'], rfl, .inr rfl, rfl, fun new fuel _ hf => ?_⟩
              cases fuel with
              | zero => simp at hf
              | succ fuel => rfl
            | false =>
              have h4 : c = '$' → text.head?.any (· == '\x7b') = false := by simpa using h4
              rw [templateText_char h1 h4 h3 h2] at h
              obtain ⟨⟨more, rest'⟩, hs, h⟩ := Option.map_eq_some_iff.mp h
              have char (fuel : Nat) (front : List Char) (e : Char) (back new : List Char)
                  (ht : text = front ++ e :: back ++ rest') :=
                @templateText_char fuel c (front ++ e :: back ++ new) h1
                  (by rwa [head _ _ _ _ rest', ← ht]) (by rwa [head _ _ _ _ rest', ← ht]) h2
              by_cases hr : c = '\r'
              · simp only [hr, if_true, Prod.mk.injEq] at h char
                obtain ⟨rfl, rfl⟩ := h
                rw [hr]
                exact (ih hs).pushed (b := ['\r']) (by simp)
                  fun fuel front e back new _ ht _ => char fuel front e back new ht
              · simp only [hr, if_false, Prod.mk.injEq] at h char
                obtain ⟨rfl, rfl⟩ := h
                exact (ih hs).pushed (b := [c]) (by simp)
                  fun fuel front e back new _ ht _ => char fuel front e back new ht

theorem quasi_scans : Scans quasi := by
  intro text value rest h
  obtain ⟨⟨piece, rest'⟩, hp, h⟩ := Option.map_eq_some_iff.mp h
  obtain ⟨rfl, rfl⟩ := Prod.mk.inj h
  obtain ⟨front, e, back, -, -, rfl, same⟩ := templateText_takes _ hp
  refine ⟨front ++ e :: back, rfl, fun new hn => ?_⟩
  have := same new ((front ++ e :: back ++ new).length + 1) hn
    (by simp only [List.length_append]; omega)
  simp only [quasi, this]
  rfl

end Collector.Script
