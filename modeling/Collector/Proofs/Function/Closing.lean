import Collector.Function.Canonical
import Collector.Proofs.Text.Ascii
import Collector.Proofs.Text.Parentheses
import Mathlib.Data.List.TakeWhile
import Mathlib.Order.Bounds.Basic

/-!
# The parenthesis that closes another one

Offsets count bytes, and a scan may be asked about any of them. No byte of a character above ASCII
is that of a parenthesis, so bytes and characters count the same parentheses
(`exists_prefix_of_take`), and an offset at which there is one lies between characters
(`exists_of_getElem?`).

* `ClosedAt` says by bytes where as many parentheses are closed as were opened.
* `IsSlice` is the text between two offsets, of which neither lies inside a character.
* `closing_parenthesis_least` is the result.
-/

namespace Collector

open Text

/-! ## Bytes of characters -/

/-- The bytes of characters. -/
def encoded (text : List Char) : List UInt8 := text.flatMap String.utf8EncodeChar

theorem encoded_cons (c : Char) (rest : List Char) :
    encoded (c :: rest) = String.utf8EncodeChar c ++ encoded rest := rfl

theorem encoded_append (front rest : List Char) :
    encoded (front ++ rest) = encoded front ++ encoded rest := List.flatMap_append

theorem byteLength_eq (text : List Char) : byteLength text = (encoded text).length := by
  induction text with
  | nil => rfl
  | cons c rest ih =>
    rw [encoded_cons, List.length_append, String.length_utf8EncodeChar, ← ih]
    rfl

theorem byteLength_append (front rest : List Char) :
    byteLength (front ++ rest) = byteLength front + byteLength rest := by
  rw [byteLength_eq, encoded_append, List.length_append, ← byteLength_eq, ← byteLength_eq]

section Ascii

variable {a : Char} (ha : a.toNat < 0x80)

include ha

/-- The byte of an ASCII character is no part of another character. -/
theorem notMem_utf8EncodeChar {c : Char} (hc : c ≠ a) : a.toUInt8 ∉ String.utf8EncodeChar c := by
  have hne : c.val.toNat ≠ a.val.toNat := fun h => hc (Char.ext (UInt32.toNat_inj.mp h))
  have hbyte : a.toUInt8.toNat = a.val.toNat := Nat.mod_eq_of_lt (by
    have : a.val.toNat < 0x80 := ha
    omega)
  have hsmall : a.val.toNat < 0x80 := ha
  unfold String.utf8EncodeChar
  generalize c.val.toNat = n at hne
  simp only
  -- a lone byte is another ASCII character, and the bytes of a longer encoding are no ASCII
  split_ifs <;>
    simp only [List.mem_cons, List.not_mem_nil, or_false, ← UInt8.toNat_inj, hbyte,
      UInt8.toNat_ofNat'] <;>
    omega

theorem count_utf8EncodeChar (c : Char) :
    (String.utf8EncodeChar c).count a.toUInt8 = if c = a then 1 else 0 := by
  split
  next hc => rw [hc, utf8EncodeChar_ascii ha, List.count_singleton_self]
  next hc => exact List.count_eq_zero.mpr (notMem_utf8EncodeChar ha hc)

theorem encoded_ascii (rest : List Char) : encoded (a :: rest) = a.toUInt8 :: encoded rest := by
  rw [encoded_cons, utf8EncodeChar_ascii ha]
  rfl

theorem count_encoded (text : List Char) : (encoded text).count a.toUInt8 = text.count a := by
  induction text with
  | nil => rfl
  | cons c rest ih =>
    rw [encoded_cons, List.count_append, ih, count_utf8EncodeChar ha, List.count_cons, Nat.add_comm]
    simp only [beq_iff_eq]

/-- At an offset where there is the byte of an ASCII character, that character stands. -/
theorem exists_of_getElem? {text : List Char} {offset : Nat}
    (h : (encoded text)[offset]? = some a.toUInt8) :
    ∃ front rest, text = front ++ a :: rest ∧ byteLength front = offset := by
  induction text generalizing offset with
  | nil => cases h
  | cons c rest ih =>
    rw [encoded_cons] at h
    by_cases hinside : offset < (String.utf8EncodeChar c).length
    · rw [List.getElem?_append_left hinside] at h
      have hc : c = a := by
        by_contra hc
        exact notMem_utf8EncodeChar ha hc (List.mem_of_getElem? h)
      rw [hc, utf8EncodeChar_ascii ha, List.length_singleton, Nat.lt_one_iff] at hinside
      exact ⟨[], rest, by rw [hc, List.nil_append], hinside.symm⟩
    · rw [List.getElem?_append_right (by omega)] at h
      obtain ⟨front, behind, rfl, hlength⟩ := ih h
      rw [String.length_utf8EncodeChar] at hinside hlength
      refine ⟨c :: front, behind, rfl, ?_⟩
      rw [byteLength, hlength]
      omega

end Ascii

/-- The beginning of a text up to any offset has the ASCII characters of one up to a character. -/
theorem exists_prefix_of_take (text : List Char) (n : Nat) : ∃ front, front <+: text ∧
    ∀ a : Char, a.toNat < 0x80 → ((encoded text).take n).count a.toUInt8 = front.count a := by
  induction text generalizing n with
  | nil => exact ⟨[], List.nil_prefix, fun a _ => by simp [encoded]⟩
  | cons c rest ih =>
    have hlength := String.length_utf8EncodeChar c
    by_cases hn : c.utf8Size ≤ n
    · obtain ⟨front, hfront, hcount⟩ := ih (n - c.utf8Size)
      refine ⟨c :: front, List.cons_prefix_cons.mpr ⟨rfl, hfront⟩, fun a ha => ?_⟩
      rw [encoded_cons, List.take_append, hlength, List.take_of_length_le (hlength ▸ hn),
        List.count_append, hcount a ha, count_utf8EncodeChar ha, List.count_cons, Nat.add_comm]
      simp only [beq_iff_eq]
    · refine ⟨[], List.nil_prefix, fun a ha => ?_⟩
      rw [encoded_cons, List.take_append_of_le_length (by omega), List.count_nil,
        List.count_eq_zero]
      intro hmem
      have hc : c = a := by
        by_contra hc
        exact notMem_utf8EncodeChar ha hc (List.mem_of_mem_take hmem)
      rw [hc, utf8EncodeChar_ascii ha, List.length_singleton] at hlength
      rw [hc] at hn
      have hzero : n = 0 := by omega
      rw [hzero] at hmem
      cases hmem

/-! ## Offsets between characters -/

theorem dropBytes_cons {n : Nat} (hn : n ≠ 0) (c : Char) (rest : List Char) :
    dropBytes (c :: rest) n =
      if c.utf8Size ≤ n then dropBytes rest (n - c.utf8Size) else none := by
  rw [dropBytes]
  exact hn

/-- A text from an offset on is what stands behind so many bytes. -/
theorem dropBytes_eq_some_iff {text rest : List Char} {n : Nat} :
    dropBytes text n = some rest ↔ ∃ front, text = front ++ rest ∧ byteLength front = n := by
  induction text, n using dropBytes.induct with
  | case1 text =>
    rw [dropBytes, Option.some_inj]
    constructor
    · rintro rfl
      exact ⟨[], rfl, rfl⟩
    · rintro ⟨front, rfl, hlength⟩
      cases front with
      | nil => rfl
      | cons c front =>
        have hsize := c.utf8Size_pos
        rw [byteLength] at hlength
        omega
  | case2 n =>
    rw [dropBytes]
    constructor
    · intro h
      cases h
    · rintro ⟨front, htext, hlength⟩
      rw [(List.append_eq_nil_iff.mp htext.symm).1] at hlength
      cases hlength
  | case3 c others n hn hsize ih =>
    rw [dropBytes_cons hn, if_pos hsize, ih]
    constructor
    · rintro ⟨front, rfl, hlength⟩
      refine ⟨c :: front, rfl, ?_⟩
      rw [byteLength, hlength]
      exact Nat.add_sub_cancel' hsize
    · rintro ⟨front, htext, hlength⟩
      cases front with
      | nil => exact absurd hlength.symm hn
      | cons d front =>
        obtain ⟨rfl, rfl⟩ := List.cons.inj htext
        exact ⟨front, rfl, Nat.eq_sub_of_add_eq' hlength⟩
  | case4 c others n hn hsize =>
    rw [dropBytes_cons hn, if_neg hsize]
    constructor
    · intro h
      cases h
    · rintro ⟨front, htext, hlength⟩
      cases front with
      | nil => exact absurd hlength.symm hn
      | cons d front =>
        obtain ⟨rfl, rfl⟩ := List.cons.inj htext
        rw [byteLength] at hlength
        omega

/-- The text between two offsets, neither of which lies inside a character. -/
def IsSlice (text : List Char) (start stop : Nat) (part : List Char) : Prop :=
  ∃ front back, text = front ++ part ++ back ∧ byteLength front = start ∧
    byteLength front + byteLength part = stop

theorem eq_nil_of_byteLength {text : List Char} (h : byteLength text = 0) : text = [] := by
  cases text with
  | nil => rfl
  | cons c rest =>
    have hsize := c.utf8Size_pos
    rw [byteLength] at h
    omega

/-- Two beginnings of a text that are equally long are the same. -/
theorem eq_of_prefix {text front other : List Char} (h : front <+: text) (h' : other <+: text)
    (hlength : byteLength front = byteLength other) : front = other := by
  rcases List.prefix_or_prefix_of_prefix h h' with ⟨more, rfl⟩ | ⟨more, rfl⟩
  · rw [byteLength_append] at hlength
    have hmore : byteLength more = 0 := by omega
    rw [eq_nil_of_byteLength hmore, List.append_nil]
  · rw [byteLength_append] at hlength
    have hmore : byteLength more = 0 := by omega
    rw [eq_nil_of_byteLength hmore, List.append_nil]

/-- There is one text between two offsets. -/
theorem IsSlice.unique {text part other : List Char} {start stop : Nat}
    (h : IsSlice text start stop part) (h' : IsSlice text start stop other) : part = other := by
  obtain ⟨front, back, htext, rfl, hstop⟩ := h
  obtain ⟨front', back', htext', hstart, hstop'⟩ := h'
  have hbefore : front <+: text := ⟨part ++ back, by rw [htext, List.append_assoc]⟩
  have hbefore' : front' <+: text := ⟨other ++ back', by rw [htext', List.append_assoc]⟩
  have hthrough : front ++ part <+: text := ⟨back, htext.symm⟩
  have hthrough' : front' ++ other <+: text := ⟨back', htext'.symm⟩
  have hfront : front' = front := eq_of_prefix hbefore' hbefore hstart
  have hpart : front ++ part = front' ++ other := by
    refine eq_of_prefix hthrough hthrough' ?_
    rw [byteLength_append, byteLength_append, hstop, hstop']
  rw [hfront] at hpart
  exact List.append_cancel_left hpart

/-! ## The scan by bytes -/

/-- The bytes from one offset up to another, that one included. -/
def through (bytes : List UInt8) (start stop : Nat) : List UInt8 :=
  (bytes.drop start).take (stop + 1 - start)

/-- At an offset behind another, as many parentheses have been closed as opened since then. -/
def ClosedAt (bytes : List UInt8) (start stop : Nat) : Prop :=
  start < stop ∧ stop < bytes.length ∧
    (through bytes start stop).count ')'.toUInt8 = (through bytes start stop).count '('.toUInt8

section Opened

variable {front rest : List Char}

theorem through_open (n : Nat) :
    through (encoded (front ++ '(' :: rest)) (byteLength front) (byteLength front + n) =
      '('.toUInt8 :: (encoded rest).take n := by
  unfold through
  rw [encoded_append, encoded_ascii (by decide), byteLength_eq, List.drop_left,
    Nat.add_assoc, Nat.add_sub_cancel_left, List.take_succ_cons]

/-- Behind a parenthesis, the bytes up to the one that closes it close one more than they open. -/
theorem closedAt_open {stop : Nat} :
    ClosedAt (encoded (front ++ '(' :: rest)) (byteLength front) stop ↔
      ∃ n, stop = byteLength front + n ∧ n ≤ byteLength rest ∧
        ((encoded rest).take n).count ')'.toUInt8 =
          ((encoded rest).take n).count '('.toUInt8 + 1 := by
  have hlength : (encoded (front ++ '(' :: rest)).length =
      byteLength front + 1 + byteLength rest := by
    rw [← byteLength_eq, byteLength_append, byteLength, Nat.add_assoc]
    rfl
  have hcount (n : Nat) : (through (encoded (front ++ '(' :: rest)) (byteLength front)
        (byteLength front + n)).count ')'.toUInt8 =
      (through (encoded (front ++ '(' :: rest)) (byteLength front)
        (byteLength front + n)).count '('.toUInt8 ↔
      ((encoded rest).take n).count ')'.toUInt8 =
        ((encoded rest).take n).count '('.toUInt8 + 1 := by
    rw [through_open, List.count_cons_self, List.count_cons_of_ne (by decide)]
  unfold ClosedAt
  rw [hlength]
  constructor
  · rintro ⟨hstart, hstop, hclosed⟩
    obtain ⟨n, rfl⟩ := Nat.exists_eq_add_of_lt hstart
    refine ⟨n + 1, rfl, by omega, (hcount (n + 1)).mp hclosed⟩
  · rintro ⟨n, rfl, hn, hclosed⟩
    have hpos : 0 < n := by
      rcases Nat.eq_zero_or_pos n with rfl | hpos
      · simp at hclosed
      · exact hpos
    exact ⟨by omega, by omega, (hcount n).mpr hclosed⟩

/-- Nothing is closed in a text no beginning of which closes more than it opens. -/
theorem not_closes_of_within (h : Within 0 rest) (n : Nat) :
    ((encoded rest).take n).count ')'.toUInt8 ≠ ((encoded rest).take n).count '('.toUInt8 + 1 := by
  obtain ⟨first, hfirst, hcount⟩ := exists_prefix_of_take rest n
  rw [hcount ')' (by decide), hcount '(' (by decide)]
  have := h first hfirst
  omega

/-- Where the scan stops, the parenthesis is closed for the first time. -/
theorem isLeast_closedAt {inside back : List Char}
    (h : splitBalanced 0 rest = some (inside, back)) :
    IsLeast {stop | ClosedAt (encoded (front ++ '(' :: rest)) (byteLength front) stop}
      (byteLength front + 1 + byteLength inside) := by
  obtain ⟨rfl, hcloses⟩ := splitBalanced_eq_some_iff.mp h
  constructor
  · have htake : (encoded (inside ++ ')' :: back)).take (byteLength inside + 1) =
        encoded (inside ++ [')']) := by
      rw [encoded_append, encoded_append, encoded_ascii (by decide), encoded_ascii (by decide),
        byteLength_eq, List.take_length_add_append]
      rfl
    refine closedAt_open.mpr ⟨byteLength inside + 1, by omega, ?_, ?_⟩
    · rw [byteLength_append, byteLength, show ')'.utf8Size = 1 from rfl]
      omega
    · have hcount := hcloses.count
      rw [htake, count_encoded (by decide), count_encoded (by decide), List.count_append,
        List.count_append, hcount]
      rfl
  · intro stop hstop
    obtain ⟨n, rfl, -, hclosed⟩ := closedAt_open.mp hstop
    by_contra hlt
    have hn : n ≤ (encoded inside).length := by
      rw [← byteLength_eq]
      omega
    rw [encoded_append, List.take_append_of_le_length hn] at hclosed
    exact not_closes_of_within hcloses.within n hclosed

theorem not_closedAt (h : splitBalanced 0 rest = none) (stop : Nat) :
    ¬ ClosedAt (encoded (front ++ '(' :: rest)) (byteLength front) stop := by
  intro hstop
  obtain ⟨n, -, -, hclosed⟩ := closedAt_open.mp hstop
  exact not_closes_of_within (splitBalanced_eq_none_iff.mp h) n hclosed

end Opened

/-! ## The parenthesis that closes -/

theorem closingParenthesis_open (front rest : List Char) :
    closingParenthesis (front ++ '(' :: rest) (byteLength front) =
      (splitBalanced 0 rest).map fun found => byteLength front + 1 + byteLength found.1 := by
  unfold closingParenthesis
  rw [dropBytes_eq_some_iff.mpr ⟨front, rfl, rfl⟩]
  rfl

/-- Without a parenthesis at the offset, nothing is closed. -/
theorem getElem?_of_closingParenthesis {text : List Char} {start close : Nat}
    (h : closingParenthesis text start = some close) :
    (encoded text)[start]? = some '('.toUInt8 := by
  unfold closingParenthesis at h
  split at h
  next rest hdrop =>
    obtain ⟨front, rfl, rfl⟩ := dropBytes_eq_some_iff.mp hdrop
    rw [encoded_append, encoded_ascii (by decide), byteLength_eq,
      List.getElem?_append_right (Nat.le_refl _), Nat.sub_self]
    rfl
  · cases h

/-- The offset that is answered is the least one behind the parenthesis at which it is closed. -/
theorem closingParenthesis_eq_some_iff {text : List Char} {start close : Nat} :
    closingParenthesis text start = some close ↔ (encoded text)[start]? = some '('.toUInt8 ∧
      IsLeast {stop | ClosedAt (encoded text) start stop} close := by
  constructor
  · intro h
    have hopen := getElem?_of_closingParenthesis h
    obtain ⟨front, rest, rfl, rfl⟩ := exists_of_getElem? (by decide) hopen
    rw [closingParenthesis_open, Option.map_eq_some_iff] at h
    obtain ⟨⟨inside, back⟩, hscan, rfl⟩ := h
    exact ⟨hopen, isLeast_closedAt hscan⟩
  · rintro ⟨hopen, hleast⟩
    obtain ⟨front, rest, rfl, rfl⟩ := exists_of_getElem? (by decide) hopen
    rw [closingParenthesis_open]
    cases hscan : splitBalanced 0 rest with
    | none => exact absurd hleast.1 (not_closedAt hscan close)
    | some found =>
      rw [Option.map_some, (isLeast_closedAt hscan).unique hleast]

/-- No offset is answered if there is no parenthesis or nothing closes it. -/
theorem closingParenthesis_eq_none_iff {text : List Char} {start : Nat} :
    closingParenthesis text start = none ↔
      ((encoded text)[start]? = some '('.toUInt8 →
        ∀ stop, ¬ ClosedAt (encoded text) start stop) := by
  constructor
  · intro h hopen
    obtain ⟨front, rest, rfl, rfl⟩ := exists_of_getElem? (by decide) hopen
    rw [closingParenthesis_open, Option.map_eq_none_iff] at h
    exact not_closedAt h
  · intro h
    by_contra hsome
    obtain ⟨close, hclose⟩ := Option.ne_none_iff_exists'.mp hsome
    obtain ⟨hopen, hleast⟩ := closingParenthesis_eq_some_iff.mp hclose
    exact h hopen close hleast.1

/-- What stands between a parenthesis and the one that closes it. -/
theorem isSlice_inside (front : List Char) {rest inside back : List Char}
    (h : splitBalanced 0 rest = some (inside, back)) :
    IsSlice (front ++ '(' :: rest) (byteLength front + 1)
      (byteLength front + 1 + byteLength inside) inside := by
  obtain ⟨rfl, -⟩ := splitBalanced_eq_some_iff.mp h
  have hopen : byteLength (front ++ ['(']) = byteLength front + 1 := by
    rw [byteLength_append]
    rfl
  refine ⟨front ++ ['('], ')' :: back, ?_, hopen, by rw [hopen]⟩
  simp

/-- Between the two parentheses stands a text that closes its own. -/
theorem exists_inside {text : List Char} {start close : Nat}
    (h : closingParenthesis text start = some close) :
    (encoded text)[close]? = some ')'.toUInt8 ∧
      ∃ inside, IsSlice text (start + 1) close inside ∧ Closes 0 inside := by
  obtain ⟨front, rest, rfl, rfl⟩ :=
    exists_of_getElem? (by decide) (getElem?_of_closingParenthesis h)
  rw [closingParenthesis_open, Option.map_eq_some_iff] at h
  obtain ⟨⟨inside, back⟩, hscan, rfl⟩ := h
  refine ⟨?_, inside, isSlice_inside _ hscan, (splitBalanced_eq_some_iff.mp hscan).2⟩
  obtain ⟨rfl, -⟩ := splitBalanced_eq_some_iff.mp hscan
  have htext : front ++ '(' :: (inside ++ ')' :: back) =
      (front ++ '(' :: inside) ++ ')' :: back := by
    simp
  have hlength : byteLength front + 1 + byteLength inside =
      (encoded (front ++ '(' :: inside)).length := by
    rw [← byteLength_eq, byteLength_append, byteLength, Nat.add_assoc]
    rfl
  rw [htext, hlength, encoded_append, encoded_ascii (by decide),
    List.getElem?_append_right (Nat.le_refl _), Nat.sub_self]
  rfl

/-! ## The two cuts -/

theorem parameterList_open {front : List Char} (h : '(' ∉ front) (rest : List Char) :
    parameterList (front ++ '(' :: rest) = (splitBalanced 0 rest).map Prod.fst := by
  have hfront : ∀ c ∈ front, (c != '(') = true := by
    intro c hc
    rw [bne_iff_ne]
    rintro rfl
    exact h hc
  unfold parameterList
  rw [List.dropWhile_append_of_pos hfront]
  rfl

theorem parameterList_eq_none {text : List Char} (h : '(' ∉ text) : parameterList text = none := by
  have htext : text.dropWhile (· != '(') = [] := by
    rw [List.dropWhile_eq_nil_iff]
    intro c hc
    rw [bne_iff_ne]
    rintro rfl
    exact h hc
  unfold parameterList
  rw [htext]

/-- The first parenthesis of a text, by bytes. -/
theorem isLeast_open {front : List Char} (h : '(' ∉ front) (rest : List Char) :
    IsLeast {offset | (encoded (front ++ '(' :: rest))[offset]? = some '('.toUInt8}
      (byteLength front) := by
  rw [encoded_append, encoded_ascii (by decide), byteLength_eq]
  constructor
  · show _ = _
    rw [List.getElem?_append_right (Nat.le_refl _), Nat.sub_self]
    rfl
  · intro offset hoffset
    by_contra hlt
    have hoffset : _ = _ := hoffset
    rw [List.getElem?_append_left (by omega)] at hoffset
    obtain ⟨first, others, rfl, -⟩ := exists_of_getElem? (by decide) hoffset
    exact h (by simp)

/-- The parameters stand between the first parenthesis and the one that closes it. -/
theorem parameterList_eq_some_iff {text inside : List Char} :
    parameterList text = some inside ↔ ∃ start close,
      IsLeast {offset | (encoded text)[offset]? = some '('.toUInt8} start ∧
        closingParenthesis text start = some close ∧ IsSlice text (start + 1) close inside := by
  by_cases hmem : '(' ∈ text
  · obtain ⟨front, rest, rfl, hfront⟩ := List.eq_append_cons_of_mem hmem
    rw [parameterList_open hfront, Option.map_eq_some_iff]
    constructor
    · rintro ⟨⟨inside, back⟩, hscan, rfl⟩
      refine ⟨byteLength front, _, isLeast_open hfront rest, ?_, isSlice_inside _ hscan⟩
      rw [closingParenthesis_open, hscan]
      rfl
    · rintro ⟨start, close, hstart, hclose, hslice⟩
      obtain rfl := hstart.unique (isLeast_open hfront rest)
      rw [closingParenthesis_open, Option.map_eq_some_iff] at hclose
      obtain ⟨⟨found, back⟩, hscan, rfl⟩ := hclose
      exact ⟨_, hscan, (isSlice_inside _ hscan).unique hslice⟩
  · rw [parameterList_eq_none hmem]
    constructor
    · intro h
      cases h
    · rintro ⟨start, close, ⟨hstart, -⟩, -⟩
      obtain ⟨front, rest, rfl, -⟩ := exists_of_getElem? (by decide) hstart
      exact absurd (by simp) hmem

/-- The parentheses around a parameter list are taken off if they close each other. -/
theorem bareParameters_cases (params : String) :
    let trimmed := trim params.toList
    (closingParenthesis trimmed 0 = some (byteLength trimmed - 1) →
      IsSlice trimmed 1 (byteLength trimmed - 1) (Canonical.bareParameters params).toList) ∧
    (closingParenthesis trimmed 0 ≠ some (byteLength trimmed - 1) →
      (Canonical.bareParameters params).toList = trimmed) := by
  unfold Canonical.bareParameters
  generalize trim params.toList = trimmed
  dsimp only
  split
  next rest =>
    have hclosing := closingParenthesis_open [] rest
    rw [List.nil_append, show byteLength [] = 0 from rfl] at hclosing
    cases hscan : splitBalanced 0 rest with
    | none =>
      rw [hclosing, hscan]
      exact ⟨nofun, fun _ => String.toList_ofList⟩
    | some found =>
      obtain ⟨inside, back⟩ := found
      have hslice := isSlice_inside [] hscan
      obtain ⟨rfl, -⟩ := splitBalanced_eq_some_iff.mp hscan
      have hlength : byteLength ('(' :: (inside ++ ')' :: back)) - 1 =
          1 + byteLength inside + byteLength back := by
        rw [byteLength, byteLength_append, byteLength, show '('.utf8Size = 1 from rfl,
          show ')'.utf8Size = 1 from rfl]
        omega
      rw [hclosing, hscan, hlength]
      cases back with
      | nil =>
        rw [String.toList_ofList]
        exact ⟨fun _ => hslice, fun hne => absurd (by simp [byteLength]) hne⟩
      | cons c back =>
        have hsize := c.utf8Size_pos
        refine ⟨fun heq => ?_, fun _ => String.toList_ofList⟩
        simp only [Option.map_some, Option.some.injEq, byteLength] at heq
        omega
  next hopen =>
    refine ⟨fun hclose => ?_, fun _ => String.toList_ofList⟩
    obtain ⟨front, rest, rfl, hfront⟩ :=
      exists_of_getElem? (by decide) (getElem?_of_closingParenthesis hclose)
    rw [eq_nil_of_byteLength hfront] at hopen
    exact absurd rfl (hopen rest)

/-! ## The result -/

/-- A parenthesis at an offset of a text is closed at the least offset behind it at which as many
are closed as were opened; without such an offset, or if there is no parenthesis, none is answered.
There the closing parenthesis stands, and the text between the two closes its own. Neither of them
lies inside a character, so both texts that are cut out by such offsets are texts: the parameter
list of a function, and a parameter list without the parentheses around it.

The depth of a scan is a number without a bound here. Counted in a signed integer of 32 bits, it is
the same for every text with fewer than `2 ^ 31` opening parentheses. -/
theorem closing_parenthesis_least (text : String) (start : Nat) :
    (∀ close, closingParenthesis text.toList start = some close ↔
      (bytes text)[start]? = some '('.toUInt8 ∧
        IsLeast {stop | ClosedAt (bytes text) start stop} close) ∧
    (closingParenthesis text.toList start = none ↔
      ((bytes text)[start]? = some '('.toUInt8 → ∀ stop, ¬ ClosedAt (bytes text) start stop)) ∧
    (∀ close, closingParenthesis text.toList start = some close →
      (bytes text)[close]? = some ')'.toUInt8 ∧
        ∃ inside, IsSlice text.toList (start + 1) close inside ∧ Closes 0 inside) ∧
    (∀ inside, parameterList text.toList = some inside ↔ ∃ first close,
      IsLeast {offset | (bytes text)[offset]? = some '('.toUInt8} first ∧
        closingParenthesis text.toList first = some close ∧
        IsSlice text.toList (first + 1) close inside) ∧
    let trimmed := trim text.toList
    (closingParenthesis trimmed 0 = some (byteLength trimmed - 1) →
      IsSlice trimmed 1 (byteLength trimmed - 1) (Canonical.bareParameters text).toList) ∧
    (closingParenthesis trimmed 0 ≠ some (byteLength trimmed - 1) →
      (Canonical.bareParameters text).toList = trimmed) :=
  ⟨fun _ => closingParenthesis_eq_some_iff, closingParenthesis_eq_none_iff,
    fun _ => exists_inside, fun _ => parameterList_eq_some_iff,
    bareParameters_cases text⟩

/-- Behind characters of several bytes, a parenthesis that is closed behind others. -/
theorem closing_parenthesis_least_wide :
    closingParenthesis "é(ü(😀))".toList 2 = some 11 ∧
      IsLeast {stop | ClosedAt (bytes "é(ü(😀))") 2 stop} 11 ∧
      (∃ inside, IsSlice "é(ü(😀))".toList 3 11 inside ∧ Closes 0 inside) := by
  have h : closingParenthesis "é(ü(😀))".toList 2 = some 11 := by decide
  obtain ⟨hsome, -, hinside, -⟩ := closing_parenthesis_least "é(ü(😀))" 2
  exact ⟨h, ((hsome 11).mp h).2, (hinside 11 h).2⟩

end Collector
