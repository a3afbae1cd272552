import Collector.Proofs.Text.ByteOrder

/-!
# Texts in ASCII

A text is stored as bytes, from which its characters are decoded one after the other. In ASCII each
byte is a character, so all of them can be read off at once. A reader that runs on these characters
runs on longer texts.
-/

namespace Collector.Text

/-! ## Bytes -/

/-- The bytes that a text is stored as. -/
def stored (text : String) : List UInt8 := text.toByteArray.data.toList

theorem stored_eq_bytes (text : String) : stored text = bytes text := by
  rw [stored, ← bytes_eq_toByteArray, List.data_toByteArray]

/-! ## Characters -/

/-- Whether all characters of a text are in ASCII. -/
def isAscii (text : String) : Bool := (stored text).all fun byte => byte.toNat < 0x80

/-- One character for each byte of a text. -/
def asciiChars (text : String) : List Char := (stored text).map fun byte => Char.ofNat byte.toNat

theorem utf8EncodeChar_ascii {c : Char} (hc : c.toNat < 0x80) :
    String.utf8EncodeChar c = [c.toUInt8] := by
  have hsmall : c.val.toNat ≤ 0x7f := Nat.le_of_lt_succ hc
  unfold String.utf8EncodeChar
  rw [if_pos hsmall]
  rfl

/-- A character of which each byte is in ASCII is in ASCII. -/
theorem ascii_of_utf8EncodeChar {c : Char}
    (h : ∀ byte ∈ String.utf8EncodeChar c, byte.toNat < 0x80) : c.toNat < 0x80 := by
  by_contra hc
  have hvalid := c.valid
  simp only [UInt32.isValidChar, Nat.isValidChar] at hvalid
  have hlarge : ¬ c.val.toNat < 0x80 := hc
  unfold String.utf8EncodeChar at h
  generalize c.val.toNat = n at h hvalid hlarge
  -- the first byte of a longer encoding is large
  simp only at h
  split_ifs at h <;>
    simp only [List.forall_mem_cons, UInt8.toNat_ofNat'] at h <;>
    omega

theorem map_encoded_ascii {text : List Char}
    (h : ∀ byte ∈ text.flatMap String.utf8EncodeChar, byte.toNat < 0x80) :
    (text.flatMap String.utf8EncodeChar).map (fun byte => Char.ofNat byte.toNat) = text := by
  induction text with
  | nil => rfl
  | cons c rest ih =>
    rw [List.flatMap_cons, List.forall_mem_append] at h
    have hc := ascii_of_utf8EncodeChar h.1
    have hbyte : c.toUInt8.toNat = c.toNat := Nat.mod_eq_of_lt (Nat.lt_trans hc (by decide))
    rw [List.flatMap_cons, List.map_append, ih h.2, utf8EncodeChar_ascii hc, List.map_singleton,
      hbyte, Char.ofNat_toNat, List.singleton_append]

/-- The characters of a text in ASCII. -/
theorem toList_eq_asciiChars {text : String} (h : isAscii text = true) :
    text.toList = asciiChars text := by
  unfold isAscii at h
  rw [stored_eq_bytes, List.all_eq_true] at h
  rw [asciiChars, stored_eq_bytes]
  exact (map_encoded_ascii fun byte hbyte => of_decide_eq_true (h byte hbyte)).symm

end Collector.Text
