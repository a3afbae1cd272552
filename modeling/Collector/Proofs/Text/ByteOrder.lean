import Mathlib.Data.String.Basic
import Mathlib.Order.Basic

/-!
# Texts in the order of their bytes

Texts are compared character by character. The bytes that UTF-8 writes for them keep that order:
of two different characters the smaller one begins with the smaller bytes, and none of the two byte
lists begins with the other. `bytes_lt_iff` says so for whole texts.
-/

namespace Collector.Text

/-- The bytes of a text. -/
def bytes (text : String) : List UInt8 := text.toList.flatMap String.utf8EncodeChar

/-- These are the bytes that the text is stored as. -/
theorem bytes_eq_toByteArray (text : String) : (bytes text).toByteArray = text.toByteArray :=
  String.utf8Encode_toList

/-! ## Characters -/

/-- What is written for the smaller of two characters comes first, whatever follows. -/
theorem encode_append_lt {c d : Char} (h : c < d) (x y : List UInt8) :
    String.utf8EncodeChar c ++ x < String.utf8EncodeChar d ++ y := by
  have hval : c.val.toNat < d.val.toNat := h
  have hbound : d.val.toNat < 0x110000 := by
    have hvalid := d.valid
    simp only [UInt32.isValidChar, Nat.isValidChar] at hvalid
    omega
  unfold String.utf8EncodeChar
  generalize c.val.toNat = m, d.val.toNat = n at hval hbound
  simp only
  -- a longer encoding begins with a larger byte; of one length, the first digits that differ count
  split_ifs <;>
    simp only [List.cons_append, List.nil_append, List.cons_lt_cons_iff, UInt8.lt_iff_toNat_lt,
      ← UInt8.toNat_inj, UInt8.toNat_ofNat'] <;>
    simp (disch := omega) only [Nat.mod_eq_of_lt] <;>
    omega

/-! ## Texts -/

theorem flatMap_encode_lt {first second : List Char} (h : first < second) :
    first.flatMap String.utf8EncodeChar < second.flatMap String.utf8EncodeChar := by
  rw [← List.lex_lt] at h
  induction h with
  | @nil d rest =>
    rw [List.flatMap_nil, List.flatMap_cons]
    have hne : String.utf8EncodeChar d ≠ [] := String.utf8EncodeChar_ne_nil
    obtain ⟨byte, others, hd⟩ := List.exists_cons_of_ne_nil hne
    rw [hd]
    exact List.nil_lt_cons _ _
  | rel hchar =>
    rw [List.flatMap_cons, List.flatMap_cons]
    exact encode_append_lt hchar _ _
  | @cons c rest others hrest ih =>
    rw [List.flatMap_cons, List.flatMap_cons]
    exact List.append_left_lt ih

theorem bytes_lt_iff (a b : String) : bytes a < bytes b ↔ a < b := by
  constructor
  · intro h
    rcases lt_trichotomy a b with hlt | rfl | hgt
    · exact hlt
    · exact absurd h (List.lt_irrefl _)
    · exact absurd h (List.lt_asymm (flatMap_encode_lt (String.lt_iff.1 hgt)))
  · intro h
    exact flatMap_encode_lt (String.lt_iff.1 h)

end Collector.Text
