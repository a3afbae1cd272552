/-!
# Decoding UTF-8

A decoder that reads bytes one after another. Bytes that belong to no character are reported in
groups: the longest beginning of a character, or else a single byte.
-/

namespace Collector.Text.Utf8

/-- Where a decoder stands: between characters, or inside one whose bits so far are known, with
the ranges in which its other bytes lie. -/
inductive State where
  | between
  | inside (bits : Nat) (first : UInt8 × UInt8) (others : List (UInt8 × UInt8))

/-- The bytes of a character behind its first one. -/
def continuation : UInt8 × UInt8 := (0x80, 0xBF)

/-- What the first byte of a character shows: the character itself, or how it goes on. Other bytes
begin no character. -/
def lead (byte : UInt8) : Option Char × State :=
  let n := byte.toNat
  if n < 0x80 then (some (Char.ofNat n), .between)
  else if 0xC2 ≤ n && n ≤ 0xDF then (none, .inside (n - 0xC0) continuation [])
  else if n == 0xE0 then (none, .inside 0 (0xA0, 0xBF) [continuation])
  else if n == 0xED then (none, .inside 0xD (0x80, 0x9F) [continuation])
  else if 0xE1 ≤ n && n ≤ 0xEF then (none, .inside (n - 0xE0) continuation [continuation])
  else if n == 0xF0 then (none, .inside 0 (0x90, 0xBF) [continuation, continuation])
  else if n == 0xF4 then (none, .inside 4 (0x80, 0x8F) [continuation, continuation])
  else if 0xF1 ≤ n && n ≤ 0xF3 then
    (none, .inside (n - 0xF0) continuation [continuation, continuation])
  else (none, .between)

/-- Reads a byte between characters. A byte that begins no character stands for itself. -/
def start (byte : UInt8) : List (Option Char) × State :=
  match lead byte with
  | (some c, state) => ([some c], state)
  | (none, .between) => ([none], .between)
  | (none, state) => ([], state)

/-- Reads a byte. -/
def step : State → UInt8 → List (Option Char) × State
  | .between, byte => start byte
  | .inside bits range others, byte =>
    if range.1 ≤ byte && byte ≤ range.2 then
      let bits := bits * 64 + (byte.toNat - 0x80)
      match others with
      | [] => ([some (Char.ofNat bits)], .between)
      | next :: others => ([], .inside bits next others)
    else
      let (found, state) := start byte
      (none :: found, state)

/-- Reads bytes from a state on: characters, and `none` for each group that is no character. -/
def decodeFrom : State → List UInt8 → List (Option Char)
  | .between, [] => []
  | .inside _ _ _, [] => [none]
  | state, byte :: rest =>
    let (found, state) := step state byte
    found ++ decodeFrom state rest

/-- The text that bytes are, if all of them belong to characters. -/
def decode? (bytes : List UInt8) : Option String :=
  let found := decodeFrom .between bytes
  if found.all Option.isSome then some (String.ofList (found.filterMap id)) else none

/-- A text for any bytes, with U+FFFD for each group that is no character. -/
def decodeLossy (bytes : List UInt8) : String :=
  String.ofList ((decodeFrom .between bytes).map fun found => found.getD '\ufffd')

end Collector.Text.Utf8
