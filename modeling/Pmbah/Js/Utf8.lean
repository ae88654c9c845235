import Pmbah.Js.Text

/-!
# Reading UTF-8

`Buffer.toString("utf8")` reads bytes one at a time.  The state holds what a
started sequence still needs; bytes that no sequence can have become U+FFFD.
-/

namespace Pmbah.Js

/-- The code units of a code point. -/
def pointUnits (point : Nat) : JsString :=
  if point < 0x10000 then [UInt16.ofNat point]
  else [UInt16.ofNat (0xD800 + (point - 0x10000) / 0x400),
    UInt16.ofNat (0xDC00 + (point - 0x10000) % 0x400)]

structure Utf8State where
  /-- Continuation bytes that are still to come. -/
  needed : Nat
  /-- The bounds of the next continuation byte. -/
  lower : Nat
  upper : Nat
  point : Nat

def Utf8State.start : Utf8State := ⟨0, 0x80, 0xBF, 0⟩

/-- A byte outside of a sequence: what it writes, and the state after it. -/
def leadByte (byte : Nat) : JsString × Utf8State :=
  if byte < 0x80 then ([UInt16.ofNat byte], .start)
  else if 0xC2 ≤ byte ∧ byte < 0xE0 then ([], ⟨1, 0x80, 0xBF, byte - 0xC0⟩)
  else if 0xE0 ≤ byte ∧ byte < 0xF0 then
    ([], ⟨2, if byte = 0xE0 then 0xA0 else 0x80, if byte = 0xED then 0x9F else 0xBF,
      byte - 0xE0⟩)
  else if 0xF0 ≤ byte ∧ byte < 0xF5 then
    ([], ⟨3, if byte = 0xF0 then 0x90 else 0x80, if byte = 0xF4 then 0x8F else 0xBF,
      byte - 0xF0⟩)
  else ([0xFFFD], .start)

/-- One byte: a byte that does not continue the sequence is read again as a first one. -/
def decodeByte (state : Utf8State) (byte : Nat) : JsString × Utf8State :=
  if state.needed = 0 then leadByte byte
  else if state.lower ≤ byte ∧ byte ≤ state.upper then
    let point := state.point * 0x40 + (byte - 0x80)
    if state.needed = 1 then (pointUnits point, .start)
    else ([], ⟨state.needed - 1, 0x80, 0xBF, point⟩)
  else (0xFFFD :: (leadByte byte).1, (leadByte byte).2)

def decodeFrom (state : Utf8State) : List UInt8 → JsString
  | [] => if state.needed = 0 then [] else [0xFFFD]
  | byte :: bytes =>
      (decodeByte state byte.toNat).1 ++ decodeFrom (decodeByte state byte.toNat).2 bytes

def decodeUtf8 (bytes : List UInt8) : JsString := decodeFrom .start bytes

/-- Text below 128 is read back. -/
theorem decodeUtf8_utf8ToBytes {text : JsString} (h : Ascii text) :
    decodeUtf8 (utf8ToBytes text) = text := by
  rw [utf8ToBytes_of_ascii h, decodeUtf8]
  induction text with
  | nil => rfl
  | cons unit text ih =>
      have hunit : unit.toNat < 0x80 := h unit List.mem_cons_self
      have hbyte : (UInt8.ofNat unit.toNat).toNat = unit.toNat := by
        rw [UInt8.toNat_ofNat', Nat.mod_eq_of_lt (by omega)]
      have hlead : decodeByte .start unit.toNat = ([unit], .start) := by
        show leadByte unit.toNat = _
        rw [leadByte, if_pos hunit, UInt16.ofNat_toNat]
      rw [List.map_cons, decodeFrom, hbyte, hlead,
        ih fun other hother => h other (List.mem_cons_of_mem unit hother)]
      rfl

end Pmbah.Js
