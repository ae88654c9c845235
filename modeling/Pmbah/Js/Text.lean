import Mathlib.Data.List.Basic
import Pmbah.Library.PrefixCode

/-!
# JavaScript strings

A JavaScript string is a sequence of UTF-16 code units, lone surrogates
included.  `Array.from` and the code point order read it as code points, and
`TextEncoder` writes those as UTF-8, replacing a lone surrogate by U+FFFD.
-/

namespace Pmbah.Js

open Pmbah.Library

abbrev JsString := List UInt16

instance : LawfulBEq JsString := inferInstance

/-- The units of a string are gone through one by one, not all units that there are. -/
instance (priority := 2000) (text : JsString) (p : UInt16 → Prop) [DecidablePred p] :
    Decidable (∀ unit ∈ text, p unit) := List.decidableBAll p text

/-- The code units of one Unicode scalar value. -/
def charUnits (c : Char) : List UInt16 :=
  if c.toNat < 0x10000 then [UInt16.ofNat c.toNat]
  else [UInt16.ofNat (0xD800 + (c.toNat - 0x10000) / 0x400),
    UInt16.ofNat (0xDC00 + (c.toNat - 0x10000) % 0x400)]

/-- A string literal of the source. -/
def js (literal : String) : JsString := literal.toList.flatMap charUnits

def isHighSurrogate (unit : UInt16) : Bool := 0xD800 ≤ unit.toNat ∧ unit.toNat < 0xDC00

def isLowSurrogate (unit : UInt16) : Bool := 0xDC00 ≤ unit.toNat ∧ unit.toNat < 0xE000

/-- `Array.from(text)`, each element as its code point. -/
def codePoints : JsString → List Nat
  | [] => []
  | [unit] => [unit.toNat]
  | high :: low :: rest =>
      if isHighSurrogate high ∧ isLowSurrogate low then
        (0x10000 + (high.toNat - 0xD800) * 0x400 + (low.toNat - 0xDC00))
          :: codePoints rest
      else high.toNat :: codePoints (low :: rest)

/-- UTF-8 of one code point; a surrogate becomes the replacement character. -/
def utf8CodePoint (point : Nat) : List UInt8 :=
  if point < 0x80 then [UInt8.ofNat point]
  else if point < 0x800 then
    [UInt8.ofNat (0xC0 + point / 0x40), UInt8.ofNat (0x80 + point % 0x40)]
  else if 0xD800 ≤ point ∧ point < 0xE000 then [0xEF, 0xBF, 0xBD]
  else if point < 0x10000 then
    [UInt8.ofNat (0xE0 + point / 0x1000),
      UInt8.ofNat (0x80 + point / 0x40 % 0x40), UInt8.ofNat (0x80 + point % 0x40)]
  else
    [UInt8.ofNat (0xF0 + point / 0x40000),
      UInt8.ofNat (0x80 + point / 0x1000 % 0x40),
      UInt8.ofNat (0x80 + point / 0x40 % 0x40), UInt8.ofNat (0x80 + point % 0x40)]

def utf8ToBytes (text : JsString) : List UInt8 :=
  (codePoints text).flatMap utf8CodePoint

/-- Every code unit is below 128, so text, code points and bytes coincide. -/
def Ascii (text : JsString) : Prop := ∀ unit ∈ text, unit.toNat < 0x80

instance (text : JsString) : Decidable (Ascii text) :=
  List.decidableBAll (fun unit : UInt16 => unit.toNat < 0x80) text

theorem ascii_append {a b : JsString} : Ascii (a ++ b) ↔ Ascii a ∧ Ascii b := by
  simp only [Ascii, List.mem_append]
  constructor
  · exact fun h => ⟨fun u hu => h u (Or.inl hu), fun u hu => h u (Or.inr hu)⟩
  · rintro ⟨ha, hb⟩ u (hu | hu)
    · exact ha u hu
    · exact hb u hu

theorem codePoints_of_ascii {text : JsString} (h : Ascii text) :
    codePoints text = text.map UInt16.toNat := by
  induction text using codePoints.induct with
  | case1 => rfl
  | case2 unit => rfl
  | case3 high low rest hpair ih =>
      have hhigh : high.toNat < 0x80 := h high (by simp)
      simp [isHighSurrogate] at hpair
      omega
  | case4 high low rest hpair ih =>
      have hrest : Ascii (low :: rest) := fun u hu => h u (by simp at hu ⊢; tauto)
      rw [codePoints, if_neg hpair, ih hrest]
      rfl

theorem utf8ToBytes_of_ascii {text : JsString} (h : Ascii text) :
    utf8ToBytes text = text.map fun unit => UInt8.ofNat unit.toNat := by
  rw [utf8ToBytes, codePoints_of_ascii h]
  induction text with
  | nil => rfl
  | cons unit text ih =>
      have hunit : unit.toNat < 0x80 := h unit (by simp)
      have htext : Ascii text := fun u hu => h u (by simp [hu])
      rw [List.map_cons, List.flatMap_cons, List.map_cons, ih htext]
      simp [utf8CodePoint, hunit]

/-- ASCII texts with equal bytes are equal. -/
theorem utf8ToBytes_injective {a b : JsString} (ha : Ascii a) (hb : Ascii b)
    (h : utf8ToBytes a = utf8ToBytes b) : a = b := by
  rw [utf8ToBytes_of_ascii ha, utf8ToBytes_of_ascii hb] at h
  refine map_injOn ?_ h
  intro u hu v hv huv
  have hu' : u.toNat < 0x80 := ha u hu
  have hv' : v.toNat < 0x80 := hb v hv
  have hnat := congrArg UInt8.toNat huv
  simp only [UInt8.toNat_ofNat'] at hnat
  rw [Nat.mod_eq_of_lt (by omega), Nat.mod_eq_of_lt (by omega)] at hnat
  exact UInt16.toNat_inj.mp hnat

theorem utf8ToBytes_append {a b : JsString} (ha : Ascii a) (hb : Ascii b) :
    utf8ToBytes (a ++ b) = utf8ToBytes a ++ utf8ToBytes b := by
  rw [utf8ToBytes_of_ascii (ascii_append.2 ⟨ha, hb⟩), utf8ToBytes_of_ascii ha,
    utf8ToBytes_of_ascii hb, List.map_append]

theorem length_utf8ToBytes {text : JsString} (h : Ascii text) :
    (utf8ToBytes text).length = text.length := by
  rw [utf8ToBytes_of_ascii h, List.length_map]

/-- `items.join(separator)`. -/
def joinWith (separator : JsString) : List JsString → JsString
  | [] => []
  | [item] => item
  | item :: next :: rest => item ++ separator ++ joinWith separator (next :: rest)

theorem joinWith_ne_nil {separator item : JsString} (h : item ≠ []) (items : List JsString) :
    joinWith separator (item :: items) ≠ [] := by
  cases items with
  | nil => exact h
  | cons next items =>
      exact List.append_ne_nil_of_left_ne_nil (List.append_ne_nil_of_left_ne_nil h _) _

def lowerUnit (unit : UInt16) : UInt16 :=
  if 65 ≤ unit.toNat ∧ unit.toNat ≤ 90 then unit + 32 else unit

/-- `toLowerCase` of ASCII text; names of headers, addresses and signatures are. -/
def toLowerCase (text : JsString) : JsString := text.map lowerUnit

/-- Decimal digits of a natural number. -/
def natText (n : Nat) : JsString := (Nat.toDigits 10 n).map fun c => UInt16.ofNat c.toNat

def isDigitUnit (unit : UInt16) : Prop := 48 ≤ unit.toNat ∧ unit.toNat ≤ 57

instance (unit : UInt16) : Decidable (isDigitUnit unit) := by
  unfold isDigitUnit
  infer_instance

theorem toNat_of_isDigit {c : Char} (h : c.isDigit) : 48 ≤ c.toNat ∧ c.toNat ≤ 57 := by
  simp only [Char.isDigit, Bool.and_eq_true, decide_eq_true_eq] at h
  exact ⟨by simpa using UInt32.le_iff_toNat_le.mp h.1, by simpa using UInt32.le_iff_toNat_le.mp h.2⟩

theorem isDigitUnit_of_mem_natText {n : Nat} {unit : UInt16} (h : unit ∈ natText n) :
    isDigitUnit unit := by
  simp only [natText, List.mem_map] at h
  obtain ⟨c, hc, rfl⟩ := h
  have hdigit := toNat_of_isDigit (Nat.isDigit_of_mem_toDigits (by omega) (by omega) hc)
  rw [isDigitUnit, UInt16.toNat_ofNat', Nat.mod_eq_of_lt (by omega)]
  exact hdigit

theorem natText_ascii (n : Nat) : Ascii (natText n) := by
  intro unit hunit
  have := isDigitUnit_of_mem_natText hunit
  unfold isDigitUnit at this
  omega

theorem natText_ne_nil (n : Nat) : natText n ≠ [] := by
  simp [natText, Nat.toDigits_ne_nil]

theorem natText_injective : Function.Injective natText := by
  intro m n h
  have hchars : Nat.toDigits 10 m = Nat.toDigits 10 n := by
    refine map_injOn ?_ h
    intro c hc d hd hcd
    have hc' := toNat_of_isDigit (Nat.isDigit_of_mem_toDigits (by omega) (by omega) hc)
    have hd' := toNat_of_isDigit (Nat.isDigit_of_mem_toDigits (by omega) (by omega) hd)
    have hnat := congrArg UInt16.toNat hcd
    simp only [UInt16.toNat_ofNat'] at hnat
    rw [Nat.mod_eq_of_lt (by omega), Nat.mod_eq_of_lt (by omega)] at hnat
    exact Char.toNat_inj.mp hnat
  rw [← @Nat.ofDigitChars_toDigits 10 m (by omega) (by omega), hchars,
    Nat.ofDigitChars_toDigits (by omega) (by omega)]

end Pmbah.Js
