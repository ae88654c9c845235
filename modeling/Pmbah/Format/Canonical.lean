import Mathlib.Data.List.Sort
import Pmbah.Format.Validate

/-!
# Canonical JSON

Object keys are ordered by code point, nothing insignificant is written, and a
number must be an integer.  The canonical text of an event depends on its seven
fields only; `eventText` writes it out.
-/

namespace Pmbah.Format

open Js

/-- The `\u` escape of a code unit. -/
def unicodeEscape (unit : UInt16) : JsString :=
  js "\\u" ++ [hexUnit (unit.toNat / 0x1000), hexUnit (unit.toNat / 0x100 % 16),
    hexUnit (unit.toNat / 16 % 16), hexUnit (unit.toNat % 16)]

/-- One code unit inside a JSON string literal, when it is no surrogate. -/
def quoteUnit (unit : UInt16) : JsString :=
  if unit = 34 then js "\\\""
  else if unit = 92 then js "\\\\"
  else if unit = 8 then js "\\b"
  else if unit = 12 then js "\\f"
  else if unit = 10 then js "\\n"
  else if unit = 13 then js "\\r"
  else if unit = 9 then js "\\t"
  else if unit.toNat < 0x20 then unicodeEscape unit
  else [unit]

def isSurrogate (unit : UInt16) : Bool := isHighSurrogate unit || isLowSurrogate unit

/-- The inside of a JSON string literal; lone surrogates are escaped. -/
def quoteBody : JsString → JsString
  | [] => []
  | [unit] => if isSurrogate unit then unicodeEscape unit else quoteUnit unit
  | unit :: next :: rest =>
      if isHighSurrogate unit ∧ isLowSurrogate next then unit :: next :: quoteBody rest
      else if isSurrogate unit then unicodeEscape unit ++ quoteBody (next :: rest)
      else quoteUnit unit ++ quoteBody (next :: rest)

/-- `JSON.stringify` of a string. -/
def stringifyString (text : JsString) : JsString := js "\"" ++ quoteBody text ++ js "\""

/-- The first difference of two code point sequences, else that of their lengths. -/
def comparePoints : List Nat → List Nat → Int
  | [], right => -(right.length : Int)
  | left, [] => left.length
  | a :: left, b :: right => if a ≠ b then (a : Int) - b else comparePoints left right

def compareStringsByCodePoint (left right : JsString) : Int :=
  comparePoints (codePoints left) (codePoints right)

/-- The order in which fields are written. -/
def keyLe {α : Type} (left right : JsString × α) : Prop :=
  compareStringsByCodePoint left.1 right.1 ≤ 0

instance {α : Type} (left right : JsString × α) : Decidable (keyLe left right) := by
  unfold keyLe
  infer_instance

/-- Each field's text, or what the first field in order that has none throws. -/
def writeFields : List (JsString × Except JsError JsString) → Except JsError (List JsString)
  | [] => .ok []
  | (_, .error thrown) :: _ => .error thrown
  | (key, .ok text) :: fields =>
      (writeFields fields).map fun rest =>
        (stringifyString key ++ js ":" ++ text) :: rest

def canonicalizeNumber (P : Platform) (value : JsNumber) : Except JsError JsString :=
  match value with
  | .infinite _ => .error (.typeError (js "canonical JSON cannot encode non-finite numbers"))
  | .finite q =>
      if q.den = 1 then .ok (P.numberToString value)
      else .error (.typeError
        (js "format 0.1 canonical JSON only permits integer numbers"))

mutual

def canonicalizeJson (P : Platform) : Json → Except JsError JsString
  | .null => .ok (js "null")
  | .bool value => .ok (if value then js "true" else js "false")
  | .num value => canonicalizeNumber P value
  | .str value => .ok (stringifyString value)
  | .arr items =>
      (canonicalizeItems P items).map fun texts =>
        js "[" ++ joinWith (js ",") texts ++ js "]"
  | .obj fields =>
      (writeFields ((canonicalizeFields P fields).insertionSort keyLe)).map fun texts =>
        js "\x7b" ++ joinWith (js ",") texts ++ js "\x7d"

def canonicalizeItems (P : Platform) : List Json → Except JsError (List JsString)
  | [] => .ok []
  | item :: items =>
      match canonicalizeJson P item with
      | .error thrown => .error thrown
      | .ok text => (canonicalizeItems P items).map fun texts => text :: texts

def canonicalizeFields (P : Platform) :
    List (JsString × Json) → List (JsString × Except JsError JsString)
  | [] => []
  | (key, value) :: fields => (key, canonicalizeJson P value) :: canonicalizeFields P fields

end

def canonicalizeEvent (P : Platform) (event : Json) : Except JsError JsString :=
  match assertValidEvent P event with
  | .error thrown => .error thrown
  | .ok () => canonicalizeJson P (.ofFields
      [(js "seq", event.field (js "seq")), (js "t", event.field (js "t")),
        (js "op", event.field (js "op")), (js "pos", event.field (js "pos")),
        (js "del_len", event.field (js "del_len")),
        (js "ins_len", event.field (js "ins_len")),
        (js "source", event.field (js "source"))])

def canonicalizeEventBytes (P : Platform) (event : Json) : Except JsError (List UInt8) :=
  (canonicalizeEvent P event).map utf8ToBytes

def canonicalizeTextBinding (P : Platform) (binding : Json) : Except JsError JsString :=
  match assertValidTextBinding binding with
  | .error thrown => .error thrown
  | .ok () => canonicalizeJson P (.ofFields
      [(js "scheme", binding.field (js "scheme")),
        (js "canonical_length", binding.field (js "canonical_length")),
        (js "commitment", binding.field (js "commitment"))])

end Pmbah.Format
