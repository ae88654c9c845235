import Pmbah.Js.Value
import Pmbah.Library.Blake3

/-!
# What the code takes from its platform

BLAKE3 comes from a third-party package, and a few operations of the language
depend on the host or on floating point.  The model takes all of them as
parameters and proves its results for every choice.
-/

namespace Pmbah

open Js

/-- A BLAKE3-256 digest; the source writes it `b3:` and 64 hexadecimal digits. -/
structure B3Hash where
  bytes : List UInt8
  length_eq : bytes.length = 32
  deriving DecidableEq

theorem B3Hash.zeros_length : (List.replicate 32 (0 : UInt8)).length = 32 := List.length_replicate

structure Platform where
  /-- `blake3` of `@noble/hashes`. -/
  blake3 : List UInt8 → B3Hash
  /-- `Date.parse` of the string is not NaN. -/
  parsesDate : JsString → Bool
  /-- `new Date(ms).toISOString()`; `none` when it throws a `RangeError`. -/
  isoDate : Int → Option JsString
  /-- The text of a number that is no safe integer. -/
  numberText : JsNumber → JsString
  /-- `<` of two values of which at least one is not a number, after conversion. -/
  coercedLess : Json → Json → Bool

namespace Platform

variable (P : Platform)

/-- Number to string. -/
def numberToString (value : JsNumber) : JsString :=
  match value.toInt? with
  | some z =>
      if z.natAbs ≤ maxSafeInteger then
        if z < 0 then js "-" ++ natText z.natAbs else natText z.natAbs
      else P.numberText value
  | none => P.numberText value

mutual

/-- The text of a value whose conversion does not throw. -/
def convertedText : Json → JsString
  | .null => js "null"
  | .bool value => if value then js "true" else js "false"
  | .num value => P.numberToString value
  | .str value => value
  | .arr items => joinedText items
  | .obj _ => js "[object Object]"

/-- `items.join(",")`, where `null` counts as the empty string. -/
def joinedText : List Json → JsString
  | [] => []
  | [.null] => []
  | [item] => convertedText item
  | .null :: next :: items => js "," ++ joinedText (next :: items)
  | item :: next :: items => convertedText item ++ js "," ++ joinedText (next :: items)

end

/-- `String(value)` and `${value}`. -/
def toText : Option Json → Except JsError JsString
  | none => .ok (js "undefined")
  | some value =>
      if value.conversionThrows then .error Json.conversionError
      else .ok (P.convertedText value)

/-- `left < right`. -/
def less (left right : Option Json) : Except JsError Bool :=
  if left.any Json.conversionThrows || right.any Json.conversionThrows then
    .error Json.conversionError
  else match left, right with
    | some (.num a), some (.num b) => .ok (a.lt b)
    | some a, some b => .ok (P.coercedLess a b)
    | _, _ => .ok false

end Platform

/-! ## An instance -/

/-- A decimal number with leading zeros up to a width. -/
def padded (width n : Nat) : JsString :=
  List.replicate (width - (natText n).length) 48 ++ natText n

/-- Year, month and day of a day counted from 1970-01-01. -/
def civilFromDays (days : Int) : Int × Int × Int :=
  let shifted := days + 719468
  let era := shifted / 146097
  let dayOfEra := shifted % 146097
  let yearOfEra :=
    (dayOfEra - dayOfEra / 1460 + dayOfEra / 36524 - dayOfEra / 146096) / 365
  let dayOfYear := dayOfEra - (365 * yearOfEra + yearOfEra / 4 - yearOfEra / 100)
  let monthIndex := (5 * dayOfYear + 2) / 153
  let day := dayOfYear - (153 * monthIndex + 2) / 5 + 1
  let month := if monthIndex < 10 then monthIndex + 3 else monthIndex - 9
  (yearOfEra + era * 400 + (if month ≤ 2 then 1 else 0), month, day)

/-- `new Date(ms).toISOString()`. -/
def isoText (ms : Int) : Option JsString :=
  if ms.natAbs ≤ 8640000000000000 then
    let (year, month, day) := civilFromDays (ms / 86400000)
    let clock := (ms % 86400000).toNat
    let yearText :=
      if 0 ≤ year ∧ year ≤ 9999 then padded 4 year.toNat
      else (if year < 0 then js "-" else js "+") ++ padded 6 year.natAbs
    some (yearText ++ js "-" ++ padded 2 month.toNat ++ js "-" ++ padded 2 day.toNat ++
      js "T" ++ padded 2 (clock / 3600000) ++ js ":" ++ padded 2 (clock / 60000 % 60) ++
      js ":" ++ padded 2 (clock / 1000 % 60) ++ js "." ++ padded 3 (clock % 1000) ++ js "Z")
  else none

/-- The shape that `toISOString` writes for the years 0 to 9999. -/
def isIsoText (text : JsString) : Bool :=
  text.length == 24 && text.zipIdx.all fun entry =>
    let expected : List (Nat × UInt16) :=
      [(4, 45), (7, 45), (10, 84), (13, 58), (16, 58), (19, 46), (23, 90)]
    match expected.lookup entry.2 with
    | some unit => entry.1 == unit
    | none => decide (isDigitUnit entry.1)

/-- BLAKE3 and the dates of `toISOString`; what needs floating point is left trivial. -/
def Platform.standard : Platform where
  blake3 bytes := ⟨Library.Blake3.digest bytes, Library.Blake3.length_digest bytes⟩
  parsesDate := isIsoText
  isoDate := isoText
  numberText _ := js "NaN"
  coercedLess _ _ := false

end Pmbah
