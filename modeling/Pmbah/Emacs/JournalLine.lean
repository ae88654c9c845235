import Pmbah.Format.HashChain

/-!
# Lines of the journal

A line of the journal is the JSON of one event and a newline.  The editor writes
the events that it captured, and the worker those that it parsed again.
-/

namespace Pmbah.Emacs

open Js Format Library

/-- A number that is not finite is written as `null`. -/
def stringifyNumber (P : Platform) : JsNumber → JsString
  | .infinite _ => js "null"
  | .finite q => P.numberToString (.finite q)

mutual

/-- `JSON.stringify` of a parsed value. -/
def stringify (P : Platform) : Json → JsString
  | .null => js "null"
  | .bool value => if value then js "true" else js "false"
  | .num value => stringifyNumber P value
  | .str value => stringifyString value
  | .arr items => js "[" ++ joinWith (js ",") (stringifyItems P items) ++ js "]"
  | .obj fields => js "\x7b" ++ joinWith (js ",") (stringifyFields P fields) ++ js "\x7d"

def stringifyItems (P : Platform) : List Json → List JsString
  | [] => []
  | item :: items => stringify P item :: stringifyItems P items

def stringifyFields (P : Platform) : List (JsString × Json) → List JsString
  | [] => []
  | (key, value) :: fields =>
      (stringifyString key ++ js ":" ++ stringify P value) :: stringifyFields P fields

end

/-- What the worker writes for an event. -/
def journalLine (P : Platform) (event : Json) : List UInt8 :=
  utf8ToBytes (stringify P event ++ js "\n")

/-- `pmbah--json-encode` of an event. -/
def jsonEncode (event : BufferMutation) : JsString :=
  js "\x7b\"seq\":" ++ (natText event.seq ++
    (js ",\"t\":" ++ (natText event.t ++
      (js ",\"op\":\"" ++ (event.op.text ++
        (js "\",\"pos\":" ++ (nullableText event.pos ++
          (js ",\"del_len\":" ++ (nullableText event.delLen ++
            (js ",\"ins_len\":" ++ (nullableText event.insLen ++
              (js ",\"source\":\"" ++ (event.source.text ++ js "\"\x7d")))))))))))))

/-- What the editor counts for an event, and writes when it saves without the worker. -/
def eventLine (event : BufferMutation) : List UInt8 :=
  utf8ToBytes (jsonEncode event ++ js "\n")

/-! ## What the worker writes -/

/-- The numbers of the event are written in digits. -/
structure Bounded (event : BufferMutation) : Prop where
  seq_le : event.seq ≤ maxSafeInteger
  t_le : event.t ≤ maxSafeInteger
  pos_le : ∀ n ∈ event.pos, n ≤ maxSafeInteger
  delLen_le : ∀ n ∈ event.delLen, n ≤ maxSafeInteger
  insLen_le : ∀ n ∈ event.insLen, n ≤ maxSafeInteger

theorem stringify_ofNat (P : Platform) {n : Nat} (h : n ≤ maxSafeInteger) :
    stringify P (Json.ofNat n) = natText n := by
  have hnum : stringify P (Json.ofNat n) = P.numberToString (.ofNat n) := by
    rw [Json.ofNat, stringify]
    rfl
  rw [hnum, Platform.numberToString, JsNumber.toInt?_ofNat]
  simp only [Int.natAbs_natCast, if_pos h]
  rw [if_neg (by omega)]

theorem stringify_natOrNull (P : Platform) {size : Option Nat} (h : ∀ n ∈ size, n ≤ maxSafeInteger) :
    stringify P (natOrNull size) = nullableText size := by
  cases size with
  | none => simp [natOrNull, nullableText, stringify]
  | some n => exact stringify_ofNat P (h n rfl)

/-- The worker writes an event as the editor does. -/
theorem stringify_toJson (P : Platform) {event : BufferMutation} (h : Bounded event) :
    stringify P event.toJson = jsonEncode event := by
  have hkeys : stringifyString (js "seq") = js "\"seq\"" ∧
      stringifyString (js "t") = js "\"t\"" ∧ stringifyString (js "op") = js "\"op\"" ∧
      stringifyString (js "pos") = js "\"pos\"" ∧
      stringifyString (js "del_len") = js "\"del_len\"" ∧
      stringifyString (js "ins_len") = js "\"ins_len\"" ∧
      stringifyString (js "source") = js "\"source\"" := by decide
  obtain ⟨kseq, kt, kop, kpos, kdel, kins, ksource⟩ := hkeys
  have htext : ∀ text : JsString, stringify P (.str text) = stringifyString text := by
    intro text
    rw [stringify]
  rw [BufferMutation.toJson, stringify]
  simp only [stringifyFields, htext, stringify_operation, stringify_source,
    stringify_ofNat P h.seq_le, stringify_ofNat P h.t_le, stringify_natOrNull P h.pos_le,
    stringify_natOrNull P h.delLen_le, stringify_natOrNull P h.insLen_le, kseq, kt, kop, kpos,
    kdel, kins, ksource, joinWith, jsonEncode, List.append_assoc]
  rfl

theorem journalLine_toJson (P : Platform) {event : BufferMutation} (h : Bounded event) :
    journalLine P event.toJson = eventLine event := by
  rw [journalLine, stringify_toJson P h, eventLine]

/-! ## One newline, at the end -/

theorem jsonEncode_ascii (event : BufferMutation) : Ascii (jsonEncode event) := by
  have hop : Ascii event.op.text := by cases event.op <;> decide
  have hsource : Ascii event.source.text := by cases event.source <;> decide
  simp only [jsonEncode, ascii_append]
  refine ⟨by decide, natText_ascii _, by decide, natText_ascii _, by decide, hop, by decide,
    nullableText_ascii _, by decide, nullableText_ascii _, by decide, nullableText_ascii _,
    by decide, hsource, by decide⟩

theorem newline_not_mem_natText (n : Nat) : (10 : UInt16) ∉ natText n := by
  intro hmem
  exact absurd (isDigitUnit_of_mem_natText hmem) (by decide)

theorem newline_not_mem_nullableText (size : Option Nat) : (10 : UInt16) ∉ nullableText size := by
  cases size with
  | none => decide
  | some n => exact newline_not_mem_natText n

theorem newline_not_mem_jsonEncode (event : BufferMutation) : (10 : UInt16) ∉ jsonEncode event := by
  have hop : (10 : UInt16) ∉ event.op.text := by cases event.op <;> decide
  have hsource : (10 : UInt16) ∉ event.source.text := by cases event.source <;> decide
  simp only [jsonEncode, List.mem_append, not_or]
  refine ⟨by decide, newline_not_mem_natText _, by decide, newline_not_mem_natText _, by decide,
    hop, by decide, newline_not_mem_nullableText _, by decide, newline_not_mem_nullableText _,
    by decide, newline_not_mem_nullableText _, by decide, hsource, by decide⟩

theorem eventLine_eq (event : BufferMutation) :
    eventLine event = utf8ToBytes (jsonEncode event) ++ [10] := by
  rw [eventLine, utf8ToBytes_append (jsonEncode_ascii event) (by decide)]
  rfl

theorem newline_not_mem_text (event : BufferMutation) :
    (10 : UInt8) ∉ utf8ToBytes (jsonEncode event) := by
  rw [utf8ToBytes_of_ascii (jsonEncode_ascii event), List.mem_map]
  rintro ⟨unit, hunit, hten⟩
  have hascii : unit.toNat < 0x80 := jsonEncode_ascii event unit hunit
  have hnat := congrArg UInt8.toNat hten
  rw [UInt8.toNat_ofNat', Nat.mod_eq_of_lt (by omega)] at hnat
  have hsame : unit = 10 := UInt16.toNat_inj.mp hnat
  rw [hsame] at hunit
  exact newline_not_mem_jsonEncode event hunit

theorem count_newline_eventLine (event : BufferMutation) : (eventLine event).count 10 = 1 := by
  rw [eventLine_eq, List.count_append, List.count_eq_zero_of_not_mem (newline_not_mem_text event)]
  rfl

end Pmbah.Emacs
