import Pmbah.Platform

/-!
# Public data of the format

Versions, operations and sources are the closed sets of strings that the format
declares.  `BufferMutation` is an event with every field read; `toJson` is the
value a producer builds and a server receives.
-/

namespace Pmbah

open Js

/-- One lowercase hexadecimal digit. -/
def hexUnit (n : Nat) : UInt16 :=
  UInt16.ofNat (if n < 10 then 48 + n else 87 + n)

def bytesToHex (bytes : List UInt8) : JsString :=
  bytes.flatMap fun byte => [hexUnit (byte.toNat / 16), hexUnit (byte.toNat % 16)]

def hashPrefix : JsString := js "b3:"

/-- The displayed form of a hash. -/
def B3Hash.text (hash : B3Hash) : JsString := hashPrefix ++ bytesToHex hash.bytes

theorem hexUnit_injective : ∀ m n : Fin 16, hexUnit m = hexUnit n → m = n := by
  decide

theorem bytesToHex_injective : Function.Injective bytesToHex := by
  intro a
  induction a with
  | nil =>
      intro b h
      cases b with
      | nil => rfl
      | cons byte b => simp [bytesToHex] at h
  | cons byte a ih =>
      intro b h
      cases b with
      | nil => simp [bytesToHex] at h
      | cons other b =>
          simp only [bytesToHex, List.flatMap_cons, List.cons_append, List.nil_append,
            List.cons.injEq] at h
          obtain ⟨hhigh, hlow, hrest⟩ := h
          have hhigh' := hexUnit_injective ⟨byte.toNat / 16, by have := byte.toNat_lt; omega⟩
            ⟨other.toNat / 16, by have := other.toNat_lt; omega⟩ hhigh
          have hlow' := hexUnit_injective ⟨byte.toNat % 16, by omega⟩
            ⟨other.toNat % 16, by omega⟩ hlow
          rw [Fin.mk.injEq] at hhigh' hlow'
          have hbyte : byte = other := by
            apply UInt8.toNat.inj
            omega
          rw [hbyte, ih hrest]

/-- A hash is determined by what is displayed of it. -/
theorem B3Hash.text_injective : Function.Injective B3Hash.text := by
  intro a b h
  have hbytes := bytesToHex_injective (List.append_cancel_left h)
  cases a
  cases b
  simpa using hbytes

namespace Format

def maxTimeFieldValue : Nat := maxSafeInteger

def maxIntegerFieldValue : Nat := 2147483647

inductive FormatVersion where
  | v0_1
  | v0_2
  | v0_3
  deriving DecidableEq, Repr

inductive Operation where
  | insert
  | delete
  | replace
  deriving DecidableEq, Repr

inductive Source where
  | typing
  | paste
  | cut
  | drop
  | ime
  | autocomplete
  | programmatic
  | unknown
  deriving DecidableEq, Repr

inductive Capability where
  | timing
  | sourceAttribution
  | selection
  | pauseFidelity
  | keystrokeLevel
  deriving DecidableEq, Repr

def formatVersions : List FormatVersion := [.v0_1, .v0_2, .v0_3]

def FormatVersion.text : FormatVersion → JsString
  | .v0_1 => js "0.1"
  | .v0_2 => js "0.2"
  | .v0_3 => js "0.3"

def operations : List Operation := [.insert, .delete, .replace]

def Operation.text : Operation → JsString
  | .insert => js "insert"
  | .delete => js "delete"
  | .replace => js "replace"

def sources : List Source :=
  [.typing, .paste, .cut, .drop, .ime, .autocomplete, .programmatic, .unknown]

def Source.text : Source → JsString
  | .typing => js "typing"
  | .paste => js "paste"
  | .cut => js "cut"
  | .drop => js "drop"
  | .ime => js "ime"
  | .autocomplete => js "autocomplete"
  | .programmatic => js "programmatic"
  | .unknown => js "unknown"

def capabilities : List Capability :=
  [.timing, .sourceAttribution, .selection, .pauseFidelity, .keystrokeLevel]

def Capability.text : Capability → JsString
  | .timing => js "timing"
  | .sourceAttribution => js "source_attribution"
  | .selection => js "selection"
  | .pauseFidelity => js "pause_fidelity"
  | .keystrokeLevel => js "keystroke_level"

/-- The member of a closed set that a string names. -/
def ofText? {α : Type} (members : List α) (text : α → JsString) (value : JsString) :
    Option α :=
  members.find? fun member => text member == value

def FormatVersion.ofText? (value : JsString) : Option FormatVersion :=
  Format.ofText? formatVersions FormatVersion.text value

def Operation.ofText? (value : JsString) : Option Operation :=
  Format.ofText? operations Operation.text value

def Source.ofText? (value : JsString) : Option Source :=
  Format.ofText? sources Source.text value

theorem ofText?_eq_some {α : Type} {members : List α} {text : α → JsString}
    {value : JsString} {member : α} (h : ofText? members text value = some member) :
    text member = value := by
  simpa using List.find?_some h

@[simp] theorem FormatVersion.ofText?_text (v : FormatVersion) :
    FormatVersion.ofText? v.text = some v := by
  cases v <;> decide

@[simp] theorem Operation.ofText?_text (op : Operation) :
    Operation.ofText? op.text = some op := by
  cases op <;> decide

@[simp] theorem Source.ofText?_text (source : Source) :
    Source.ofText? source.text = some source := by
  cases source <;> decide

def isHexUnit (unit : UInt16) : Bool :=
  (48 ≤ unit.toNat && unit.toNat ≤ 57) || (97 ≤ unit.toNat && unit.toNat ≤ 102)

/-- `^b3:[0-9a-f]{64}$`. -/
def isB3HashText (value : JsString) : Bool :=
  value.take 3 == hashPrefix && value.length == 67 && (value.drop 3).all isHexUnit

def isB3Hash (value : Option Json) : Bool := (Json.text? value).any isB3HashText

/-- `^[0-9a-f]{8}-[0-9a-f]{4}-4[0-9a-f]{3}-[89ab][0-9a-f]{3}-[0-9a-f]{12}$`. -/
def isUuid (value : JsString) : Bool :=
  value.length == 36 &&
    (List.range 36).all fun i =>
      match value[i]? with
      | none => false
      | some unit =>
          if i = 8 ∨ i = 13 ∨ i = 18 ∨ i = 23 then unit == 45
          else if i = 14 then unit == 52
          else if i = 19 then unit == 56 || unit == 57 || unit == 97 || unit == 98
          else isHexUnit unit

/-- A content-blind edit. -/
structure BufferMutation where
  seq : Nat
  t : Nat
  op : Operation
  pos : Option Nat
  delLen : Option Nat
  insLen : Option Nat
  source : Source
  deriving DecidableEq, Repr

/-- A size that the operation excludes is never recorded as known. -/
def sizesAgree (op : Operation) (delLen insLen : Option Nat) : Prop :=
  match op with
  | .insert => (∀ d ∈ delLen, d = 0) ∧ ∀ i ∈ insLen, 0 < i
  | .delete => (∀ d ∈ delLen, 0 < d) ∧ ∀ i ∈ insLen, i = 0
  | .replace => (∀ d ∈ delLen, 0 < d) ∧ ∀ i ∈ insLen, 0 < i

instance (op : Operation) (delLen insLen : Option Nat) :
    Decidable (sizesAgree op delLen insLen) := by
  unfold sizesAgree
  cases op <;> infer_instance

/-- What `validateEvent` accepts, for an event whose fields have been read. -/
structure BufferMutation.Valid (event : BufferMutation) : Prop where
  seq_le : event.seq ≤ maxIntegerFieldValue
  t_le : event.t ≤ maxTimeFieldValue
  pos_le : ∀ p ∈ event.pos, p ≤ maxIntegerFieldValue
  delLen_le : ∀ d ∈ event.delLen, d ≤ maxIntegerFieldValue
  insLen_le : ∀ i ∈ event.insLen, i ≤ maxIntegerFieldValue
  sizes : sizesAgree event.op event.delLen event.insLen

/-- A gap-free log whose times do not go back. -/
structure ValidLog (events : List BufferMutation) : Prop where
  valid : ∀ event ∈ events, event.Valid
  seq_eq : ∀ (i : Nat) (event : BufferMutation), events[i]? = some event → event.seq = i
  sorted : events.Pairwise fun earlier later => earlier.t ≤ later.t

def natOrNull : Option Nat → Json
  | none => .null
  | some n => Json.ofNat n

def BufferMutation.toJson (event : BufferMutation) : Json :=
  .obj [(js "seq", Json.ofNat event.seq), (js "t", Json.ofNat event.t),
    (js "op", .str event.op.text), (js "pos", natOrNull event.pos),
    (js "del_len", natOrNull event.delLen), (js "ins_len", natOrNull event.insLen),
    (js "source", .str event.source.text)]

/-- A size or position of an event that has been validated. -/
def nullableNatAt (value : Json) (key : JsString) : Option Nat :=
  ((Json.number? (value.field key)).bind JsNumber.toInt?).map Int.toNat

/-- The fields of an event that has been validated. -/
def readEvent (value : Json) : BufferMutation where
  seq := value.natAt (js "seq")
  t := value.natAt (js "t")
  op := (Operation.ofText? (value.textAt (js "op"))).getD .insert
  pos := nullableNatAt value (js "pos")
  delLen := nullableNatAt value (js "del_len")
  insLen := nullableNatAt value (js "ins_len")
  source := (Source.ofText? (value.textAt (js "source"))).getD .unknown

end Format

end Pmbah
