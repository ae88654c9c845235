import Pmbah.Format.Types

/-!
# Validation

Every validator returns its list of error messages.  Only the message about a
gap in `seq` converts an unchecked value to text, so only `validateEvent` and
what calls it can throw.
-/

namespace Pmbah.Format

open Js

def textBindingScheme : JsString := js "canon-letters/0.1"

def maxAttestationCount : Nat := 16
def maxAttestationFieldCount : Nat := 16
def maxAttestationStringLength : Nat := 512
def maxProducerStringLength : Nat := 128
def maxAttestationKeyLength : Nat := 64

def eventKeys : List JsString :=
  [js "seq", js "t", js "op", js "pos", js "del_len", js "ins_len", js "source"]

/-- `name` followed by a fixed message, when the check fails. -/
def require (check : Bool) (message : JsString) : List JsString :=
  if check then [] else [message]

def isSafeElapsed (value : Option Json) : Bool :=
  match (Json.number? value).bind JsNumber.toInt? with
  | some z => 0 ≤ z && z ≤ maxTimeFieldValue
  | none => false

def validateElapsedMilliseconds (value : Option Json) (name : JsString) : List JsString :=
  require (isSafeElapsed value)
    (name ++ js " must be a non-negative safe integer (at most " ++
      natText maxTimeFieldValue ++ js ")")

def isBoundedNonNegativeInteger (value : Option Json) : Bool :=
  match (Json.number? value).bind JsNumber.toInt? with
  | some z => 0 ≤ z && z ≤ maxIntegerFieldValue
  | none => false

def validateNonNegativeInteger (value : Option Json) (name : JsString) : List JsString :=
  require (isBoundedNonNegativeInteger value)
    (name ++ js " must be a non-negative integer (at most " ++
      natText maxIntegerFieldValue ++ js ")")

def isNull : Option Json → Bool
  | some .null => true
  | _ => false

def validateNullableNonNegativeInteger (value : Option Json) (name : JsString) :
    List JsString :=
  require (isNull value || isBoundedNonNegativeInteger value)
    (name ++ js " must be a non-negative integer or null (at most " ++
      natText maxIntegerFieldValue ++ js ")")

def validateBoundedString (value : Option Json) (name : JsString) (maxLength : Nat) :
    List JsString :=
  match Json.text? value with
  | none => [name ++ js " must be a string"]
  | some text =>
      require (text.length ≤ maxLength)
        (name ++ js " must be at most " ++ natText maxLength ++ js " characters")

/-- `typeof value === "number" && value !== 0`. -/
def numberNotZero (value : Option Json) : Bool :=
  (Json.number? value).any fun n => n ≠ .ofInt 0

/-- `typeof value === "number" && value <= 0`. -/
def numberNotPositive (value : Option Json) : Bool :=
  (Json.number? value).any fun n => !(JsNumber.ofInt 0).lt n

/-- Unknown position or size does not excuse a contradictory known size. -/
def validateSizes (op delLen insLen : Option Json) : List JsString :=
  let named (name : Operation) : Bool := Json.text? op == some name.text
  require (!(named .insert && (numberNotZero delLen || numberNotPositive insLen)))
      (js "insert op requires del_len 0 and ins_len > 0 when known") ++
    require (!(named .delete && (numberNotPositive delLen || numberNotZero insLen)))
      (js "delete op requires del_len > 0 and ins_len 0 when known") ++
    require (!(named .replace && (numberNotPositive delLen || numberNotPositive insLen)))
      (js "replace op requires del_len > 0 and ins_len > 0 when known")

/-- The check of `seq` against its place, whose message shows the received value. -/
def validateSeq (P : Platform) (seq : Option Json) :
    Option Nat → Except JsError (List JsString)
  | none => .ok []
  | some expected =>
      if Json.number? seq = some (.ofNat expected) then .ok []
      else (P.toText seq).map fun shown =>
        [js "seq must be gap-free: expected " ++ natText expected ++ js ", got " ++ shown]

def validateEvent (P : Platform) (event : Json) (expectedSeq : Option Nat) :
    Except JsError (List JsString) :=
  if !event.isPlainObject then .ok [js "event must be an object"]
  else
    (validateSeq P (event.field (js "seq")) expectedSeq).map fun seqErrors =>
      ((event.keys.filter fun key => !eventKeys.contains key).map fun key =>
          js "event contains unknown field " ++ key) ++
        validateNonNegativeInteger (event.field (js "seq")) (js "seq") ++
        validateElapsedMilliseconds (event.field (js "t")) (js "t") ++
        validateNullableNonNegativeInteger (event.field (js "pos")) (js "pos") ++
        validateNullableNonNegativeInteger (event.field (js "del_len")) (js "del_len") ++
        validateNullableNonNegativeInteger (event.field (js "ins_len")) (js "ins_len") ++
        seqErrors ++
        require ((Json.text? (event.field (js "op"))).any fun text =>
            (Operation.ofText? text).isSome)
          (js "op must be one of " ++
            joinWith (js ", ") (operations.map Operation.text)) ++
        require ((Json.text? (event.field (js "source"))).any fun text =>
            (Source.ofText? text).isSome)
          (js "source must be one of " ++ joinWith (js ", ") (sources.map Source.text)) ++
        validateSizes (event.field (js "op")) (event.field (js "del_len"))
          (event.field (js "ins_len"))

/-- The integer time by which `validateEventLog` orders an event. -/
def eventTime (event : Json) : Option Int :=
  if event.isPlainObject then (Json.number? (event.field (js "t"))).bind JsNumber.toInt?
  else none

/-- The loop of `validateEventLog` from an index on. -/
def validateEventsFrom (P : Platform) : List Json → Nat → Int → Except JsError (List JsString)
  | [], _, _ => .ok []
  | event :: events, index, previousT =>
      match validateEvent P event (some index) with
      | .error thrown => .error thrown
      | .ok errors =>
          let ordered := match eventTime event with
            | none => []
            | some t => require (previousT ≤ t)
                (js "event " ++ natText index ++ js " t must be non-decreasing")
          (validateEventsFrom P events (index + 1) ((eventTime event).getD previousT)).map
            fun rest => errors ++ ordered ++ rest

def validateEventLog (P : Platform) (events : List Json) : Except JsError (List JsString) :=
  validateEventsFrom P events 0 (-1)

/-- Throws a `TypeError` that joins the messages, when there are any. -/
def throwErrors (errors : List JsString) : Except JsError Unit :=
  if errors.isEmpty then .ok () else .error (.typeError (joinWith (js "; ") errors))

def assertValidEvent (P : Platform) (event : Json) : Except JsError Unit :=
  match validateEvent P event none with
  | .error thrown => .error thrown
  | .ok errors => throwErrors errors

def assertValidEventLog (P : Platform) (events : List Json) : Except JsError Unit :=
  match validateEventLog P events with
  | .error thrown => .error thrown
  | .ok errors => throwErrors errors

def assertNonEmptyEventLog (events : List Json) : Except JsError Unit :=
  if events.isEmpty then
    .error (.typeError (js "event log must contain at least one event"))
  else .ok ()

def bindingKeys : List JsString := [js "scheme", js "canonical_length", js "commitment"]

def validateTextBinding (binding : Json) : List JsString :=
  if !binding.isPlainObject then [js "text_binding must be an object"]
  else
    ((binding.keys.filter fun key => !bindingKeys.contains key).map fun key =>
        js "text_binding contains unknown field " ++ key) ++
      require (Json.text? (binding.field (js "scheme")) == some textBindingScheme)
        (js "text_binding.scheme must be " ++ textBindingScheme) ++
      validateNonNegativeInteger (binding.field (js "canonical_length"))
        (js "text_binding.canonical_length") ++
      require (Json.number? (binding.field (js "canonical_length")) != some (.ofInt 0))
        (js "text_binding.canonical_length must be greater than 0") ++
      require (isB3Hash (binding.field (js "commitment")))
        (js "text_binding.commitment must be a b3: hash")

def assertValidTextBinding (binding : Json) : Except JsError Unit :=
  throwErrors (validateTextBinding binding)

def isAbsentOrNull : Option Json → Bool
  | none => true
  | some .null => true
  | _ => false

def validateNullableTimestamp (P : Platform) (value : Option Json) (name : JsString) :
    List JsString :=
  require (isAbsentOrNull value || (Json.text? value).any P.parsesDate)
    (name ++ js " must be a parseable timestamp string, null, or absent")

def validateNullableB3 (value : Option Json) (name : JsString) : List JsString :=
  require (isAbsentOrNull value || isB3Hash value)
    (name ++ js " must be a b3: hash, null, or absent")

def validateAttestation (index : Nat) (attestation : Json) : List JsString :=
  let name := js "attestations[" ++ natText index ++ js "]"
  match attestation with
  | .obj entries =>
      require ((Json.text? (attestation.field (js "type"))).any fun text => !text.isEmpty)
          (name ++ js ".type must be a non-empty string") ++
        require (entries.length ≤ maxAttestationFieldCount)
          (name ++ js " must contain at most " ++ natText maxAttestationFieldCount ++
            js " fields") ++
        entries.flatMap fun entry =>
          if maxAttestationKeyLength < entry.1.length then
            [name ++ js " field names must be at most " ++ natText maxAttestationKeyLength ++
              js " characters"]
          else
            validateBoundedString (some entry.2) (name ++ js "." ++ entry.1)
              maxAttestationStringLength
  | _ => [name ++ js " must be an object"]

def validateAttestations (attestations : Option Json) : List JsString :=
  match attestations with
  | some (.arr items) =>
      require (items.length ≤ maxAttestationCount)
          (js "attestations must contain at most " ++ natText maxAttestationCount ++
            js " entries") ++
        items.zipIdx.flatMap fun item => validateAttestation item.2 item.1
  | _ => [js "attestations must be an array"]

def producerKeys : List JsString := [js "id", js "version", js "capabilities"]

def validateCapabilities (value : Option Json) : List JsString :=
  match value with
  | some (.arr items) =>
      require (items.length ≤ capabilities.length) (js "too many producer capabilities") ++
        items.flatMap fun item =>
          require ((Json.text? (some item)).any fun text =>
              (capabilities.map Capability.text).contains text)
            (js "producer capability must be one of " ++
              joinWith (js ", ") (capabilities.map Capability.text))
  | _ => [js "producer.capabilities must be an array"]

def validateProducer (producer : Option Json) : List JsString :=
  match producer with
  | some (.obj fields) =>
      let candidate := Json.obj fields
      ((candidate.keys.filter fun key => !producerKeys.contains key).map fun _ =>
          js "producer contains an unknown field") ++
        validateBoundedString (candidate.field (js "id")) (js "producer.id")
          maxProducerStringLength ++
        validateBoundedString (candidate.field (js "version")) (js "producer.version")
          maxProducerStringLength ++
        require ((Json.text? (candidate.field (js "id"))).any fun text => !text.isEmpty)
          (js "producer.id must be a non-empty string") ++
        require ((Json.text? (candidate.field (js "version"))).any fun text => !text.isEmpty)
          (js "producer.version must be a non-empty string") ++
        validateCapabilities (candidate.field (js "capabilities"))
  | _ => [js "producer must be an object"]

/-- A binding belongs to formats 0.2 and 0.3 only. -/
def validateManifestBinding (manifest : Json) : List JsString :=
  let version := (Json.text? (manifest.field (js "format_version"))).bind FormatVersion.ofText?
  require (!(version == some .v0_1 && manifest.hasField (js "text_binding")))
      (js "text_binding is not valid for format_version 0.1") ++
    if version == some .v0_2 || version == some .v0_3 then
      ((manifest.field (js "text_binding")).map validateTextBinding).getD []
    else []

def validateManifest (P : Platform) (manifest : Json) : List JsString :=
  if !manifest.isPlainObject then [js "manifest must be an object"]
  else
    require ((Json.text? (manifest.field (js "format_version"))).any fun text =>
        (FormatVersion.ofText? text).isSome)
      (js "format_version must be one of " ++
        joinWith (js ", ") (formatVersions.map FormatVersion.text)) ++
    require (isB3Hash (manifest.field (js "record_hash")))
      (js "record_hash must be a b3: hash") ++
    require ((Json.text? (manifest.field (js "session_id"))).any isUuid)
      (js "session_id must be a lowercase UUIDv4 string") ++
    validateProducer (manifest.field (js "producer")) ++
    require (!manifest.hasField (js "capture_context"))
      (js "capture_context is not a public manifest field") ++
    validateManifestBinding manifest ++
    validateNonNegativeInteger (manifest.field (js "event_count")) (js "event_count") ++
    validateElapsedMilliseconds (manifest.field (js "duration_ms")) (js "duration_ms") ++
    require (!manifest.hasField (js "final_text_hash"))
      (js "final_text_hash is not a content-blind public manifest field") ++
    require (!manifest.hasField (js "final_text_length"))
      (js "final_text_length is not a content-blind public manifest field") ++
    validateNullableTimestamp P (manifest.field (js "created_client_t"))
      (js "created_client_t") ++
    validateNullableTimestamp P (manifest.field (js "ingested_server_t"))
      (js "ingested_server_t") ++
    require (!manifest.hasField (js "parent_record_hash"))
      (js "parent_record_hash is not a public manifest field; use parent_record") ++
    validateNullableB3 (manifest.field (js "parent_record")) (js "parent_record") ++
    validateAttestations (manifest.field (js "attestations"))

/-! ## What acceptance means -/

@[simp] theorem require_eq_nil {check : Bool} {message : JsString} :
    require check message = [] ↔ check = true := by
  unfold require
  split <;> simp_all

theorem mem_require {check : Bool} {message other : JsString} :
    other ∈ require check message ↔ check = false ∧ other = message := by
  unfold require
  split <;> simp_all

theorem validateEvent_messages {P : Platform} {event : Json} {expectedSeq : Option Nat}
    {errors : List JsString} (h : validateEvent P event expectedSeq = .ok errors) :
    ∀ message ∈ errors, message ≠ [] := by
  have hseq : ∀ seqErrors, validateSeq P (event.field (js "seq")) expectedSeq = .ok seqErrors →
      ∀ message ∈ seqErrors, message ≠ [] := by
    intro seqErrors hseqErrors message hmessage
    unfold validateSeq at hseqErrors
    split at hseqErrors
    · simp_all
    · split at hseqErrors
      · simp_all
      · cases hshown : P.toText (event.field (js "seq")) with
        | error thrown => simp [hshown, Except.map] at hseqErrors
        | ok shown =>
            simp only [hshown, Except.map, Except.ok.injEq] at hseqErrors
            subst hseqErrors
            rw [List.mem_singleton.1 hmessage]
            simp [js, charUnits]
  unfold validateEvent at h
  split at h
  · simp only [Except.ok.injEq] at h
    subst h
    simp [js, charUnits]
  · cases hseqErrors : validateSeq P (event.field (js "seq")) expectedSeq with
    | error thrown => simp [hseqErrors, Except.map] at h
    | ok seqErrors =>
        simp only [hseqErrors, Except.map, Except.ok.injEq] at h
        subst h
        intro message hmessage
        simp only [List.mem_append, List.mem_map, validateNonNegativeInteger,
          validateElapsedMilliseconds, validateNullableNonNegativeInteger, validateSizes,
          mem_require] at hmessage
        rcases hmessage with ((((((((⟨key, -, rfl⟩ | ⟨-, rfl⟩) | ⟨-, rfl⟩) | ⟨-, rfl⟩) |
          ⟨-, rfl⟩) | ⟨-, rfl⟩) | hmessage) | ⟨-, rfl⟩) | ⟨-, rfl⟩) |
          ((⟨-, rfl⟩ | ⟨-, rfl⟩) | ⟨-, rfl⟩)
        case isFalse.ok.inl.inl.inl.inr => exact hseq _ hseqErrors _ hmessage
        all_goals simp [js, charUnits]

@[simp] theorem throwErrors_ok {errors : List JsString} {u : Unit} :
    throwErrors errors = .ok u ↔ errors = [] := by
  unfold throwErrors
  cases errors <;> simp

end Pmbah.Format
