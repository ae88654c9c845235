import Pmbah.Producer.Registry

/-!
# Signing and its outcome

`sign` freezes a session and builds its manifest; the marks that follow record
how the upload went, `continueFrom` starts the next segment, and `load` takes
over what an earlier process left behind.
-/

namespace Pmbah.Producer

open Js Format Library

structure SignedRecordDraft where
  manifest : Json
  events : List BufferMutation
  uploadId : Option JsString

/-! ## The manifest -/

/-- Unsigned 0.2 drafts are upgraded without replacing their event chain. -/
def signedVersion (options : RegistryOptions) (record : SessionRecord) : FormatVersion :=
  if options.signedFinishTime && record.state != .failedUpload && record.formatVersion == .v0_2
  then .v0_3
  else record.formatVersion

def signedBinding (record : SessionRecord) (textBinding : Option Json) : Option Json :=
  if record.state = .failedUpload then record.signedTextBinding else textBinding

def signedDuration (options : RegistryOptions) (record : SessionRecord) (now : Int) : Int :=
  match (if record.state = .failedUpload then record.signedDurationMs else none) with
  | some duration => duration
  | none =>
      if signedVersion options record = .v0_3 then
        max (sessionLastEventTime record : Int) (now - record.baseWallMs)
      else sessionLastEventTime record

def chainHeadFromEvents (P : Platform) (sessionId : JsString) (version : FormatVersion) :
    Option B3Hash → List BufferMutation → Except JsError (Option B3Hash)
  | tip, [] => .ok tip
  | tip, event :: events =>
      match advanceChain P tip event sessionId version with
      | .error thrown => .error thrown
      | .ok next => chainHeadFromEvents P sessionId version (some next) events

def invalidTipError : JsError := .typeError (js "invalid event chain tip")

/-- The record hash: sealed over the journal's tip, or computed from the events. -/
def signedHash (P : Platform) (options : RegistryOptions) (record : SessionRecord)
    (version : FormatVersion) (textBinding : Option Json) (duration : Int) :
    Except JsError B3Hash :=
  let finalization : Finalization :=
    { durationMs := some (Json.ofInt duration), parentRecord := record.parentRecord.map .str }
  if options.journal then
    match record.lastEventChainTip with
    | none => .error invalidTipError
    | some tip => sealRecordHash P tip version textBinding finalization
  else if textBinding.any Json.truthy || version == .v0_3 then
    computeRecordHash P (record.events.map BufferMutation.toJson) record.sessionId version
      textBinding finalization
  else
    match record.lastEventChainTip with
    | some tip => .ok tip
    | none =>
        match chainHeadFromEvents P record.sessionId version none record.events with
        | .error thrown => .error thrown
        | .ok none => .error invalidTipError
        | .ok (some tip) => .ok tip

def producerJson (producer : ProducerIdentity) : Json :=
  .obj [(js "id", .str producer.id), (js "version", .str producer.version),
    (js "capabilities", .arr (producer.capabilities.map fun capability => .str capability.text))]

def signedManifest (record : SessionRecord) (version : FormatVersion) (hash : B3Hash)
    (textBinding : Option Json) (duration : Int) (createdClientT : JsString) : Json :=
  .ofFields [(js "format_version", some (.str version.text)),
    (js "record_hash", some (.str hash.text)),
    (js "session_id", some (.str record.sessionId)),
    (js "producer", some (producerJson record.producer)),
    (js "text_binding", textBinding.filter Json.truthy),
    (js "event_count", some (Json.ofNat (sessionEventCount record))),
    (js "duration_ms", some (Json.ofInt duration)),
    (js "created_client_t", some (.str createdClientT)),
    (js "ingested_server_t", some .null),
    (js "parent_record", some (Json.orNull (record.parentRecord.map .str))),
    (js "attestations", some (.arr []))]

def invalidDateError : JsError := .rangeError (js "Invalid time value")

/-- The errors a producer finds in what it is about to sign. -/
def selfVerification (P : Platform) (options : RegistryOptions) (record : SessionRecord)
    (manifest : Json) : Except JsError (List JsString) :=
  if options.journal then .ok (validateManifest P manifest)
  else
    (verifyEventHashChain P manifest (record.events.map BufferMutation.toJson)).map
      VerificationResult.errors

/-- The record after it has been signed. -/
def freeze (options : RegistryOptions) (record : SessionRecord) (version : FormatVersion)
    (textBinding : Option Json) (duration : Int) (uuid : JsString) : SessionRecord :=
  { record with
    state := .signing
    formatVersion := version
    signedTextBinding := textBinding
    signedDurationMs := some duration
    uploadId := if options.journal then some (record.uploadId.getD uuid) else record.uploadId }

/-- The manifest of a record and the record that is frozen with it. -/
def signRecord (P : Platform) (options : RegistryOptions) (record : SessionRecord)
    (textBinding : Option Json) (now : Int) (uuid : JsString) :
    Except JsError (SessionRecord × Json) :=
  if sessionEventCount record = 0 then
    .error (.error (js "cannot sign session " ++ record.sessionId ++ js " with no events"))
  else
    let version := signedVersion options record
    let binding := signedBinding record textBinding
    let duration := signedDuration options record now
    match signedHash P options record version binding duration with
    | .error thrown => .error thrown
    | .ok hash =>
        match P.isoDate record.baseWallMs with
        | none => .error invalidDateError
        | some createdClientT =>
            let manifest := signedManifest record version hash binding duration createdClientT
            match selfVerification P options record manifest with
            | .error thrown => .error thrown
            | .ok errors =>
                if !errors.isEmpty then
                  .error (.error (js "signed record failed self-verification: " ++
                    joinWith (js "; ") errors))
                else .ok (freeze options record version binding duration uuid, manifest)

/-- Signs an active session, or re-signs one whose upload failed so the same
record can be retried. -/
def sign (P : Platform) (options : RegistryOptions) (registry : Registry)
    (sessionId : JsString) (textBinding : Option Json) (now : Int) (uuid : JsString) :
    Registry × Except JsError SignedRecordDraft :=
  match requireInState registry sessionId [.active, .failedUpload] with
  | (registry, .error thrown) => (registry, .error thrown)
  | (registry, .ok record) =>
      match signRecord P options record textBinding now uuid with
      | .error thrown => (registry, .error thrown)
      | .ok (frozen, manifest) =>
          (registry.put sessionId frozen, .ok
            { manifest, events := if options.journal then [] else record.events,
              uploadId := frozen.uploadId })

/-! ## The outcome of an upload -/

def markUploading (registry : Registry) (sessionId : JsString) :
    Registry × Except JsError Unit :=
  match requireInState registry sessionId [.signing, .failedUpload] with
  | (registry, .error thrown) => (registry, .error thrown)
  | (registry, .ok record) =>
      (registry.put sessionId { record with state := .uploading, lastFailureReason := none },
        .ok ())

def markUploaded (registry : Registry) (sessionId : JsString) (response : IngestRecordResponse)
    (now : Int) : Registry × Except JsError Unit :=
  match requireInState registry sessionId [.uploading] with
  | (registry, .error thrown) => (registry, .error thrown)
  | (registry, .ok record) =>
      (registry.put sessionId
        { record with
          state := .uploaded, uploadedResponse := some response, lastEditWallMs := now },
        .ok ())

def markFailedUpload (registry : Registry) (sessionId : JsString) (reason : JsString) :
    Registry × Except JsError Unit :=
  match requireInState registry sessionId [.uploading, .signing] with
  | (registry, .error thrown) => (registry, .error thrown)
  | (registry, .ok record) =>
      (registry.put sessionId
        { record with state := .failedUpload, lastFailureReason := some reason }, .ok ())

def resetObservation (observation : SessionObservation) : SessionObservation :=
  { observation with
    commitments := []
    observedSessionId := none
    lastObservedToken := none
    lastCommittedEventCount := 0
    nextBackoffMs := 0
    inFlight := false
    queued := false
    state := .unknown }

inductive ObservationRejection where
  | mismatch
  | unavailable
  deriving DecidableEq, Repr

def rejectObservation (observation : SessionObservation) :
    ObservationRejection → SessionObservation
  | .unavailable =>
      resetObservation
        { observation with
          lastFailure := some ⟨js "observation_unavailable", js "404"⟩ }
  | .mismatch =>
      { observation with
        lastFailure := some ⟨js "observation_mismatch", js "409"⟩
        state := .diverged
        nextBackoffMs := 0 }

def markObservationRejected (registry : Registry) (sessionId : JsString)
    (code : ObservationRejection) : Registry × Except JsError Unit :=
  match requireInState registry sessionId [.uploading, .failedUpload] with
  | (registry, .error thrown) => (registry, .error thrown)
  | (registry, .ok record) =>
      (registry.put sessionId
        { record with observation := rejectObservation record.observation code }, .ok ())

/-! ## Continuing an uploaded record -/

structure Location where
  origin : Option FieldOrigin
  descriptor : Option FieldDescriptor

def missingResponseError (sessionId : JsString) : JsError :=
  .error (js "uploaded session " ++ sessionId ++ js " has no upload response to continue from")

/-- When the previous segment ended, by its sealed finish where it has one. -/
def priorFinish (previous : SessionRecord) : Int :=
  match previous.formatVersion, previous.signedDurationMs with
  | .v0_3, some duration => previous.baseWallMs + duration
  | _, _ => previous.lastEditWallMs

def continueFrom (options : RegistryOptions) (registry : Registry) (sessionId : JsString)
    (location : Location) (clock : Nat → Int) (uuid : JsString) :
    Registry × Except JsError SessionRecord :=
  match requireInState registry sessionId [.uploaded] with
  | (registry, .error thrown) => (registry, .error thrown)
  | (registry, .ok previous) =>
      match previous.uploadedResponse with
      | none => (registry, .error (missingResponseError sessionId))
      | some response =>
          match registry.sessions.entries.find? fun entry =>
              entry.2.state == .active && entry.2.parentRecord == some response.recordHash with
          | some (existingId, existing) =>
              let moved :=
                { existing with
                  origin := location.origin.getD existing.origin
                  descriptor := location.descriptor.getD existing.descriptor
                  lastEditWallMs := clock 0 }
              ((registry.put existingId moved).touch existing.sessionId, .ok moved)
          | none =>
              let now := clock 0
              let record := newRecord options registry.nextId uuid
                (location.origin.getD previous.origin)
                (location.descriptor.getD previous.descriptor) previous.captureSurface .resumed
                (if options.signedFinishTime then priorFinish previous else now) now
                options.signedFinishTime (some response.recordHash)
              (insertNew registry record, .ok record)

/-! ## Removing sessions -/

/-- Forgets a session and queues its deletion. -/
def removeSession (registry : Registry) (sessionId : JsString) : Registry :=
  { registry with
    sessions := registry.sessions.delete sessionId
    deleted := registry.deleted.add sessionId
    dirty := registry.dirty.delete sessionId
    pendingEvents := registry.pendingEvents.delete sessionId
    inFlight := registry.inFlight.delete sessionId }

/-- Returns a copy of the removed record, which is a new object. -/
def discard (registry : Registry) (sessionId : JsString) : Registry × Option SessionRecord :=
  match registry.get sessionId with
  | none => (registry, none)
  | some existing =>
      ({ removeSession registry sessionId with nextId := registry.nextId + 1 },
        some { existing with objectId := registry.nextId })

structure SweepOptions where
  ttlMs : Int
  uploadedGraceMs : Int
  retainUploadedAnchors : Bool

/-- What is left of an uploaded session whose link is kept. -/
def anchorOf (options : RegistryOptions) (objectId : Nat) (record : SessionRecord) :
    SessionRecord :=
  { record with
    objectId := objectId
    events := []
    continuationAnchor := true
    lastEventChainTip := none
    observation := emptyObservation options.checkpoint }

def sweepOne (options : RegistryOptions) (sweep : SweepOptions) (now : Int)
    (registry : Registry) (record : SessionRecord) : Registry :=
  if sweep.retainUploadedAnchors && record.state == .uploaded &&
      now - record.lastEditWallMs < sweep.ttlMs then
    let anchored := registry.put record.sessionId (anchorOf options registry.nextId record)
    { anchored.touch record.sessionId with
      clearEvents := registry.clearEvents.add record.sessionId
      nextId := registry.nextId + 1 }
  else removeSession registry record.sessionId

def sweep (options : RegistryOptions) (registry : Registry) (sweepOptions : SweepOptions)
    (now : Int) : Registry :=
  (registry.sessions.values.filter
    (expired now sweepOptions.ttlMs sweepOptions.uploadedGraceMs)).foldl
    (sweepOne options sweepOptions now) registry

/-! ## Loading -/

/-- Work owned by an earlier process is frozen for an exact retry. -/
def normaliseLoadedRecord (objectId : Nat) (record : SessionRecord) : SessionRecord :=
  let interrupted := record.state == .signing || record.state == .uploading
  { record with
    objectId := objectId
    state := if interrupted then .failedUpload else record.state
    lastFailureReason :=
      if interrupted then
        some (js "Saving was interrupted. Retry to recover the same signed record.")
      else record.lastFailureReason
    observation :=
      { record.observation with inFlight := false, queued := false, nextBackoffMs := 0 } }

def loadRecord (registry : Registry) (record : SessionRecord) : Registry :=
  insertNew registry (normaliseLoadedRecord registry.nextId record)

def load (registry : Registry) (snapshot : List SessionRecord) : Registry :=
  snapshot.foldl loadRecord
    { registry with
      sessions := ∅, pendingEvents := ∅, dirty := ∅, deleted := ∅, clearEvents := ∅ }

end Pmbah.Producer
