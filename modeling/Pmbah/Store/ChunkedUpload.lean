import Pmbah.Library.Segments
import Pmbah.Store.ObservedSessions

/-!
# Chunked uploads

A record too long for one request is uploaded in chunks and published at the
end.  An upload's state is an object: an appended chunk replaces it, while the
other calls change it in place, so a `finalize` that waits may hold an old one.
-/

namespace Pmbah.Store

open Js Format Library

def maxEventChunk : Nat := 4096

inductive UploadObservation where
  | unobserved
  | bound (observedSessionId observedTokenHash : JsString)

/-- `A` is the type of the analysis accumulator, which the store keeps unread. -/
structure UploadState (A : Type) where
  uploadId : JsString
  manifest : RecordManifest
  observation : Option UploadObservation
  nextSeq : Nat
  chainTip : Option B3Hash
  lastT : Option Nat
  receivedBytes : Nat
  observedLength : Option Nat
  analysisState : A
  finalizedRecordHash : Option B3Hash
  publishedOwner : Bool

structure Chunk where
  events : List Json
  tips : List B3Hash

/-- What the API gives the chunked store besides the requests. -/
structure ChunkedOptions (A : Type) where
  maxUploadEvents : Nat
  maxUploadBytes : Nat
  /-- `Buffer.byteLength(JSON.stringify(events))`. -/
  byteLength : List Json → Nat
  createAnalysisAccumulator : Option Nat → A
  appendAnalysisEvent : A → Json → A
  observedLength : A → Option Nat
  /-- Statistics and signals from the accumulator and the counted delays, or why
  they cannot be stored. -/
  finalizeAnalysis : A → RecordManifest → List (Nat × Nat) → Except StoreError (Json × List Json)

/-- A `finalize` that waits for its lookup, with the state it read before. -/
structure Finalizing where
  uploadId : JsString
  object : Nat
  found : Option StoredRecord
  shortSignature : JsString

/-- `uploads` names the current object of an upload; `awaiting` lists the waiting
`finalize` calls, the oldest first. -/
structure ChunkedStore (A : Type) where
  objects : List (UploadState A)
  uploads : OrderedMap JsString Nat
  chunks : OrderedMap JsString (OrderedMap Nat Chunk)
  delays : OrderedMap JsString (OrderedMap Nat Nat)
  completed : OrderedMap B3Hash StoredRecord
  awaiting : List Finalizing

structure Finalized where
  recordHash : B3Hash
  shortSignature : JsString
  created : Bool

def invalid (code : JsString) (errors : List JsString) : StoreError :=
  .chunkedUpload 400 code (joinWith (js "; ") (errors.take 20))

/-- A chunked upload error whose message is its code. -/
def uploadError (status : Nat) (code : JsString) : StoreError := .chunkedUpload status code code

def identity (P : Platform) (manifest : RecordManifest) : Except JsError JsString :=
  canonicalizeJson P (manifest.json.withField (js "ingested_server_t") .null)

def assertSameManifest (P : Platform) (a b : RecordManifest) : Except StoreError Unit :=
  match identity P a, identity P b with
  | .ok first, .ok second =>
      if first ≠ second then .error (uploadError 409 (js "upload_manifest_conflict")) else .ok ()
  | .error thrown, _ => .error (.thrown thrown)
  | .ok _, .error thrown => .error (.thrown thrown)

def assertAppend {A : Type} (state : UploadState A) (offset count : Nat) : Except StoreError Unit :=
  if state.finalizedRecordHash.isSome then .error (uploadError 409 (js "upload_already_finalized"))
  else if offset ≠ state.nextSeq then .error (uploadError 409 (js "upload_offset_conflict"))
  else if state.manifest.eventCount < offset + count then
    .error (uploadError 400 (js "upload_event_count_exceeded"))
  else .ok ()

/-! ## What the API does with a chunk and with a complete upload -/

structure ChunkTransition (A : Type) where
  state : UploadState A
  chainTips : List B3Hash
  delays : List Nat

variable {A : Type}

/-- One event of a chunk. -/
def transitionEvent (P : Platform) (options : ChunkedOptions A) (progress : ChunkTransition A)
    (event : Json) : Except StoreError (ChunkTransition A) :=
  let current := progress.state
  match validateEvent P event (some current.nextSeq) with
  | .error thrown => .error (.thrown thrown)
  | .ok errors =>
      let t := event.natAt (js "t")
      if !errors.isEmpty then .error (invalid (js "verification_failed") errors)
      else if current.lastT.any (t < ·) then
        .error (invalid (js "verification_failed") [js "event times must be nondecreasing"])
      else if current.manifest.durationMs < t then
        .error (invalid (js "verification_failed") [js "event time exceeds signed finish"])
      else match advanceEventHash P current.chainTip event current.manifest.sessionId
          current.manifest.formatVersion with
      | .error thrown => .error (.thrown thrown)
      | .ok tip =>
          let analysis := options.appendAnalysisEvent current.analysisState event
          let observedLength := options.observedLength analysis
          if observedLength.any (maxIntegerFieldValue < ·) then
            .error (invalid (js "verification_failed")
              [js "observed length exceeds supported range"])
          else
            .ok {
              state := { current with
                chainTip := some tip
                nextSeq := current.nextSeq + 1
                lastT := some t
                observedLength
                analysisState := analysis }
              chainTips := progress.chainTips ++ [tip]
              delays := progress.delays ++ (current.lastT.map (t - ·)).toList }

def transitionEvents (P : Platform) (options : ChunkedOptions A) :
    ChunkTransition A → List Json → Except StoreError (ChunkTransition A)
  | progress, [] => .ok progress
  | progress, event :: events =>
      match transitionEvent P options progress event with
      | .error error => .error error
      | .ok progress => transitionEvents P options progress events

def transition (P : Platform) (options : ChunkedOptions A) (current : UploadState A)
    (events : List Json) : Except StoreError (ChunkTransition A) :=
  let bytes := options.byteLength events
  if options.maxUploadBytes < current.receivedBytes + bytes then
    .error (.chunkedUpload 413 (js "upload_too_large")
      (js "uploads are limited to " ++ natText options.maxUploadBytes ++ js " bytes of events"))
  else
    transitionEvents P options
      { state := { current with receivedBytes := current.receivedBytes + bytes }
        chainTips := [], delays := [] } events

/-- Statistics and signals of a complete upload. -/
def derive (P : Platform) (options : ChunkedOptions A) (state : UploadState A)
    (delays : List (Nat × Nat)) : Except StoreError (Json × List Json) :=
  match (if state.nextSeq = state.manifest.eventCount then state.chainTip else none) with
  | none => .error (uploadError 409 (js "upload_incomplete"))
  | some tip =>
      match sealManifest P state.manifest.json tip with
      | .error thrown => .error (.thrown thrown)
      | .ok computed =>
          if computed ≠ state.manifest.recordHash then
            .error (invalid (js "verification_failed") [js "record_hash mismatch"])
          else options.finalizeAnalysis state.analysisState state.manifest delays

/-- The observation that an upload is published with. -/
def observationView (clock : Clock) (state : UploadState A) (session : Option ObservedSession)
    (tipAt : Nat → Option B3Hash) : Except StoreError RecordObservation :=
  match state.observation with
  | none => .ok notRequestedObservation
  | some .unobserved => .ok unobservedObservation
  | some (.bound _ observedTokenHash) =>
      match session with
      | none => .error (uploadError 404 (js "observation_unavailable"))
      | some session =>
          if session.tokenHash ≠ observedTokenHash then
            .error (uploadError 404 (js "observation_unavailable"))
          else if session.finalizedRecordHash.any (· ≠ state.manifest.recordHash) then
            .error (uploadError 409 (js "observed_session_finalized"))
          else if session.checkpoints.isEmpty || session.checkpoints.any fun checkpoint =>
              -- No chunk covers the index before the first event.
              checkpoint.eventCount == 0 ||
                decide (tipAt (checkpoint.eventCount - 1) ≠ some checkpoint.chainTip) then
            .error (uploadError 409 (js "observation_mismatch"))
          else
            .ok (observationFromCheckpoints clock session.observedSessionId
              (if lastEventCount session.checkpoints = state.nextSeq then .observed else .partly)
              session.checkpoints)

/-! ## The store -/

/-- One part of each chunk, with the place of its first event. -/
def segments {α : Type} (part : Chunk → List α) (chunks : List (Nat × Chunk)) :
    List (Nat × List α) :=
  chunks.map fun chunk => (chunk.1, part chunk.2)

/-- The tip after the event at an index, from the chunk that holds it. -/
def tipAt (chunks : List (Nat × Chunk)) (index : Nat) : Option B3Hash :=
  ((segments Chunk.tips chunks).find? (covers index)).bind fun segment =>
    segment.2[index - segment.1]?

def countDelays (counts : OrderedMap Nat Nat) (delays : List Nat) : OrderedMap Nat Nat :=
  delays.foldl (fun counts delay => counts.set delay ((counts.get? delay).getD 0 + 1)) counts

namespace ChunkedStore

def empty : ChunkedStore A :=
  { objects := [], uploads := ∅, chunks := ∅, delays := ∅, completed := ∅, awaiting := [] }

/-- The object that an upload id names. -/
def upload? (store : ChunkedStore A) (id : JsString) : Option (Nat × UploadState A) :=
  (store.uploads.get? id).bind fun object => (store.objects[object]?).map fun state =>
    (object, state)

/-- `findCompleted` of a record hash, which is never the short signature of a record. -/
def findCompleted (store : ChunkedStore A) (recordHash : B3Hash) : Option StoredRecord :=
  store.completed.get? recordHash

/-- The API's checks of a request to begin, then the store's `begin`.  The manifest
carries its time of ingestion, and `starting` is the length it starts at. -/
def begin (P : Platform) (options : ChunkedOptions A) (store : ChunkedStore A)
    (uploadId : JsString) (manifest : RecordManifest) (observation : Option UploadObservation)
    (starting : Option Nat) : ChunkedStore A × Except StoreError (UploadState A) :=
  if !isUuid uploadId then
    (store, .error (invalid (js "invalid_payload") [js "upload_id must be a lowercase UUIDv4"]))
  else if !(validateManifest P manifest.json).isEmpty then
    (store, .error (invalid (js "invalid_manifest") (validateManifest P manifest.json)))
  else if manifest.eventCount = 0 then
    (store, .error (invalid (js "invalid_manifest") [js "event_count must be positive"]))
  else if options.maxUploadEvents < manifest.eventCount then
    (store, .error (.chunkedUpload 413 (js "upload_too_large")
      (js "uploads are limited to " ++ natText options.maxUploadEvents ++ js " events")))
  else match store.upload? uploadId with
    | some (object, existing) =>
        match assertSameManifest P existing.manifest manifest with
        | .error error => (store, .error error)
        | .ok () =>
            if existing.finalizedRecordHash.isSome then (store, .ok existing)
            else
              ({ store with objects := store.objects.set object { existing with observation } },
                .ok { existing with observation })
    | none =>
        let state : UploadState A :=
          { uploadId, manifest, observation, nextSeq := 0, chainTip := none, lastT := none,
            receivedBytes := 0, observedLength := starting,
            analysisState := options.createAnalysisAccumulator starting,
            finalizedRecordHash := none, publishedOwner := false }
        ({ store with
            objects := store.objects ++ [state]
            uploads := store.uploads.set uploadId store.objects.length
            chunks := store.chunks.set uploadId ∅
            delays := store.delays.set uploadId ∅ }, .ok state)

/-- The API's check of the size of a chunk, then the store's `append`. -/
def append (P : Platform) (options : ChunkedOptions A) (store : ChunkedStore A) (id : JsString)
    (offset : Nat) (events : List Json) : ChunkedStore A × Except StoreError (UploadState A) :=
  if events.length < 1 ∨ maxEventChunk < events.length then
    (store, .error (invalid (js "invalid_payload") [js "chunks require start_seq and 1–4096 events"]))
  else match store.upload? id with
    | none => (store, .error (uploadError 404 (js "upload_not_found")))
    | some (_, state) =>
        match store.chunks.get? id with
        | none => (store, .error (uploadError 409 (js "upload_already_finalized")))
        | some chunks =>
            match chunks.get? offset with
            | some prior =>
                match canonicalizeJson P (.arr prior.events), canonicalizeJson P (.arr events) with
                | .error thrown, _ => (store, .error (.thrown thrown))
                | .ok _, .error thrown => (store, .error (.thrown thrown))
                | .ok first, .ok second =>
                    if first ≠ second then
                      (store, .error (uploadError 409 (js "upload_chunk_conflict")))
                    else (store, .ok state)
            | none =>
                match assertAppend state offset events.length with
                | .error error => (store, .error error)
                | .ok () =>
                    match transition P options state events with
                    | .error error => (store, .error error)
                    | .ok next =>
                        -- An upload that is not final still counts its delays.
                        let counts := (store.delays.get? id).getD ∅
                        ({ store with
                            objects := store.objects ++ [next.state]
                            uploads := store.uploads.set id store.objects.length
                            chunks := store.chunks.set id
                              (chunks.set offset ⟨events, next.chainTips⟩)
                            delays := store.delays.set id (countDelays counts next.delays) },
                          .ok next.state)

/-- `finalize` up to where it waits; `found` is what the lookup has found. -/
def finalize (store : ChunkedStore A) (lookup : B3Hash → Option StoredRecord) (id : JsString)
    (shortSignature : JsString) : ChunkedStore A × Except StoreError Unit :=
  match store.upload? id with
  | none => (store, .error (uploadError 404 (js "upload_not_found")))
  | some (object, state) =>
      ({ store with
          awaiting := store.awaiting ++
            [{ uploadId := id, object, found := lookup state.manifest.recordHash,
               shortSignature }] }, .ok ())

/-- A record with this hash is there already. -/
def finishExisting (store : ChunkedStore A) (task : Finalizing) (state : UploadState A)
    (existing : StoredRecord) : ChunkedStore A :=
  { store with
    objects := store.objects.set task.object
      { state with finalizedRecordHash := some existing.manifest.recordHash }
    delays := store.delays.delete task.uploadId
    chunks := if state.publishedOwner then store.chunks else store.chunks.delete task.uploadId }

/-- The upload becomes the record of its hash. -/
def publish (store : ChunkedStore A) (task : Finalizing) (state : UploadState A)
    (data : Json × List Json) (observation : RecordObservation) : ChunkedStore A :=
  { store with
    completed := store.completed.set state.manifest.recordHash {
      manifest := state.manifest
      events := []
      eventStorage := .chunks
      shortSignature := task.shortSignature
      stats := data.1
      signals := data.2
      observation
      createdAt := state.manifest.ingestedServerT.getD [] }
    objects := store.objects.set task.object
      { state with finalizedRecordHash := some state.manifest.recordHash, publishedOwner := true }
    delays := store.delays.delete task.uploadId }

/-- The sessions after a publication with an observation. -/
def finalizeSession (sessions : OrderedMap JsString ObservedSession)
    (observed : Option ObservedSession) (recordHash : B3Hash) (observation : RecordObservation) :
    OrderedMap JsString ObservedSession :=
  match observed, given observation.observedSessionId with
  | some session, some _ =>
      sessions.set session.observedSessionId { session with
        finalizedRecordHash := some recordHash
        observationState := some observation.state }
  | _, _ => sessions

/-- The session that an upload is bound to. -/
def observedSession (sessions : OrderedMap JsString ObservedSession) (state : UploadState A) :
    Option ObservedSession :=
  match state.observation with
  | some (.bound observedSessionId _) => sessions.get? observedSessionId
  | _ => none

/-- The rest of a `finalize` once its lookup is answered. -/
def finishFinalize (P : Platform) (clock : Clock) (options : ChunkedOptions A)
    (store : ChunkedStore A) (sessions : OrderedMap JsString ObservedSession) (task : Finalizing) :
    (ChunkedStore A × OrderedMap JsString ObservedSession) × Except StoreError Finalized :=
  match store.objects[task.object]? with
  | none => ((store, sessions), .error (uploadError 404 (js "upload_not_found")))
  | some state =>
      match task.found.or (store.findCompleted state.manifest.recordHash) with
      | some existing =>
          ((store.finishExisting task state existing, sessions),
            .ok ⟨existing.manifest.recordHash, existing.shortSignature, false⟩)
      | none =>
          match store.delays.get? task.uploadId with
          | none => ((store, sessions), .error (.thrown (.typeError (js "undefined is not iterable"))))
          | some delays =>
              match derive P options state delays.entries with
              | .error error => ((store, sessions), .error error)
              | .ok data =>
                  -- Chunks are dropped only after the delays, so they are still there.
                  let chunks := ((store.chunks.get? task.uploadId).getD ∅).entries
                  let observed := observedSession sessions state
                  match observationView clock state observed (tipAt chunks) with
                  | .error error => ((store, sessions), .error error)
                  | .ok observation =>
                      ((store.publish task state data observation,
                        finalizeSession sessions observed state.manifest.recordHash observation),
                        .ok ⟨state.manifest.recordHash, task.shortSignature, true⟩)

/-- The upload whose chunks hold a record's events. -/
def owner? (store : ChunkedStore A) (record : StoredRecord) : Option (UploadState A) :=
  (store.uploads.values.filterMap fun object => store.objects[object]?).find? fun upload =>
    upload.publishedOwner &&
      decide (upload.finalizedRecordHash = some record.manifest.recordHash) &&
      upload.nextSeq == record.manifest.eventCount

/-- The chunks of a record that is kept in chunks. -/
def recordChunks (store : ChunkedStore A) (record : StoredRecord) : List (Nat × Chunk) :=
  (((store.owner? record).bind fun upload => store.chunks.get? upload.uploadId).getD ∅).entries

end ChunkedStore

end Pmbah.Store
