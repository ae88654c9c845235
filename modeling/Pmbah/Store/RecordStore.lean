import Pmbah.Library.Transition
import Pmbah.Store.ChunkedUpload

/-!
# The in-memory record store

Records, short signatures, observed sessions and chunked uploads, and the calls
that change them.  Every call runs to its end at once, except that `finalize`
waits for its lookup: every lookup takes the same number of turns, so waiting
calls resume in the order in which they were made.
-/

namespace Pmbah.Store

open Js Format Library

structure SaveRecordInput where
  record : WritingRecord
  shortSignature : JsString
  stats : Json
  signals : Option (List Json)
  observation : Option RecordObservation
  createdAt : Option JsString

structure SaveRecordResult where
  stored : StoredRecord
  created : Bool

structure RecordStore (A : Type) where
  byHash : OrderedMap B3Hash StoredRecord
  byShortSignature : OrderedMap JsString B3Hash
  observedSessions : OrderedMap JsString ObservedSession
  chunked : ChunkedStore A

variable {A : Type}

namespace RecordStore

def empty : RecordStore A :=
  { byHash := ∅, byShortSignature := ∅, observedSessions := ∅, chunked := .empty }

def findByRecordHash (store : RecordStore A) (recordHash : B3Hash) : Option StoredRecord :=
  (store.byHash.get? recordHash).or (store.chunked.findCompleted recordHash)

/-- The sessions after a record has been bound to one, and its final observation. -/
def bindRecord (P : Platform) (clock : Clock) (store : RecordStore A) (input : SaveRecordInput)
    (now : JsString) :
    Except StoreError (OrderedMap JsString ObservedSession × Option RecordObservation) :=
  match given (input.observation.bind RecordObservation.observedSessionId) with
  | none => .ok (store.observedSessions, input.observation)
  | some observedSessionId =>
      match store.observedSessions.get? observedSessionId with
      | none => .error observedSessionNotFound
      | some session =>
          if session.finalizedRecordHash.any (· ≠ input.record.manifest.recordHash) then
            .error observedSessionFinalized
          else
            match validateRecordObservation P clock input.record session.observedSessionId
                session.checkpoints with
            | .error error => .error error
            | .ok observation =>
                .ok (store.observedSessions.set observedSessionId { session with
                  finalizedRecordHash := some input.record.manifest.recordHash
                  observationState := some observation.state
                  finalizedAt := some
                    ((input.record.manifest.ingestedServerT.or input.createdAt).getD now) },
                  some observation)

/-- `now` is the time of the call. -/
def saveRecord (P : Platform) (clock : Clock) (store : RecordStore A) (input : SaveRecordInput)
    (now : JsString) : RecordStore A × Except StoreError SaveRecordResult :=
  let recordHash := input.record.manifest.recordHash
  match store.chunked.findCompleted recordHash with
  | some chunked => (store, .ok ⟨chunked, false⟩)
  | none =>
      match store.byHash.get? recordHash with
      | some existing =>
          if existing.shortSignature ≠ input.shortSignature then
            (store, .error (.duplicateRecordConflict
              (js "record_hash already exists with a different short_signature")))
          else (store, .ok ⟨existing, false⟩)
      | none =>
          if (store.byShortSignature.get? input.shortSignature).any (· ≠ recordHash) then
            (store, .error (.duplicateRecordConflict
              (js "short_signature already belongs to another record")))
          else
            match bindRecord P clock store input now with
            | .error error => (store, .error error)
            | .ok (observedSessions, observation) =>
                let stored : StoredRecord :=
                  { manifest := input.record.manifest
                    events := input.record.events
                    eventStorage := .inline
                    shortSignature := input.shortSignature
                    stats := input.stats
                    signals := input.signals.getD []
                    observation := observation.getD notRequestedObservation
                    createdAt := input.createdAt.getD now }
                ({ store with
                    byHash := store.byHash.set recordHash stored
                    byShortSignature := store.byShortSignature.set input.shortSignature recordHash
                    observedSessions }, .ok ⟨stored, true⟩)

/-- A call to the store, with what it takes from its host; `resume` lets the
oldest waiting `finalize` go on. -/
inductive Action where
  | appendObservedCheckpoint (input : AppendObservedCheckpointInput) (now checkpointId : JsString)
  | getObservedSessionForBinding (input : ObservationBindingInput)
  | saveRecord (input : SaveRecordInput) (now : JsString)
  | begin (uploadId : JsString) (manifest : RecordManifest)
      (observation : Option UploadObservation) (starting : Option Nat)
  | append (uploadId : JsString) (offset : Nat) (events : List Json)
  | finalize (uploadId shortSignature : JsString)
  | resume

/-- What a call answers. -/
inductive Response (A : Type) where
  | checkpoint (result : AppendObservedCheckpointResult)
  | session (session : ObservedSession)
  | saved (result : SaveRecordResult)
  | upload (state : UploadState A)
  | waiting
  | finalized (result : Finalized)

/-- Every call and its answer; there is none when nothing waits to be resumed. -/
def perform (P : Platform) (clock : Clock) (options : ChunkedOptions A) (store : RecordStore A) :
    Action → Option (RecordStore A × Except StoreError (Response A))
  | .appendObservedCheckpoint input now checkpointId =>
      let (observedSessions, result) :=
        Store.appendObservedCheckpoint clock store.observedSessions input now checkpointId
      some ({ store with observedSessions }, result.map .checkpoint)
  | .getObservedSessionForBinding input =>
      some (store, (Store.getObservedSessionForBinding store.observedSessions input).map .session)
  | .saveRecord input now =>
      let (store, result) := store.saveRecord P clock input now
      some (store, result.map .saved)
  | .begin uploadId manifest observation starting =>
      let (chunked, result) :=
        store.chunked.begin P options uploadId manifest observation starting
      some ({ store with chunked }, result.map .upload)
  | .append uploadId offset events =>
      let (chunked, result) := store.chunked.append P options uploadId offset events
      some ({ store with chunked }, result.map .upload)
  | .finalize uploadId shortSignature =>
      let (chunked, result) :=
        store.chunked.finalize store.findByRecordHash uploadId shortSignature
      some ({ store with chunked }, result.map fun () => .waiting)
  | .resume =>
      match store.chunked.awaiting with
      | [] => none
      | task :: awaiting =>
          let ((chunked, observedSessions), result) :=
            ({ store.chunked with awaiting }).finishFinalize P clock options
              store.observedSessions task
          some ({ store with chunked, observedSessions }, result.map .finalized)

def step (P : Platform) (clock : Clock) (options : ChunkedOptions A) (store : RecordStore A)
    (action : Action) : Option (RecordStore A) :=
  (store.perform P clock options action).map Prod.fst

/-- The records that have been published, by either path. -/
def Published (store : RecordStore A) (record : StoredRecord) : Prop :=
  (∃ recordHash, store.byHash.get? recordHash = some record) ∨
    ∃ recordHash, store.chunked.completed.get? recordHash = some record

/-- The events of a stored record, wherever they are kept. -/
def recordEvents (store : RecordStore A) (record : StoredRecord) : List Json :=
  match record.eventStorage with
  | .inline => record.events
  | .chunks => untile (segments Chunk.events (store.chunked.recordChunks record))

end RecordStore

end Pmbah.Store
