import Pmbah.Format.Verify
import Pmbah.Library.OrderedMap
import Pmbah.Producer.Timeline

/-!
# The session registry

The synchronous methods of `SessionRegistry`.  A method takes its clock
readings and the identifiers it would draw, and returns the registry together
with its result, since a method that throws may already have marked a session
dirty.  The asynchronous calls that a method starts are kept in `loops`.
-/

namespace Pmbah.Producer

open Js Format Library

structure RegistryOptions where
  journal : Bool
  checkpoint : Bool
  everyNEvents : Int
  everyMs : Int
  backoffInitialMs : Int
  backoffMaxMs : Int
  commitmentRetention : Nat
  signedFinishTime : Bool
  producer : ProducerIdentity

/-- The default cadence, over a journal, with sealed finish times. -/
def RegistryOptions.standard (checkpoint : Bool) (producer : ProducerIdentity) :
    RegistryOptions where
  journal := true
  checkpoint := checkpoint
  everyNEvents := 50
  everyMs := 60000
  backoffInitialMs := 1000
  backoffMaxMs := 60000
  commitmentRetention := 32
  signedFinishTime := true
  producer := producer

structure CheckpointRequest where
  observedSessionId : JsString
  eventCount : Nat
  chainTip : B3Hash
  token : Option JsString
  deriving DecidableEq

structure CheckpointResponse where
  observedSessionId : JsString
  token : JsString
  checkpointId : JsString
  eventCount : Nat
  chainTip : B3Hash
  serverT : JsString
  created : Bool
  deriving DecidableEq

inductive CheckpointFailureKind where
  | unavailable
  | conflict
  | rateLimited
  | clientBug
  | transient
  deriving DecidableEq, Repr

inductive CheckpointResult where
  | ok (response : CheckpointResponse)
  | failed (kind : CheckpointFailureKind) (status : Nat) (reason : JsString)
  deriving DecidableEq

/-- Where an activation of `#runCheckpointLoop` waits. -/
inductive LoopStage where
  | posting (request : CheckpointRequest)
  /-- Waiting for a save; `again` is the record object of the next round. -/
  | saving (promise : Nat) (again : Option Nat)
  /-- Over, its `finally` still to run. -/
  | ended
  deriving DecidableEq

structure CheckpointLoop where
  sessionId : JsString
  /-- The record object the loop was started for. -/
  kicked : Nat
  stage : LoopStage
  deriving DecidableEq

structure Registry where
  sessions : OrderedMap JsString SessionRecord
  pendingEvents : OrderedMap JsString (List BufferMutation)
  dirty : OrderedSet JsString
  deleted : OrderedSet JsString
  clearEvents : OrderedSet JsString
  flushing : OrderedSet JsString
  inFlight : OrderedMap JsString Nat
  /-- The activations of `#runCheckpointLoop`, by promise. -/
  loops : OrderedMap Nat CheckpointLoop
  /-- Names the next object or promise. -/
  nextId : Nat

namespace Registry

def empty : Registry where
  sessions := ∅
  pendingEvents := ∅
  dirty := ∅
  deleted := ∅
  clearEvents := ∅
  flushing := ∅
  inFlight := ∅
  loops := ∅
  nextId := 0

def get (registry : Registry) (sessionId : JsString) : Option SessionRecord :=
  registry.sessions.get? sessionId

def pending (registry : Registry) (sessionId : JsString) : List BufferMutation :=
  (registry.pendingEvents.get? sessionId).getD []

/-- Writes the record object that the registry holds under the id. -/
def put (registry : Registry) (sessionId : JsString) (record : SessionRecord) : Registry :=
  { registry with sessions := registry.sessions.set sessionId record }

def touch (registry : Registry) (sessionId : JsString) : Registry :=
  { registry with dirty := registry.dirty.add sessionId }

end Registry

/-! ## Guards -/

def SessionState.text : SessionState → JsString
  | .active => js "active"
  | .signing => js "signing"
  | .uploading => js "uploading"
  | .uploaded => js "uploaded"
  | .failedUpload => js "failed_upload"

def unknownSessionError (sessionId : JsString) : JsError :=
  .error (js "unknown session_id: " ++ sessionId)

def sessionFrozenError (sessionId : JsString) (state : SessionState) : JsError :=
  .error (js "session " ++ sessionId ++ js " cannot accept mutations while in state " ++
    state.text)

/-- A known session is marked dirty even when its state then rejects the call. -/
def requireInState (registry : Registry) (sessionId : JsString) (allowed : List SessionState) :
    Registry × Except JsError SessionRecord :=
  match registry.get sessionId with
  | none => (registry, .error (unknownSessionError sessionId))
  | some record =>
      if allowed.contains record.state then (registry.touch sessionId, .ok record)
      else (registry.touch sessionId, .error (sessionFrozenError sessionId record.state))

def requireMutable (registry : Registry) (sessionId : JsString) :
    Registry × Except JsError SessionRecord :=
  requireInState registry sessionId [.active]

def captureTimeAllowed (value : Option Int) : Bool :=
  match value with
  | none => true
  | some ms => 0 ≤ ms && ms ≤ maxTimeFieldValue

def captureTimeError : JsError :=
  .rangeError (js "capture wall time must be a nonnegative safe integer")

/-! ## Server observation -/

def recomputeObservationState (options : RegistryOptions) (record : SessionRecord) :
    SessionRecord :=
  if !options.checkpoint || record.observation.state == .diverged then record
  else
    { record with
      observation :=
        { record.observation with
          state :=
            if record.observation.lastCommittedEventCount = 0 then .unknown
            else if sessionEventCount record ≤ record.observation.lastCommittedEventCount then
              .known
            else .partially } }

/-- The interval still to pass before a failed attempt may be repeated. -/
def backingOff (observation : SessionObservation) (now : Int) : Bool :=
  match observation.lastAttemptAtWallMs with
  | none => false
  | some attempt =>
      0 < observation.nextBackoffMs && now - attempt < observation.nextBackoffMs

def shouldTrigger (options : RegistryOptions) (record : SessionRecord) (now : Int) : Bool :=
  let observation := record.observation
  let delta : Int := sessionEventCount record - observation.lastCommittedEventCount
  if delta ≤ 0 then false
  else if backingOff observation now then false
  else if observation.queued then true
  else if observation.lastCommittedEventCount = 0 then true
  else if options.everyNEvents ≤ delta then true
  else match observation.lastAttemptAtWallMs with
    | none => true
    | some attempt => options.everyMs ≤ now - attempt

/-- One round of `#runCheckpointLoop` up to its first wait. -/
def postRound (registry : Registry) (promise : Nat) (loop : CheckpointLoop) (uuid : JsString) :
    Registry :=
  let waits (registry : Registry) (stage : LoopStage) : Registry :=
    { registry with loops := registry.loops.set promise { loop with stage } }
  match registry.get loop.sessionId with
  | none => waits registry .ended
  | some record =>
      match record.lastEventChainTip with
      | none =>
          waits (registry.put loop.sessionId
            { record with observation := { record.observation with inFlight := false } }) .ended
      | some chainTip =>
          waits registry (.posting
            { observedSessionId := record.observation.observedSessionId.getD uuid
              eventCount := sessionEventCount record
              chainTip
              token := record.observation.lastObservedToken })

def kickCheckpoint (registry : Registry) (sessionId : JsString) (record : SessionRecord)
    (now : Int) (uuid : JsString) : Registry :=
  let kicked := (registry.touch sessionId).put sessionId
    { record with
      observation :=
        { record.observation with
          inFlight := true, queued := false, lastAttemptAtWallMs := some now } }
  let promise := kicked.nextId
  let started := postRound { kicked with nextId := promise + 1 } promise
    { sessionId, kicked := record.objectId, stage := .ended } uuid
  { started with inFlight := started.inFlight.set sessionId promise }

def maybeTriggerCheckpoint (options : RegistryOptions) (registry : Registry)
    (sessionId : JsString) (record : SessionRecord) (clock : Nat → Int) (uuid : JsString) :
    Registry :=
  if !options.checkpoint || record.observation.state == .diverged then registry
  else if !shouldTrigger options record (clock 1) then registry
  else if record.observation.inFlight then
    registry.put sessionId
      { record with observation := { record.observation with queued := true } }
  else kickCheckpoint registry sessionId record (clock 2) uuid

/-! ## Creating and finding sessions -/

structure FindOptions where
  fresh : Bool
  initialContentUnknown : Bool
  startedAtWallMs : Option Int

def newRecord (options : RegistryOptions) (objectId : Nat) (sessionId : JsString)
    (origin : FieldOrigin) (descriptor : FieldDescriptor) (captureSurface : JsString)
    (certainty : IdentityCertainty) (baseWallMs lastEditWallMs : Int) (gap : Bool)
    (parentRecord : Option JsString) : SessionRecord where
  objectId := objectId
  pendingObservationGap := gap
  sessionId := sessionId
  formatVersion := if options.signedFinishTime then .v0_3 else .v0_2
  baseWallMs := baseWallMs
  lastEditWallMs := lastEditWallMs
  origin := origin
  descriptor := descriptor
  identityCertainty := certainty
  producer := options.producer
  captureSurface := captureSurface
  events := []
  eventCount := if options.journal then some 0 else none
  lastEventT := if options.journal then some 0 else none
  journaled := options.journal
  uploadId := none
  lastEventChainTip := none
  state := .active
  uploadedResponse := none
  continuationAnchor := false
  lastFailureReason := none
  signedTextBinding := none
  signedDurationMs := none
  parentRecord := parentRecord
  observation := emptyObservation options.checkpoint

/-- Adds a record that no other place holds. -/
def insertNew (registry : Registry) (record : SessionRecord) : Registry :=
  { (registry.put record.sessionId record).touch record.sessionId with
    nextId := registry.nextId + 1 }

def findOrCreate (options : RegistryOptions) (registry : Registry) (origin : FieldOrigin)
    (descriptor : FieldDescriptor) (captureSurface : JsString) (find : FindOptions)
    (clock : Nat → Int) (uuid : JsString) : Registry × Except JsError SessionRecord :=
  if !captureTimeAllowed find.startedAtWallMs then (registry, .error captureTimeError)
  else
    let create (sessionId : JsString) (certainty : IdentityCertainty) :=
      let now := find.startedAtWallMs.getD (clock 0)
      let record := newRecord options registry.nextId sessionId origin descriptor captureSurface
        certainty now now find.initialContentUnknown none
      (insertNew registry record, .ok record)
    match resolveSession origin descriptor (if find.fresh then [] else registry.sessions.values)
    with
    | .new certainty => create uuid certainty
    | .existing sessionId certainty =>
        match registry.get sessionId with
        | none => create sessionId certainty
        | some record =>
            let found :=
              { record with
                identityCertainty := certainty
                descriptor := descriptor
                origin := origin
                lastEditWallMs := clock 0 }
            ((registry.put sessionId found).touch sessionId, .ok found)

structure Continuity where
  eventCount : Nat
  chainTip : Option B3Hash
  deriving DecidableEq

structure ResumeOptions where
  fieldIsEmpty : Bool
  continuity : Option Continuity

/-- The content is claimed to be what it was after the recorded tip. -/
def continuous (record : SessionRecord) (resume : ResumeOptions) : Bool :=
  match resume.continuity with
  | none => false
  | some continuity =>
      continuity.eventCount == sessionEventCount record &&
        continuity.chainTip == record.lastEventChainTip

def resume (registry : Registry) (sessionId : JsString) (origin : FieldOrigin)
    (descriptor : FieldDescriptor) (resumeOptions : ResumeOptions) :
    Registry × Except JsError SessionRecord :=
  match requireMutable registry sessionId with
  | (registry, .error thrown) => (registry, .error thrown)
  | (registry, .ok record) =>
      let resumed :=
        { record with
          origin := origin
          descriptor := descriptor
          identityCertainty := .resumed
          pendingObservationGap := !continuous record resumeOptions &&
            (0 < sessionEventCount record || !resumeOptions.fieldIsEmpty) }
      (registry.put sessionId resumed, .ok resumed)

/-! ## Recording edits -/

def journalFullError : JsError :=
  .error (js "Local journal is not keeping up. Capture stopped before accepting more events; " ++
    js "save the pending edits before continuing.")

/-- The event and the tip that an edit gives, before anything is recorded. -/
def nextEvent (P : Platform) (options : RegistryOptions) (queue : List BufferMutation)
    (record : SessionRecord) (mutation : PendingMutation) (now : Int) :
    Except JsError (BufferMutation × B3Hash) :=
  let observed := if record.pendingObservationGap then { mutation with pos := none } else mutation
  if options.journal && 4096 ≤ queue.length then
    .error journalFullError
  else
    match buildNextMutation P observed (sessionEventCount record) (sessionLastEventTime record)
        now record.baseWallMs with
    | .error thrown => .error thrown
    | .ok event =>
        (advanceChain P record.lastEventChainTip event record.sessionId
          record.formatVersion).map fun chainTip => (event, chainTip)

/-- The record after an event has been accepted. -/
def recordEvent (options : RegistryOptions) (record : SessionRecord) (event : BufferMutation)
    (chainTip : B3Hash) (now : Int) : SessionRecord :=
  recomputeObservationState options
    { record with
      eventCount := if options.journal then some (event.seq + 1) else record.eventCount
      lastEventT := if options.journal then some event.t else record.lastEventT
      events := if options.journal then record.events else record.events ++ [event]
      lastEventChainTip := some chainTip
      pendingObservationGap := false
      lastEditWallMs := max record.lastEditWallMs now }

/-- Queues an accepted event for the journal and writes the record. -/
def acceptEvent (options : RegistryOptions) (registry : Registry) (sessionId : JsString)
    (record : SessionRecord) (event : BufferMutation) (chainTip : B3Hash) (now : Int) :
    Registry :=
  let queued :=
    if options.journal then
      { registry with
        pendingEvents :=
          registry.pendingEvents.set sessionId (registry.pending sessionId ++ [event]) }
    else registry
  queued.put sessionId (recordEvent options record event chainTip now)

def appendMutation (P : Platform) (options : RegistryOptions) (registry : Registry)
    (sessionId : JsString) (mutation : PendingMutation) (capturedAtWallMs : Option Int)
    (clock : Nat → Int) (uuid : JsString) : Registry × Except JsError BufferMutation :=
  if !captureTimeAllowed capturedAtWallMs then (registry, .error captureTimeError)
  else
    match requireMutable registry sessionId with
    | (registry, .error thrown) => (registry, .error thrown)
    | (registry, .ok record) =>
        let now := capturedAtWallMs.getD (clock 0)
        match nextEvent P options (registry.pending sessionId) record mutation now with
        | .error thrown => (registry, .error thrown)
        | .ok (event, chainTip) =>
            (maybeTriggerCheckpoint options
              (acceptEvent options registry sessionId record event chainTip now) sessionId
              (recordEvent options record event chainTip now) clock uuid, .ok event)

/-- One edit of unknown position and size. -/
def unrecordedChange : PendingMutation where
  op := .replace
  pos := none
  delLen := none
  insLen := none
  source := .unknown

def recordUnrecordedChange (P : Platform) (options : RegistryOptions) (registry : Registry)
    (sessionId : JsString) (clock : Nat → Int) (uuid : JsString) :
    Registry × Except JsError BufferMutation :=
  match requireMutable registry sessionId with
  | (registry, .error thrown) => (registry, .error thrown)
  | (registry, .ok _) =>
      appendMutation P options registry sessionId unrecordedChange none clock uuid

end Pmbah.Producer
