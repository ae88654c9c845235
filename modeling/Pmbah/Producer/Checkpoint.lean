import Pmbah.Producer.Sign

/-!
# Checkpoints in flight

What `#runCheckpointLoop` does when a checkpoint is answered and when a save
ends, and the observation that `flushObservation` completes before signing.
-/

namespace Pmbah.Producer

open Js Format Library

/-! ## Answers -/

/-- The stored order is by event count; a repeated count is written in place. -/
def insertCommitment (commitments : List ObservedCommitment) (commitment : ObservedCommitment) :
    List ObservedCommitment :=
  if commitments.any fun entry => entry.eventCount == commitment.eventCount then
    commitments.map fun entry =>
      if entry.eventCount = commitment.eventCount then commitment else entry
  else
    (commitments ++ [commitment]).mergeSort fun left right => left.eventCount ≤ right.eventCount

/-- The oldest commitment and the newest ones are kept. -/
def evictOlderCommitments (retention : Nat) (commitments : List ObservedCommitment) :
    List ObservedCommitment :=
  if commitments.length ≤ retention then commitments
  else commitments.take 1 ++ commitments.drop (commitments.length - (retention - 1))

def mergeCommitment (options : RegistryOptions) (observation : SessionObservation)
    (commitment : ObservedCommitment) : SessionObservation :=
  { observation with
    commitments := evictOlderCommitments options.commitmentRetention
      (insertCommitment observation.commitments commitment) }

/-- Known when the server has committed every event, and otherwise partial. -/
def coverage (committed eventCount : Nat) : ObservationLocalState :=
  if eventCount ≤ committed then .known else .partially

def acceptCheckpoint (options : RegistryOptions) (eventCount : Nat)
    (observation : SessionObservation) (response : CheckpointResponse) : SessionObservation :=
  let committed := max observation.lastCommittedEventCount response.eventCount
  mergeCommitment options
    { observation with
      observedSessionId := some response.observedSessionId
      lastObservedToken := some response.token
      lastCommittedEventCount := committed
      lastFailure := none
      nextBackoffMs := 0
      state := coverage committed eventCount }
    { checkpointId := response.checkpointId
      eventCount := response.eventCount
      chainTip := response.chainTip
      observedAt := response.serverT }

/-- The initial interval on a first failure, then its double up to the bound. -/
def nextBackoff (options : RegistryOptions) (backoffMs : Int) : Int :=
  if backoffMs = 0 then options.backoffInitialMs else min options.backoffMaxMs (backoffMs * 2)

def refuseCheckpoint (options : RegistryOptions) (eventCount : Nat)
    (observation : SessionObservation) (kind : CheckpointFailureKind) (status : Nat)
    (reason : JsString) : SessionObservation :=
  let failed := { observation with lastFailure := some ⟨reason, js (toString status)⟩ }
  match kind with
  | .unavailable => resetObservation failed
  | .conflict | .clientBug => { failed with state := .diverged, nextBackoffMs := 0 }
  | .transient | .rateLimited =>
      { failed with
        nextBackoffMs := nextBackoff options failed.nextBackoffMs
        state :=
          if failed.lastCommittedEventCount = 0 then .unknown
          else if failed.lastCommittedEventCount < eventCount then .partially
          else failed.state }

def applyCheckpointResult (options : RegistryOptions) (record : SessionRecord)
    (result : CheckpointResult) : SessionRecord :=
  { record with
    observation :=
      match result with
      | .ok response =>
          acceptCheckpoint options (sessionEventCount record) record.observation response
      | .failed kind status reason =>
          refuseCheckpoint options (sessionEventCount record) record.observation kind status
            reason }

def CheckpointResult.isOk : CheckpointResult → Bool
  | .ok _ => true
  | .failed .. => false

/-! ## Rounds of a loop -/

def setStage (registry : Registry) (promise : Nat) (loop : CheckpointLoop) (stage : LoopStage) :
    Registry :=
  { registry with loops := registry.loops.set promise { loop with stage } }

/-- More edits were coalesced while the last request was under way. -/
def goesOn (registry : Registry) (sessionId : JsString) (record : SessionRecord) : Bool :=
  !decide (sessionId ∈ registry.flushing) && record.observation.queued &&
    0 < (sessionEventCount record : Int) - record.observation.lastCommittedEventCount

/-- A round after its answer, up to the save it waits for under the promise
`save`; nothing is saved for a session that has gone. -/
def checkpointAnswered (options : RegistryOptions) (registry : Registry) (promise : Nat)
    (loop : CheckpointLoop) (result : CheckpointResult) (save : Nat) : Registry × Bool :=
  match registry.get loop.sessionId with
  | none => (setStage registry promise loop .ended, false)
  | some liveRecord =>
      let touched := registry.touch loop.sessionId
      let applied := applyCheckpointResult options liveRecord result
      if result.isOk && goesOn registry loop.sessionId applied then
        (setStage (touched.put loop.sessionId applied) promise loop
          (.saving save (some applied.objectId)), true)
      else
        (setStage (touched.put loop.sessionId
            { applied with
              observation := { applied.observation with inFlight := false, queued := false } })
          promise loop (.saving save none), true)

/-- The next round starts on the object the last one wrote, if it is still kept. -/
def checkpointSaved (registry : Registry) (promise : Nat) (loop : CheckpointLoop)
    (again : Option Nat) (saved : Bool) (now : Int) (uuid : JsString) : Registry :=
  match again with
  | none => setStage registry promise loop .ended
  | some object =>
      if !saved then setStage registry promise loop .ended
      else
        match registry.get loop.sessionId with
        | none => postRound registry promise loop uuid
        | some record =>
            if record.objectId = object then
              postRound (registry.put loop.sessionId
                { record with
                  observation :=
                    { record.observation with
                      queued := false, lastAttemptAtWallMs := some now } }) promise loop uuid
            else postRound registry promise loop uuid

/-- Clears the ownership of a finished loop, without touching a newer one. -/
def loopFinished (registry : Registry) (promise : Nat) (loop : CheckpointLoop) : Registry :=
  let finished := { registry with loops := registry.loops.delete promise }
  if registry.inFlight.get? loop.sessionId = some promise then
    let released := { finished with inFlight := finished.inFlight.delete loop.sessionId }
    match registry.get loop.sessionId with
    | none => released
    | some record =>
        if record.objectId = loop.kicked ∧ record.observation.inFlight = true then
          (released.put loop.sessionId
            { record with observation := { record.observation with inFlight := false } }).touch
            loop.sessionId
        else released
  else finished

/-! ## Completing an observation -/

/-- A call of `flushObservation`, between two of its rounds. -/
structure ObservationFlush where
  sessionId : JsString
  round : Nat
  kicked : Bool
  /-- The activation that its `awaitObservationIdle` waits for. -/
  awaiting : Option Nat
  deriving DecidableEq

def startFlush (registry : Registry) (sessionId : JsString) : Registry :=
  { registry with flushing := registry.flushing.add sessionId }

def endFlush (registry : Registry) (sessionId : JsString) : Registry :=
  { registry with flushing := registry.flushing.delete sessionId }

/-- Waits for what is in flight for the session now. -/
def awaitObservationIdle (registry : Registry) (flush : ObservationFlush) : ObservationFlush :=
  { flush with awaiting := registry.inFlight.get? flush.sessionId }

/-- One round, up to its wait for the checkpoint in flight; `none` ends the call. -/
def flushRound (registry : Registry) (flush : ObservationFlush) (now : Int) (uuid : JsString) :
    Registry × Option ObservationFlush :=
  let ended := (endFlush registry flush.sessionId, none)
  if 2 ≤ flush.round then ended
  else
    match registry.get flush.sessionId with
    | none => ended
    | some record =>
        if record.observation.state = .diverged then ended
        else if flush.kicked && record.observation.lastFailure.isSome then ended
        else if record.observation.inFlight then
          (registry, some (awaitObservationIdle registry { flush with round := flush.round + 1 }))
        else if record.observation.lastCommittedEventCount = 0 then ended
        else if sessionEventCount record ≤ record.observation.lastCommittedEventCount then ended
        else
          let started := kickCheckpoint registry flush.sessionId
            { record with observation := { record.observation with nextBackoffMs := 0 } }
            now uuid
          (started, some (awaitObservationIdle started
            { flush with round := flush.round + 1, kicked := true }))

end Pmbah.Producer
