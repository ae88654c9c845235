import Pmbah.Format.Validate

/-!
# Session data

What a producer keeps for a document while it is written.  A JavaScript object
that several places hold is told apart from its copies by `objectId`.
-/

namespace Pmbah.Producer

open Js Format

inductive IdentityCertainty where
  | fresh
  | resumed
  | degraded
  | collision
  deriving DecidableEq, Repr

inductive SessionState where
  | active
  | signing
  | uploading
  | uploaded
  | failedUpload
  deriving DecidableEq, Repr

structure FieldOrigin where
  origin : JsString
  path : JsString
  tabId : Int
  frameId : Int
  deriving DecidableEq

inductive TagName where
  | textarea
  | input
  | contentEditable
  deriving DecidableEq, Repr

structure FieldDescriptor where
  tagName : TagName
  fieldKind : JsString
  name : Option JsString
  id : Option JsString
  ariaLabel : Option JsString
  nearestFormId : Option JsString
  domSignature : JsString
  indexAmongSimilar : Int
  deriving DecidableEq

/-- An edit as a producer reports it. -/
structure PendingMutation where
  op : Operation
  pos : Option JsNumber
  delLen : Option JsNumber
  insLen : Option JsNumber
  source : Source
  deriving DecidableEq

structure IngestRecordResponse where
  recordHash : JsString
  shortSignature : JsString
  url : JsString
  created : Bool
  deriving DecidableEq

structure ProducerIdentity where
  id : JsString
  version : JsString
  capabilities : List Capability
  deriving DecidableEq

inductive ObservationLocalState where
  | disabled
  | unknown
  | known
  | partially
  | diverged
  deriving DecidableEq, Repr

structure ObservedCommitment where
  checkpointId : JsString
  eventCount : Nat
  chainTip : B3Hash
  observedAt : JsString
  deriving DecidableEq

structure ObservationFailure where
  reason : JsString
  statusOrKind : JsString
  deriving DecidableEq

structure SessionObservation where
  state : ObservationLocalState
  commitments : List ObservedCommitment
  observedSessionId : Option JsString
  lastObservedToken : Option JsString
  lastCommittedEventCount : Nat
  lastAttemptAtWallMs : Option Int
  lastFailure : Option ObservationFailure
  inFlight : Bool
  queued : Bool
  nextBackoffMs : Int
  deriving DecidableEq

structure SessionRecord where
  /-- Which JavaScript object this is. -/
  objectId : Nat
  pendingObservationGap : Bool
  sessionId : JsString
  formatVersion : FormatVersion
  baseWallMs : Int
  lastEditWallMs : Int
  origin : FieldOrigin
  descriptor : FieldDescriptor
  identityCertainty : IdentityCertainty
  producer : ProducerIdentity
  captureSurface : JsString
  events : List BufferMutation
  /-- Journal-backed sessions keep history in storage, never in this metadata. -/
  eventCount : Option Nat
  lastEventT : Option Nat
  journaled : Bool
  uploadId : Option JsString
  lastEventChainTip : Option B3Hash
  state : SessionState
  uploadedResponse : Option IngestRecordResponse
  continuationAnchor : Bool
  lastFailureReason : Option JsString
  signedTextBinding : Option Json
  /-- Elapsed finish time, frozen once so retries cannot extend the signed record. -/
  signedDurationMs : Option Int
  parentRecord : Option JsString
  observation : SessionObservation

def sessionEventCount (session : SessionRecord) : Nat :=
  session.eventCount.getD session.events.length

def sessionLastEventTime (session : SessionRecord) : Nat :=
  session.lastEventT.getD ((session.events.getLast?.map BufferMutation.t).getD 0)

def emptyObservation (checkpointWired : Bool) : SessionObservation where
  state := if checkpointWired then .unknown else .disabled
  commitments := []
  observedSessionId := none
  lastObservedToken := none
  lastCommittedEventCount := 0
  lastAttemptAtWallMs := none
  lastFailure := none
  inFlight := false
  queued := false
  nextBackoffMs := 0

/-! ## Finding the session of a field -/

def isExactDescriptorMatch (left right : FieldDescriptor) : Bool :=
  left.tagName == right.tagName && left.fieldKind == right.fieldKind &&
    left.name == right.name && left.id == right.id && left.ariaLabel == right.ariaLabel &&
    left.nearestFormId == right.nearestFormId && left.domSignature == right.domSignature &&
    left.indexAmongSimilar == right.indexAmongSimilar

/-- Both are present and equal. -/
def sameAnchor (left right : Option JsString) : Bool := left.isSome && left == right

def isPartialDescriptorMatch (left right : FieldDescriptor) : Bool :=
  if left.tagName != right.tagName || left.fieldKind != right.fieldKind then false
  else
    let anchors := [sameAnchor left.name right.name, sameAnchor left.id right.id,
      sameAnchor left.ariaLabel right.ariaLabel,
      sameAnchor left.nearestFormId right.nearestFormId,
      left.indexAmongSimilar == right.indexAmongSimilar].countP id
    2 ≤ anchors && left.domSignature != right.domSignature

/-- The session a field resumes, or how certain a new one is. -/
inductive IdentityResolution where
  | existing (sessionId : JsString) (certainty : IdentityCertainty)
  | new (certainty : IdentityCertainty)

def sameLocation (origin : FieldOrigin) (descriptor : FieldDescriptor)
    (record : SessionRecord) : Bool :=
  record.origin.origin == origin.origin && record.origin.path == origin.path &&
    record.descriptor.fieldKind == descriptor.fieldKind && record.state != .uploaded

def resolveSession (origin : FieldOrigin) (descriptor : FieldDescriptor)
    (existing : List SessionRecord) : IdentityResolution :=
  let located := existing.filter (sameLocation origin descriptor)
  match located.find? fun record => isExactDescriptorMatch record.descriptor descriptor with
  | some exact =>
      let elsewhere := located.any fun record =>
        record.objectId != exact.objectId &&
          isExactDescriptorMatch record.descriptor descriptor && record.state == .active
      .existing exact.sessionId (if elsewhere then .collision else .resumed)
  | none =>
      match located.find? fun record =>
          isPartialDescriptorMatch record.descriptor descriptor with
      | some _ => .new .degraded
      | none => .new .fresh

/-! ## Expiry -/

/-- `sweepExpired` removes the record. -/
def expired (now ttl grace : Int) (record : SessionRecord) : Bool :=
  (record.state == .uploaded && grace ≤ now - record.lastEditWallMs) ||
    ttl ≤ now - record.lastEditWallMs

end Pmbah.Producer
