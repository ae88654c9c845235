import Pmbah.Format.Verify
import Pmbah.Library.OrderedMap

/-!
# Data of the record store

A record's hash is read off its manifest.  Session ids, token hashes, short
signatures and times are strings that the store compares and never takes apart.
-/

namespace Pmbah.Store

open Js Format Library

/-- A manifest whose `record_hash` has the form that its type declares; like every
parsed object, it has each key once. -/
structure RecordManifest where
  json : Json
  wellFormed : json.wellFormed = true
  recordHash : B3Hash
  recorded : Json.text? (json.field (js "record_hash")) = some recordHash.text

namespace RecordManifest

def eventCount (manifest : RecordManifest) : Nat := manifest.json.natAt (js "event_count")

def sessionId (manifest : RecordManifest) : JsString := manifest.json.textAt (js "session_id")

def formatVersion (manifest : RecordManifest) : FormatVersion := manifestVersion manifest.json

def durationMs (manifest : RecordManifest) : Nat := manifest.json.natAt (js "duration_ms")

def ingestedServerT (manifest : RecordManifest) : Option JsString :=
  Json.text? (manifest.json.field (js "ingested_server_t"))

end RecordManifest

structure WritingRecord where
  manifest : RecordManifest
  events : List Json

/-- `partly` is the source's `"partial"`. -/
inductive ObservationState where
  | observed
  | partly
  | unobserved
  | notRequested
  deriving DecidableEq, Repr

structure ObservationCommitment where
  checkpointId : JsString
  eventCount : Nat
  chainTip : B3Hash
  observedAt : JsString
  deriving DecidableEq

structure RecordObservation where
  state : ObservationState
  observedSessionId : Option JsString
  commitments : List ObservationCommitment
  checkpointCount : Nat
  firstObservedAt : Option JsString
  lastObservedAt : Option JsString
  serverObservedSpanMs : Option Int

structure ObservedSession where
  observedSessionId : JsString
  tokenHash : JsString
  finalizedRecordHash : Option B3Hash
  observationState : Option ObservationState
  createdAt : JsString
  finalizedAt : Option JsString
  checkpoints : List ObservationCommitment

inductive EventStorage where
  | inline
  | chunks
  deriving DecidableEq

structure StoredRecord where
  manifest : RecordManifest
  events : List Json
  eventStorage : EventStorage
  shortSignature : JsString
  stats : Json
  signals : List Json
  observation : RecordObservation
  createdAt : JsString

inductive ObservedTokenCode where
  | observedTokenRequired
  | invalidObservedToken
  | observedSessionNotFound
  deriving DecidableEq

inductive CheckpointConflictCode where
  | checkpointEventCountNotMonotonic
  | checkpointChainTipConflict
  | observedSessionFinalized
  | observationMismatch
  deriving DecidableEq

inductive StoreError where
  | duplicateRecordConflict (message : JsString)
  | observedSessionToken (code : ObservedTokenCode) (message : JsString)
  | observedCheckpointConflict (code : CheckpointConflictCode) (message : JsString)
  | chunkedUpload (status : Nat) (code message : JsString)
  | thrown (error : JsError)

/-- What the store takes from its host to order and measure times. -/
structure Clock where
  /-- `left.localeCompare(right)`. -/
  localeCompare : JsString → JsString → Int
  /-- `Date.parse`, of times that are dates. -/
  parse : JsString → Int

/-- A string that is given and not empty. -/
def given (value : Option JsString) : Option JsString := value.filter fun text => !text.isEmpty

theorem given_eq_some {value : Option JsString} {text : JsString} :
    given value = some text ↔ value = some text ∧ text ≠ [] := by
  cases value with
  | none => simp [given]
  | some other =>
      by_cases hempty : other = []
      · simp [given, hempty]
      · rw [given, Option.filter_some, if_pos (by simpa using hempty)]
        constructor
        · intro h
          exact ⟨h, by cases h; exact hempty⟩
        · exact And.left

end Pmbah.Store
