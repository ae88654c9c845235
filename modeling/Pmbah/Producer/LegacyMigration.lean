import Pmbah.Format.HashChain
import Pmbah.Producer.Journal
import Pmbah.Library.Transition

/-!
# Migration of a legacy snapshot

The journal replaces a single JSON snapshot.  The first `read` of the database
imports that snapshot session by session, each in many transactions, verifies what
it has stored, and sets a marker; only then is the snapshot removed.
-/

namespace Pmbah.Producer

open Js Format Library

/-- A session of the snapshot: its events as they were parsed, and everything else. -/
structure LegacySession where
  record : SessionRecord
  events : List Json

namespace LegacySession

/-- `Number.isSafeInteger(value) && value >= 0`. -/
def isSafeTime (value : Int) : Bool := 0 ≤ value && value ≤ maxSafeInteger

/-- `session.events.at(-1)?.t ?? 0`. -/
def lastTime (session : LegacySession) : Json :=
  match session.events.getLast?.bind fun event => event.field (js "t") with
  | none => Json.ofNat 0
  | some .null => Json.ofNat 0
  | some time => time

def metadataValid (session : LegacySession) : Bool :=
  isUuid session.record.sessionId && isSafeTime session.record.baseWallMs &&
    isSafeTime session.record.lastEditWallMs &&
    session.record.eventCount.all (fun count => count == session.events.length) &&
    session.record.lastEventT.all fun t =>
      Json.number? (some session.lastTime) == some (.ofNat t)

/-- The events as rows of the journal. -/
def rows (session : LegacySession) : List BufferMutation := session.events.map readEvent

def advanceTip (P : Platform) (record : SessionRecord) (tip : Option B3Hash) (event : Json) :
    Except JsError (Option B3Hash) :=
  (advanceEventHash P tip event record.sessionId record.formatVersion).map some

/-- The checks of one session before it is imported, which give its metadata. -/
def prepare (P : Platform) (session : LegacySession) : Except JsError SessionRecord :=
  match validateEventLog P session.events with
  | .error thrown => .error thrown
  | .ok (first :: _) => .error (.error (js "Legacy session cannot be migrated: " ++ first))
  | .ok [] =>
      match session.events.foldlM (advanceTip P session.record) none with
      | .error thrown => .error thrown
      | .ok tip =>
          if session.record.lastEventChainTip.isSome &&
              session.record.lastEventChainTip != tip then
            .error (.error
              (js "Legacy event chain differs from its saved tip; original storage preserved"))
          else
            .ok { session.record with
              events := []
              journaled := true
              eventCount := some session.events.length
              lastEventT := some ((session.rows.getLast?.map BufferMutation.t).getD 0)
              lastEventChainTip := tip }

end LegacySession

/-- The checks of the whole snapshot, made before anything is imported. -/
def checkLegacy : List LegacySession → List JsString → Except JsError Unit
  | [], _ => .ok ()
  | session :: rest, ids =>
      if !session.metadataValid then
        .error (.error (js "Invalid legacy session metadata; original storage preserved"))
      else if ids.contains session.record.sessionId then
        .error (.error (js "Duplicate legacy session identity; original storage preserved"))
      else checkLegacy rest (ids ++ [session.record.sessionId])

/-- What the import of one session waits for. -/
inductive ImportStage where
  | clearing
  | appending (start : Nat)
  | verifying (start : Nat) (verifiedTip : Option B3Hash)
  | putting
  deriving DecidableEq

/-- The call of `read` in progress, if there is one. -/
inductive MigrationAttempt where
  | resting
  | failed (thrown : JsError)
  | importing (session : LegacySession) (metadata : SessionRecord) (stage : ImportStage)
      (rest : List LegacySession)
  | marking
  | removing

/-- The storage, and the process that migrates to it. -/
structure Migration where
  store : JournalStore
  migrated : Bool
  legacy : List LegacySession
  attempt : MigrationAttempt

namespace Migration

def importPage : Nat := 512

/-- The head of the sessions that are left. -/
def importNext (P : Platform) : List LegacySession → MigrationAttempt
  | [] => .marking
  | session :: rest =>
      match session.prepare P with
      | .error thrown => .failed thrown
      | .ok metadata => .importing session metadata .clearing rest

def verifyFrom (session : LegacySession) (metadata : SessionRecord) (rest : List LegacySession)
    (start : Nat) (verifiedTip : Option B3Hash) : MigrationAttempt :=
  if start < session.events.length then
    .importing session metadata (.verifying start verifiedTip) rest
  else if verifiedTip != metadata.lastEventChainTip then
    .failed (.error (js "Migration verification failed; original storage preserved"))
  else .importing session metadata .putting rest

def appendFrom (session : LegacySession) (metadata : SessionRecord) (rest : List LegacySession)
    (start : Nat) : MigrationAttempt :=
  if start < session.events.length then .importing session metadata (.appending start) rest
  else verifyFrom session metadata rest 0 none

/-- The page that was read enters the chain that is compared with the snapshot's. -/
def verifyPage (P : Platform) (session : LegacySession) (metadata : SessionRecord)
    (rest : List LegacySession) (start : Nat) (verifiedTip : Option B3Hash)
    (page : List BufferMutation) : MigrationAttempt :=
  if page.length != min importPage (session.events.length - start) then
    .failed (.error (js "Migration event page is incomplete; original storage preserved"))
  else
    match (page.map BufferMutation.toJson).foldlM
        (LegacySession.advanceTip P session.record) verifiedTip with
    | .error thrown => .failed thrown
    | .ok tip => verifyFrom session metadata rest (start + importPage) tip

/-- A transaction of the import: when it aborts, the attempt ends. -/
def transact (state : Migration) (batch : JournalCommit) (next : MigrationAttempt) :
    Migration :=
  match state.store.commit batch with
  | none => { state with attempt := .failed (.error (js "IndexedDB transaction aborted")) }
  | some store => { state with store, attempt := next }

/-- The operation that the attempt waits for succeeds. -/
def advance (P : Platform) (state : Migration) : Option Migration :=
  match state.attempt with
  | .resting => none
  | .failed _ => none
  | .importing session metadata .clearing rest =>
      some (state.transact ⟨[], [], [session.record.sessionId], []⟩
        (appendFrom session metadata rest 0))
  | .importing session metadata (.appending start) rest =>
      some (state.transact
        ⟨[], [⟨session.record.sessionId, (session.rows.drop start).take importPage⟩], [], []⟩
        (appendFrom session metadata rest (start + importPage)))
  | .importing session metadata (.verifying start verifiedTip) rest =>
      some { state with
        attempt := verifyPage P session metadata rest start verifiedTip
          (state.store.readEvents session.record.sessionId start importPage) }
  | .importing _ metadata .putting rest =>
      some (state.transact ⟨[metadata], [], [], []⟩ (importNext P rest))
  | .marking => some { state with migrated := true, attempt := .removing }
  | .removing => some { state with legacy := [], attempt := .resting }

inductive Action where
  /-- `read` is called, and the snapshot can be read. -/
  | read
  | advance
  /-- The operation fails, or the snapshot cannot be read. -/
  | fail (thrown : JsError)
  /-- The process ends. -/
  | crash
  /-- A commit of the registry, which has loaded its sessions. -/
  | commit (batch : JournalCommit)

def step (P : Platform) (state : Migration) : Action → Option Migration
  | .read =>
      match state.attempt with
      | .resting | .failed _ =>
          if state.migrated then some { state with attempt := .resting }
          else
            match checkLegacy state.legacy [] with
            | .error thrown => some { state with attempt := .failed thrown }
            | .ok () => some { state with attempt := importNext P state.legacy }
      | _ => none
  | .advance => state.advance P
  | .fail thrown =>
      match state.attempt with
      | .removing => some { state with attempt := .resting }
      | _ => some { state with attempt := .failed thrown }
  | .crash => some { state with attempt := .resting }
  | .commit batch =>
      match state.attempt with
      | .resting =>
          if state.migrated then
            some { state with store := (state.store.commit batch).getD state.store }
          else none
      | _ => none

/-- A database and the snapshot it is to replace. -/
def start (store : JournalStore) (legacy : List LegacySession) : Migration :=
  ⟨store, false, legacy, .resting⟩

end Migration

end Pmbah.Producer
