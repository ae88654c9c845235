import Pmbah.Emacs.SessionWriter
import Pmbah.Library.Transition

/-!
# The editor's queue

Captured events wait in memory until the worker acknowledges them.  A request goes
to the worker in frames, one for each credit, and is kept for an exact retry when
its outcome is uncertain.  Times are milliseconds since the session started, and a
tick counts the character modifications of the buffer.
-/

namespace Pmbah.Emacs

open Js Format Library

/-- The most captured events that may await durable storage. -/
def pendingEventLimit : Nat := 256

def maxSessionMs : Nat := 9007199254740991

/-- No buffer has more characters: memory ends long before sizes stop being exact. -/
def maxBufferSize : Nat := maxSafeInteger

/-- A request, and how much of its payload has been sent. -/
structure StorageRequest where
  id : Nat
  count : Nat
  offset : Nat
  eventCount : Nat
  byteLength : Nat
  payload : Json
  payloadLength : Nat

/-- The variables of a buffer that has a session and saves in the background.
`journalPending` is newest first. -/
structure Editor where
  sessionId : JsString
  statePath : JsString
  journalPath : JsString
  mode : Bool
  lastT : Nat
  nextSeq : Nat
  journalPending : List BufferMutation
  journalCount : Nat
  journalBytes : Nat
  pendingGap : Bool
  observedTick : Option Nat
  signing : Bool
  frozen : Bool
  saveFailure : Bool
  storageBackpressure : Bool
  live : Bool
  ready : Bool
  credit : Bool
  request : Option StorageRequest
  retry : Option StorageRequest
  dirty : Bool
  draining : Bool
  sequence : Nat

namespace Editor

/-! ## Capture -/

def elapsedMs (editor : Editor) (now : Int) : Nat := max editor.lastT now.toNat

def checkCaptureGap (editor : Editor) (tick : Nat) : Editor :=
  if editor.observedTick.any (· ≠ tick) then { editor with pendingGap := true } else editor

/-- The event of a change; its position is unknown after a gap. -/
def capturedEvent (editor : Editor) (op : Operation) (pos delLen insLen : Option Nat)
    (source : Source) (now : Int) : BufferMutation where
  seq := editor.nextSeq
  t := editor.elapsedMs now
  op
  pos := if editor.pendingGap then none else pos
  delLen
  insLen
  source

/-- What appending an event makes of the queue. -/
def enqueue (editor : Editor) (event : BufferMutation) : Editor :=
  { editor with
    lastT := event.t
    journalPending := event :: editor.journalPending
    pendingGap := false
    nextSeq := editor.nextSeq + 1
    dirty := true
    storageBackpressure := editor.storageBackpressure ||
      decide (pendingEventLimit ≤ editor.nextSeq + 1 - editor.journalCount) }

/-- `none` when the record is frozen or the session has no time left. -/
def appendEvent (editor : Editor) (op : Operation) (pos delLen insLen : Option Nat)
    (source : Source) (now : Int) : Option Editor :=
  if editor.signing || editor.frozen || decide (maxSessionMs ≤ editor.elapsedMs now) then none
  else some (editor.enqueue (editor.capturedEvent op pos delLen insLen source now))

def changeOp (len inserted : Nat) : Option Operation :=
  if len = 0 ∧ 0 < inserted then some .insert
  else if 0 < len ∧ inserted = 0 then some .delete
  else if 0 < len ∧ 0 < inserted then some .replace
  else none

def beforeChange (editor : Editor) (tick : Nat) : Editor :=
  if editor.mode && !editor.signing && !editor.frozen then editor.checkCaptureGap tick else editor

def afterChange (editor : Editor) (beg stop len : Nat) (source : Source) (now : Int)
    (tick : Nat) : Option Editor :=
  let editor :=
    if editor.mode && editor.storageBackpressure then { editor with pendingGap := true }
    else editor
  if !editor.mode || editor.saveFailure || editor.storageBackpressure || editor.signing ||
      editor.frozen then some editor
  else
    let editor := { editor with observedTick := some tick }
    match changeOp len (stop - beg) with
    | none => some editor
    | some op => editor.appendEvent op (some (beg - 1)) (some len) (some (stop - beg)) source now

/-- A gap that is left at signing is recorded as one edit of unknown place and size. -/
def recordUnrecordedChange (editor : Editor) (now : Int) (tick : Nat) : Option Editor :=
  if editor.pendingGap then
    (editor.appendEvent .replace none none none .unknown now).map fun editor =>
      { editor with observedTick := some tick }
  else some editor

/-- The checks of `pmbah--prepare-signing-input` before it freezes the record. -/
def prepareSigning (editor : Editor) (now : Int) (tick : Nat) : Option Editor :=
  if !editor.mode || editor.nextSeq = 0 || editor.signing then none
  else if editor.frozen then some editor
  else (editor.checkCaptureGap tick).recordUnrecordedChange now tick

/-! ## Storage -/

/-- The fields that storage reads come first; `others` are the other variables saved. -/
def stateSnapshot (editor : Editor) (others : List (JsString × Json)) : Json :=
  .obj ((js "session_id", .str editor.sessionId) :: (js "storage_version", Json.ofNat 2) ::
    (js "event_count", Json.ofNat editor.journalCount) ::
    (js "journal_bytes", Json.ofNat editor.journalBytes) :: others)

def requestPayload (editor : Editor) (id : Nat) (events : List BufferMutation)
    (others : List (JsString × Json)) : Json :=
  .obj [(js "id", Json.ofNat id), (js "state_path", .str editor.statePath),
    (js "journal_path", .str editor.journalPath),
    (js "expected_bytes", Json.ofNat editor.journalBytes),
    (js "expected_count", Json.ofNat editor.journalCount),
    (js "events", .arr (events.map BufferMutation.toJson)),
    (js "state", editor.stateSnapshot others)]

/-- A request for the whole queue, from the acknowledged cursor. -/
def newRequest (P : Platform) (editor : Editor) (others : List (JsString × Json)) :
    StorageRequest :=
  let events := editor.journalPending.reverse
  let id := editor.sequence + 1
  let payload := editor.requestPayload id events others
  { id
    count := events.length
    offset := 0
    eventCount := editor.journalCount + events.length
    byteLength := editor.journalBytes +
      (events.map fun event => 1 + (utf8ToBytes (jsonEncode event)).length).sum
    payload
    payloadLength := (codePoints (stringify P payload)).length }

def startWriter (editor : Editor) : Editor :=
  if editor.live then editor else { editor with live := true, ready := false, credit := false }

/-- The request in flight, else an exact retry, else a new one. -/
def buildRequest (P : Platform) (editor : Editor) (others : List (JsString × Json)) : Editor :=
  match editor.request with
  | some _ => editor
  | none =>
      match editor.retry with
      | some retry =>
          { editor with request := some { retry with offset := 0 }, dirty := true, retry := none }
      | none =>
          { editor with
            request := some (editor.newRequest P others)
            sequence := editor.sequence + 1
            dirty := false }

/-- Sends a frame of at most 1024 characters, when there is a credit for it; the
frame is halved so many times, until its text is small enough. -/
def sendFrame (editor : Editor) (halvings : Nat) : Editor :=
  match editor.request with
  | some request =>
      if editor.credit then
        let size := min request.payloadLength (request.offset + 1024) - request.offset
        { editor with
          credit := false
          request := some { request with offset := request.offset + size / 2 ^ halvings } }
      else editor
  | none => editor

def pumpStorage (P : Platform) (editor : Editor) (others : List (JsString × Json))
    (halvings : Nat) : Editor :=
  if editor.saveFailure then editor
  else if editor.request.isSome || editor.retry.isSome || !editor.journalPending.isEmpty ||
      editor.dirty then
    let editor := editor.startWriter
    if editor.ready then (editor.buildRequest P others).sendFrame halvings else editor
  else editor

def stopWriter (editor : Editor) : Editor :=
  { editor with live := false, ready := false, credit := false }

def storageFailed (editor : Editor) : Editor :=
  { editor.stopWriter with
    retry := editor.request.or editor.retry
    request := none
    dirty := true
    saveFailure := true }

/-- A line of the worker's output. -/
structure WorkerReply where
  ready : Bool
  id : Option Nat
  credit : Bool
  ok : Bool
  eventCount : Option Nat
  byteLength : Option Nat

/-- Takes the acknowledged events out of the queue and lets capture go on. -/
def acknowledge (editor : Editor) (request : StorageRequest) : Editor :=
  { editor with
    journalPending :=
      editor.journalPending.take (editor.journalPending.length - request.count)
    journalCount := request.eventCount
    journalBytes := request.byteLength
    request := none
    credit := true
    storageBackpressure := editor.storageBackpressure &&
      !decide (editor.nextSeq - request.eventCount < pendingEventLimit) }

/-- `none` when the reply is an error or unexpected. -/
def storageReply (editor : Editor) (reply : WorkerReply) : Option Editor :=
  if reply.ready then
    if editor.ready || editor.request.isSome then none
    else some { editor with ready := true, credit := true }
  else match editor.request with
    | none => none
    | some request =>
        if reply.id ≠ some request.id then none
        else if reply.credit then
          if editor.credit || decide (request.payloadLength ≤ request.offset) then none
          else some { editor with credit := true }
        else if !reply.ok || request.offset ≠ request.payloadLength then none
        else if reply.eventCount ≠ some request.eventCount ∨
            reply.byteLength ≠ some request.byteLength then none
        else some (editor.acknowledge request)

/-- Everything that saving waits for is done. -/
def settled (editor : Editor) : Bool :=
  !editor.request.isSome && !editor.retry.isSome && editor.journalPending.isEmpty && !editor.dirty

/-- Writes the oldest events of the queue without the worker. -/
def flushJournal (editor : Editor) (count : Nat) : Editor :=
  { editor with
    journalPending := editor.journalPending.take (editor.journalPending.length - count)
    journalCount := editor.journalCount + (editor.journalPending.reverse.take count).length
    journalBytes := editor.journalBytes +
      ((editor.journalPending.reverse.take count).flatMap eventLine).length }

/-! ## Steps -/

/-- What may happen to the buffer next.  `fail` is a worker that exits, a watchdog
that fires or a file that cannot be claimed; `drain` and `drained` are the two ends
of waiting for the worker, and `flush` writes so many events without it. -/
inductive Action where
  | change (tick tick' beg stop len : Nat) (source : Source) (now : Int)
  | prepareSigning (now : Int) (tick : Nat)
  | freeze
  | accept
  | cancelSigning
  | pump (others : List (JsString × Json)) (halvings : Nat)
  | reply (reply : WorkerReply)
  | fail
  | retrySave
  | drain
  | drained
  | flush (count : Nat) (saved : Bool)

def step (P : Platform) (editor : Editor) : Action → Option Editor
  | .change tick tick' beg stop len source now =>
      if maxBufferSize < stop ∨ maxBufferSize < len ∨ stop < beg then none
      else (editor.beforeChange tick).afterChange beg stop len source now tick'
  | .prepareSigning now tick => editor.prepareSigning now tick
  | .freeze =>
      if editor.mode && !editor.frozen && decide (0 < editor.nextSeq) then
        some { editor with signing := true }
      else none
  | .accept =>
      if editor.signing then some { editor with frozen := true, signing := false } else none
  | .cancelSigning => some { editor with signing := false }
  | .pump others halvings => some (editor.pumpStorage P others halvings)
  | .reply reply =>
      if editor.live then some ((editor.storageReply reply).getD editor.storageFailed) else none
  | .fail => some editor.storageFailed
  | .retrySave => if editor.signing then none else some { editor with saveFailure := false }
  | .drain => some { editor with draining := true }
  | .drained =>
      if editor.draining && (editor.saveFailure || editor.settled) then
        some { (if editor.saveFailure then editor else editor.stopWriter) with draining := false }
      else none
  | .flush count saved =>
      if editor.draining || editor.live || editor.request.isSome || editor.retry.isSome then none
      else if saved && decide (count < editor.journalPending.length) then none
      else some { editor.flushJournal count with dirty := editor.dirty && !saved }

end Editor

end Pmbah.Emacs
