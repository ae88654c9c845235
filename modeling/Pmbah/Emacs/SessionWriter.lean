import Pmbah.Emacs.JournalLine

/-!
# The disk worker

A request carries a batch of events and the metadata of its session.  The worker
appends the lines that the journal lacks and then replaces the metadata; nothing
is written before every check has passed, except that a first journal is created.
-/

namespace Pmbah.Emacs

open Js Format Library

/-- The metadata file: its size, and what `JSON.parse` returns unless it throws. -/
structure StateFile where
  byteLength : Nat
  parsed : Option Json

/-- The files of one session; a temporary file holds nothing until it is written. -/
structure Disk where
  journal : Option (List UInt8)
  state : Option StateFile
  temporary : Option (Option StateFile)

/-- One step that a crash leaves done or not done. -/
inductive Write where
  | createJournal
  | appendJournal (byte : UInt8)
  | removeTemporary
  | createTemporary
  | writeTemporary (file : StateFile)
  | renameTemporary

def Disk.apply (disk : Disk) : Write → Disk
  | .createJournal => { disk with journal := some [] }
  | .appendJournal byte => { disk with journal := disk.journal.map fun bytes => bytes ++ [byte] }
  | .removeTemporary => { disk with temporary := none }
  | .createTemporary => { disk with temporary := some none }
  | .writeTemporary file => { disk with temporary := some (some file) }
  | .renameTemporary =>
      match disk.temporary with
      | some (some file) => { disk with state := some file, temporary := none }
      | _ => disk

def Disk.applyAll (disk : Disk) (writes : List Write) : Disk := writes.foldl Disk.apply disk

/-! ## Paths -/

def normalizePath (above : List JsString) (name : JsString) : List JsString :=
  if name = [] ∨ name = js "." then above
  else if name = js ".." then above.dropLast
  else above ++ [name]

/-- `resolve(path)`, as the names on the way from the root; `cwd` is where the worker runs. -/
def resolve (cwd : List JsString) (path : JsString) : List JsString :=
  (path.splitOn 47).foldl normalizePath (if path.head? = some 47 then [] else cwd)

def dirname (path : List JsString) : List JsString := path.dropLast

/-! ## Requests -/

def maxStateBytes : Nat := 1024 * 1024

def maxBatch : Nat := 256

/-- `Number.isSafeInteger(value) && value >= 0`. -/
def integer (value : Option Json) : Bool := isSafeElapsed value

structure SessionWrite where
  id : Option Json
  expectedBytes : Nat
  expectedCount : Nat
  events : List Json
  state : Json

def readRequest (cwd : List JsString) (input : Json) : Except JsError SessionWrite :=
  match input.field (js "events"), input.field (js "state"),
    Json.text? (input.field (js "journal_path")), Json.text? (input.field (js "state_path")) with
  | some (.arr events), some state, some journalPath, some statePath =>
      if integer (input.field (js "expected_bytes")) &&
          integer (input.field (js "expected_count")) && decide (events.length ≤ maxBatch) &&
          state.isPlainObject &&
          decide (resolve cwd journalPath ≠ resolve cwd statePath) &&
          decide (dirname (resolve cwd journalPath) = dirname (resolve cwd statePath)) then
        .ok { id := input.field (js "id")
              expectedBytes := input.natAt (js "expected_bytes")
              expectedCount := input.natAt (js "expected_count"), events, state }
      else .error (.error (js "invalid session write request"))
  | _, _, _, _ => .error (.error (js "invalid session write request"))

/-- The session id of the request, when its snapshot is that of the cursor. -/
def snapshotSession (request : SessionWrite) : Except JsError JsString :=
  match Json.text? (request.state.field (js "session_id")) with
  | some sessionId =>
      if Json.number? (request.state.field (js "storage_version")) = some (.ofNat 2) ∧
          sessionId ≠ [] ∧
          Json.number? (request.state.field (js "event_count")) =
            some (.ofNat request.expectedCount) ∧
          Json.number? (request.state.field (js "journal_bytes")) =
            some (.ofNat request.expectedBytes) then .ok sessionId
      else .error (.error (js "session snapshot does not match the acknowledged cursor"))
  | none => .error (.error (js "session snapshot does not match the acknowledged cursor"))

/-- `previous` is the event before, within the batch. -/
def checkBatch (P : Platform) : Option Json → Nat → List Json → Except JsError Unit
  | _, _, [] => .ok ()
  | previous, seq, event :: events =>
      match validateEvent P event (some seq) with
      | .error thrown => .error thrown
      | .ok errors =>
          if !errors.isEmpty then .error (.error (js "invalid content-blind event batch"))
          else match previous with
            | none => checkBatch P (some event) (seq + 1) events
            | some previous =>
                match P.less (event.field (js "t")) (previous.field (js "t")) with
                | .error thrown => .error thrown
                | .ok true => .error (.error (js "invalid content-blind event batch"))
                | .ok false => checkBatch P (some event) (seq + 1) events

/-- What a request that passes its checks asks for. -/
structure SessionPlan where
  id : Option Json
  sessionId : JsString
  expectedBytes : Nat
  expectedCount : Nat
  lines : List (List UInt8)
  metadata : StateFile

namespace SessionPlan

def bytes (plan : SessionPlan) : List UInt8 := plan.lines.flatten

def finalCount (plan : SessionPlan) : Nat := plan.expectedCount + plan.lines.length

def finalBytes (plan : SessionPlan) : Nat := plan.expectedBytes + plan.bytes.length

end SessionPlan

/-- The metadata after the batch. -/
def stateAfter (P : Platform) (state : Json) (finalCount finalBytes : Nat) : StateFile :=
  let metadata := (state.withField (js "event_count") (Json.ofNat finalCount)).withField
    (js "journal_bytes") (Json.ofNat finalBytes)
  { byteLength := (utf8ToBytes (stringify P metadata)).length, parsed := some metadata }

/-- The checks that need no file. -/
def planSession (P : Platform) (cwd : List JsString) (input : Json) :
    Except JsError SessionPlan :=
  match readRequest cwd input with
  | .error thrown => .error thrown
  | .ok request =>
      match snapshotSession request with
      | .error thrown => .error thrown
      | .ok sessionId =>
          match checkBatch P none request.expectedCount request.events with
          | .error thrown => .error thrown
          | .ok () =>
              let lines := request.events.map (journalLine P)
              let finalCount := request.expectedCount + lines.length
              let finalBytes := request.expectedBytes + lines.flatten.length
              let metadata := stateAfter P request.state finalCount finalBytes
              if maxTimeFieldValue < finalCount ∨ maxTimeFieldValue < finalBytes then
                .error (.error (js "session cursor exceeds its range"))
              else if maxStateBytes < metadata.byteLength then
                .error (.error (js "session metadata exceeds its size limit"))
              else .ok { id := request.id, sessionId, expectedBytes := request.expectedBytes,
                         expectedCount := request.expectedCount, lines, metadata }

/-! ## Storage -/

/-- A failure of the file system has a code, another one is thrown. -/
inductive WriterError where
  | system (code : JsString)
  | thrown (error : JsError)

structure WriterReply where
  id : Option Json
  eventCount : Nat
  byteLength : Nat

/-- The first write of a request, when it has to create the journal. -/
def openJournal (disk : Disk) (plan : SessionPlan) : Except WriterError (List Write) :=
  match disk.journal with
  | some _ => .ok []
  | none =>
      if plan.expectedBytes ≠ 0 ∨ plan.expectedCount ≠ 0 then .error (.system (js "ENOENT"))
      else .ok [.createJournal]

def readPersisted (disk : Disk) : Except JsError (Option Json) :=
  match disk.state with
  | none => .ok none
  | some file =>
      if maxStateBytes < file.byteLength then
        .error (.error (js "saved metadata exceeds its size limit"))
      else match file.parsed with
        | none => .error (.error (js "saved metadata is invalid"))
        | some persisted => .ok (some persisted)

/-- The saved metadata may be behind the request, or within its batch at the end of a line. -/
def checkPersisted (plan : SessionPlan) (size : Nat) (persisted : Json) : Except JsError Unit :=
  let count := persisted.natAt (js "event_count")
  let bytes := persisted.natAt (js "journal_bytes")
  if !persisted.isPlainObject ∨
      Json.text? (persisted.field (js "session_id")) ≠ some plan.sessionId ∨
      !integer (persisted.field (js "event_count")) ∨
      !integer (persisted.field (js "journal_bytes")) ∨
      plan.finalCount < count ∨ size < bytes ∨ plan.finalBytes < bytes ∨
      (count = plan.expectedCount ∧ bytes ≠ plan.expectedBytes) ∨
      (bytes = plan.expectedBytes ∧ count ≠ plan.expectedCount) then
    .error (.error (js "saved metadata conflicts with the journal cursor"))
  else if plan.expectedCount < count ∨ plan.expectedBytes < bytes then
    if count < plan.expectedCount ∨
        bytes ≠ plan.expectedBytes +
          ((plan.lines.take (count - plan.expectedCount)).map List.length).sum then
      .error (.error (js "saved metadata conflicts with the pending batch"))
    else .ok ()
  else .ok ()

/-- The checks against the files; `journal` is what the journal holds. -/
def checkFiles (disk : Disk) (plan : SessionPlan) (journal : List UInt8) : Except JsError Unit :=
  if journal.length < plan.expectedBytes ∨ plan.finalBytes < journal.length then
    .error (.error (js "journal size conflicts with the pending batch"))
  else match readPersisted disk with
    | .error thrown => .error thrown
    | .ok persisted =>
        match persisted.elim (.ok ()) (checkPersisted plan journal.length) with
        | .error thrown => .error thrown
        | .ok () =>
            let existing := journal.drop plan.expectedBytes
            if existing = plan.bytes.take existing.length then .ok ()
            else .error (.error (js "journal suffix conflicts with the pending batch"))

/-- The writes of a request that passes, after the journal is open. -/
def sessionWrites (plan : SessionPlan) (journal : List UInt8) : List Write :=
  (plan.bytes.drop (journal.length - plan.expectedBytes)).map .appendJournal ++
    [.removeTemporary, .createTemporary, .writeTemporary plan.metadata, .renameTemporary]

/-- What the worker writes for a plan, in order, and what it then returns or throws. -/
def persistPlan (disk : Disk) (plan : SessionPlan) :
    List Write × Except WriterError WriterReply :=
  match openJournal disk plan with
  | .error error => ([], .error error)
  | .ok opening =>
      let journal := disk.journal.getD []
      match checkFiles disk plan journal with
      | .error thrown => (opening, .error (.thrown thrown))
      | .ok () => (opening ++ sessionWrites plan journal,
          .ok { id := plan.id, eventCount := plan.finalCount, byteLength := plan.finalBytes })

def persistSession (P : Platform) (cwd : List JsString) (disk : Disk) (input : Json) :
    List Write × Except WriterError WriterReply :=
  match planSession P cwd input with
  | .error thrown => ([], .error (.thrown thrown))
  | .ok plan => persistPlan disk plan

end Pmbah.Emacs
