import Pmbah.Browser.MeasuredInput
import Pmbah.Library.SerialSends

/-!
# An editor that is recorded

The content script's entry for an editor: what it captures goes to the worker in
order, over one promise chain, and freezing the entry waits for that chain.  A task
of the page runs to the end of its microtasks, so that a settled promise is never
seen before what waits for it has run.
-/

namespace Pmbah.Browser

open Js Format Library

structure CapturedMutation where
  mutation : Mutation
  capturedAtWallMs : Int
  deriving DecidableEq

inductive EntryState where
  | pending
  | recording
  | signed
  | error
  deriving DecidableEq, Repr

inductive FinishScope where
  | unavailable
  | wholeField
  | selection
  deriving DecidableEq

structure FinishScopePreview where
  scope : FinishScope
  scopeToken : Option JsString
  reason : Option JsString
  deriving DecidableEq

/-- The answer to a message that freezes a session. -/
inductive ComputeBindingResponse (β : Type) where
  | bindingResult (textBinding : Option β) (unrecordedChange : Bool)
  | bindingError (reason : JsString)
  | bindingScopeChanged (preview : FinishScopePreview)
  deriving DecidableEq

/-- A call of `freezeSession` that waits for what has been sent. -/
structure WaitingFreeze (β : Type) where
  number : Nat
  result : ComputeBindingResponse β

structure FieldEntry (β : Type) where
  sessionId : Option JsString
  state : EntryState
  /-- The registration has not been answered. -/
  starting : Bool
  sends : SerialSends CapturedMutation
  /-- `sending` has been replaced by the rejection of a full backlog. -/
  replaced : Bool
  queuedCount : Nat
  finishBinding : Option (ComputeBindingResponse β)
  waiting : List (WaitingFreeze β)
  /-- Captured before the session is known. -/
  queue : List CapturedMutation
  /-- A composition is on record for the element. -/
  composition : Bool

/-- What a freeze finds on the page. -/
structure EditorPage (β : Type) where
  connected : Bool
  scope : FinishScope
  scopeToken : JsString
  /-- The length is not that of the last captured edit, or a gap waits to be marked. -/
  unrecorded : Bool
  binding : Except JsString (Option β)

namespace FieldEntry

variable {β : Type}

def start : FieldEntry β where
  sessionId := none
  state := .pending
  starting := true
  sends := .empty
  replaced := false
  queuedCount := 0
  finishBinding := none
  waiting := []
  queue := []
  composition := false

def backlogLimit : Nat := 4096

def captures (entry : FieldEntry β) : Bool :=
  entry.state == .recording || entry.state == .pending

/-- The numbers kept for the element go with it. -/
def captureError (entry : FieldEntry β) : FieldEntry β :=
  { entry with state := .error, composition := false }

/-- The promise `sending` is rejected. -/
def rejected (entry : FieldEntry β) : Bool := entry.replaced || entry.sends.failed

def sendMutation (entry : FieldEntry β) (captured : CapturedMutation) : FieldEntry β :=
  if backlogLimit ≤ entry.queuedCount then { entry.captureError with replaced := true }
  else if entry.rejected then entry.captureError
  else
    match entry.sessionId with
    | none => entry
    | some _ =>
        { entry with
          sends := entry.sends.push captured
          queuedCount := entry.queuedCount + 1 }

def queueOrSend (entry : FieldEntry β) (captured : CapturedMutation) : FieldEntry β :=
  match entry.state with
  | .pending =>
      if backlogLimit ≤ entry.queue.length then entry.captureError
      else { entry with queue := entry.queue ++ [captured] }
  | .recording => entry.sendMutation captured
  | _ => entry

/-- The registration is answered with a session, or refused. -/
def registered (entry : FieldEntry β) : Option JsString → FieldEntry β
  | none => { entry.captureError with starting := false, queue := [] }
  | some sessionId =>
      let known := { entry with sessionId := some sessionId, starting := false, queue := [] }
      if entry.state = .error then known
      else { entry.queue.foldl sendMutation known with state := .recording }

def unsavedReason : JsString := js "An edit could not be saved. Text binding is unavailable."

def incompleteReason : JsString :=
  js "An edit was still incomplete. The record has stopped; a text binding is unavailable."

def closedReason : JsString := js "The selected editor was closed."

def inactiveReason : JsString :=
  js "The editor is not active. Readers can still inspect its saved editing activity."

/-- The worker answers what is out.  What waits for the chain goes on once it settles. -/
def respond (entry : FieldEntry β) (ok : Bool) :
    Option (FieldEntry β × List (Nat × ComputeBindingResponse β)) :=
  (entry.sends.answer ok).map fun sends =>
    let answered :=
      if ok then { entry with sends, queuedCount := entry.queuedCount - 1 }
      else
        { entry.captureError with
          sends, queuedCount := entry.queuedCount - entry.sends.waiting.length }
    if sends.waiting.isEmpty then
      let results := entry.waiting.map fun freeze =>
        (freeze.number, if ok then freeze.result else .bindingError unsavedReason)
      ({ answered with
          waiting := []
          finishBinding := (results.getLast?.map Prod.snd).or answered.finishBinding }, results)
    else (answered, [])

def bindingScopeForSession (entry : FieldEntry β) (page : EditorPage β) : FinishScopePreview :=
  if !page.connected || entry.state != .recording then
    { scope := .unavailable, scopeToken := none, reason := some inactiveReason }
  else { scope := page.scope, scopeToken := some page.scopeToken, reason := none }

/-- What a freeze answers unless an edit cannot be saved. -/
def freezeResult (entry : FieldEntry β) (bind : Bool) (page : EditorPage β) :
    ComputeBindingResponse β :=
  if entry.state = .error ∨ entry.composition = true then .bindingError incompleteReason
  else if !page.connected then .bindingError closedReason
  else if !bind then .bindingResult none page.unrecorded
  else
    match page.binding with
    | .error reason => .bindingError reason
    | .ok textBinding => .bindingResult textBinding page.unrecorded

/-- A call of `freezeSession`, under its number. -/
def freezeSession (entry : FieldEntry β) (number : Nat) (bind : Bool)
    (expectedScopeToken : Option JsString) (page : EditorPage β) :
    FieldEntry β × List (Nat × ComputeBindingResponse β) :=
  match entry.finishBinding with
  | some result => (entry, [(number, result)])
  | none =>
      let preview := entry.bindingScopeForSession page
      if bind && expectedScopeToken.isSome && preview.scopeToken != expectedScopeToken then
        (entry, [(number, .bindingScopeChanged preview)])
      else
        let result := entry.freezeResult bind page
        let stopped := { entry with state := .signed, composition := false }
        if entry.rejected then
          ({ stopped with finishBinding := some (.bindingError unsavedReason) },
            [(number, .bindingError unsavedReason)])
        else if entry.sends.waiting.isEmpty then
          ({ stopped with finishBinding := some result }, [(number, result)])
        else ({ stopped with waiting := entry.waiting ++ [⟨number, result⟩] }, [])

end FieldEntry

/-! ## The entry and what has come of it -/

/-- A recorded editor, with what the writer did and what has been answered. -/
structure EditorCapture (β : Type) where
  entry : FieldEntry β
  /-- Everything captured while the entry records or waits to. -/
  captured : List CapturedMutation
  /-- A composition has been started, and not ended, while the entry captured. -/
  composing : Bool
  calls : Nat
  answers : List (Nat × ComputeBindingResponse β)

namespace EditorCapture

inductive Action (β : Type) where
  | registered (sessionId : Option JsString)
  | input (mutation : Option CapturedMutation)
  | compositionstart
  | compositionend (mutation : Option CapturedMutation)
  | respond (ok : Bool)
  | freeze (bind : Bool) (expectedScopeToken : Option JsString) (page : EditorPage β)
  /-- An earlier entry for the element fails, or is frozen, and lets go of its numbers. -/
  | earlierReleased

variable {β : Type}

def start : EditorCapture β := ⟨.start, [], false, 0, []⟩

def capture (state : EditorCapture β) : Option CapturedMutation → EditorCapture β
  | none => state
  | some captured =>
      { state with
        entry := state.entry.queueOrSend captured, captured := state.captured ++ [captured] }

def step (state : EditorCapture β) : Action β → Option (EditorCapture β)
  | .registered sessionId =>
      if state.entry.starting then some { state with entry := state.entry.registered sessionId }
      else none
  | .input mutation =>
      if state.entry.captures && !state.entry.composition then some (state.capture mutation)
      else some state
  | .compositionstart =>
      if state.entry.captures then
        some { state with entry := { state.entry with composition := true }, composing := true }
      else some state
  | .compositionend mutation =>
      if state.entry.captures then
        if state.entry.composition then
          some (({ state with
            entry := { state.entry with composition := false }
            composing := false }).capture mutation)
        else some { state with composing := false }
      else some state
  | .respond ok =>
      (state.entry.respond ok).map fun (entry, answers) =>
        { state with entry, answers := state.answers ++ answers }
  | .freeze bind expectedScopeToken page =>
      if state.entry.sessionId.isSome then
        let (entry, answers) :=
          state.entry.freezeSession state.calls bind expectedScopeToken page
        some { state with entry, calls := state.calls + 1, answers := state.answers ++ answers }
      else none
  | .earlierReleased => some { state with entry := { state.entry with composition := false } }

end EditorCapture

end Pmbah.Browser
