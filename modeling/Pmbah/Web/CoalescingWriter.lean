import Pmbah.Library.Handover
import Pmbah.Library.Transition

/-!
# The coalescing writer

Calls of `drain` follow one another, as each begins when the promise of the one before it
has settled.  A value that is scheduled has the number of its promise.
-/

namespace Pmbah.Web

open Library

variable {α : Type}

/-- How far a call of `drain` is. -/
inductive DrainStage (α : Type) where
  /-- For the promise before it. -/
  | waiting
  | writing (settling : List Nat) (next : Handover.Entry α)
  /-- The write is over, and the call not yet back from it. -/
  | answered (settling : List Nat) (next : Handover.Entry α) (succeeded : Bool)
  | ended (succeeded : Bool)
  deriving DecidableEq

structure Drain (α : Type) where
  stage : DrainStage α
  /-- How many values had been scheduled when it began. -/
  begun : Nat
  deriving DecidableEq

structure CoalescingWriter (α : Type) where
  pending : Option (Handover.Entry α)
  /-- What `running` has been, one for each call. -/
  drains : List (Drain α)
  timer : Bool
  waiters : List Nat
  /-- The value of every promise. -/
  scheduled : List α
  /-- The writes that succeeded. -/
  written : List (Handover.Entry α)
  /-- The promises that were resolved and rejected. -/
  settled : List (Nat × Bool)

namespace CoalescingWriter

def empty : CoalescingWriter α where
  pending := none
  drains := []
  timer := false
  waiters := []
  scheduled := []
  written := []
  settled := []

def drain (writer : CoalescingWriter α) : CoalescingWriter α :=
  { writer with drains := writer.drains ++ [⟨.waiting, 0⟩] }

def schedule (writer : CoalescingWriter α) (value : α) : CoalescingWriter α :=
  { writer with
    pending := some ⟨writer.scheduled.length, value⟩
    timer := true
    waiters := writer.waiters ++ [writer.scheduled.length]
    scheduled := writer.scheduled ++ [value] }

def flush (writer : CoalescingWriter α) : CoalescingWriter α := { writer with timer := false }.drain

def put (writer : CoalescingWriter α) (call begun : Nat) (stage : DrainStage α) :
    CoalescingWriter α :=
  { writer with drains := writer.drains.set call ⟨stage, begun⟩ }

def settle (writer : CoalescingWriter α) (settling : List Nat) (succeeded : Bool) :
    CoalescingWriter α :=
  { writer with settled := writer.settled ++ settling.map fun number => (number, succeeded) }

/-- The loop over what is pending, up to its next `await`. -/
def takePending (writer : CoalescingWriter α) (call begun : Nat) (settling : List Nat) :
    CoalescingWriter α :=
  match writer.pending with
  | some next => { writer with pending := none }.put call begun (.writing settling next)
  | none => (writer.settle settling true).put call begun (.ended true)

/-- The promise that the call waits for has settled. -/
def ready (writer : CoalescingWriter α) : Nat → Bool
  | 0 => true
  | call + 1 =>
      match writer.drains[call]? with
      | some ⟨.ended _, _⟩ => true
      | _ => false

inductive Action (α : Type) where
  | schedule (value : α)
  | flush
  | fire
  | begin (call : Nat)
  | answer (call : Nat) (succeeded : Bool)
  | resume (call : Nat)

def step (writer : CoalescingWriter α) : Action α → Option (CoalescingWriter α)
  | .schedule value => some (writer.schedule value)
  | .flush => some writer.flush
  | .fire => if writer.timer then some { writer with timer := false }.drain else none
  | .begin call =>
      match writer.drains[call]? with
      | some ⟨.waiting, _⟩ =>
          if writer.ready call then
            some ({ writer with waiters := [] }.takePending call writer.scheduled.length
              writer.waiters)
          else none
      | _ => none
  | .answer call succeeded =>
      match writer.drains[call]? with
      | some ⟨.writing settling next, begun⟩ =>
          let writer := writer.put call begun (.answered settling next succeeded)
          some (if succeeded then { writer with written := writer.written ++ [next] } else writer)
      | _ => none
  | .resume call =>
      match writer.drains[call]? with
      | some ⟨.answered settling _ true, begun⟩ =>
          some (writer.takePending call begun settling)
      | some ⟨.answered settling next false, begun⟩ =>
          some (({ writer with pending := writer.pending.or (some next) }.settle settling
            false).put call begun (.ended false))
      | _ => none

end CoalescingWriter

end Pmbah.Web
