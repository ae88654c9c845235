import Pmbah.Producer.Process

/-!
# A registry that writes its snapshot

The storage without a journal: a save writes all sessions, as they are when it
starts, in place of what was stored.
-/

namespace Pmbah.Producer

open Js Format Library

structure SnapshotProcess where
  process : Process
  stored : List SessionRecord
  /-- The snapshot that a save is writing. -/
  writing : Option (List SessionRecord)

namespace SnapshotProcess

def boot (stored : List SessionRecord) (nextId : Nat) : SnapshotProcess where
  process := Process.boot stored nextId
  stored := stored
  writing := none

inductive Action where
  /-- A step of the process that neither saves nor ends it. -/
  | act (action : Process.Action)
  | write
  | writeSettles (succeeds : Bool)
  | crash

/-- The step is none of the storage and none of a new process. -/
def runs : Process.Action → Bool
  | .queue _ => false
  | .crash _ => false
  | _ => true

def step (P : Platform) (options : RegistryOptions) (state : SnapshotProcess) :
    Action → Option SnapshotProcess
  | .act action =>
      if runs action then
        (state.process.step P options action).map fun process => { state with process }
      else none
  | .write =>
      match state.writing with
      | none => some { state with writing := some state.process.registry.sessions.values }
      | some _ => none
  | .writeSettles succeeds =>
      match state.writing with
      | none => none
      | some snapshot =>
          some { state with
            stored := if succeeds then snapshot else state.stored, writing := none }
  | .crash => some (boot state.stored state.process.registry.nextId)

end SnapshotProcess

end Pmbah.Producer
