import Pmbah.Library.Transition
import Pmbah.Producer.Moves

/-!
# A registry over any storage

The same `await`s with the storage left open: a save that is waited for ends
either way, and the queues that saving works off hold whatever it leaves there.
A registry over its journal is one case, and one that writes its snapshot is
another.
-/

namespace Pmbah.Producer

open Js Format Library

/-- What saving takes from a registry and puts back. -/
structure SaveQueues where
  pendingEvents : OrderedMap JsString (List BufferMutation)
  dirty : OrderedSet JsString
  deleted : OrderedSet JsString
  clearEvents : OrderedSet JsString

def Registry.withQueues (registry : Registry) (queues : SaveQueues) : Registry :=
  { registry with
    pendingEvents := queues.pendingEvents
    dirty := queues.dirty
    deleted := queues.deleted
    clearEvents := queues.clearEvents }

structure Process where
  registry : Registry
  /-- How saves have ended, by the promise that waited. -/
  outcomes : OrderedMap Nat Bool
  discards : OrderedMap Nat DiscardTask
  flushes : OrderedMap Nat ObservationFlush

namespace Process

/-- A new process over a stored snapshot. -/
def boot (snapshot : List SessionRecord) (nextId : Nat) : Process where
  registry := load { Registry.empty with nextId } snapshot
  outcomes := ∅
  discards := ∅
  flushes := ∅

/-- The promise of the call is the `nextId` it finds. -/
def persist (process : Process) : Process :=
  { process with registry := { process.registry with nextId := process.registry.nextId + 1 } }

def setTask (process : Process) (task : Nat) (stage : DiscardTask) : Process :=
  { process with discards := process.discards.set task stage }

def endTask (process : Process) (task : Nat) : Process :=
  { process with discards := process.discards.delete task }

def discardPersisted (process : Process) (ids : List JsString) : Process :=
  (process.setTask process.registry.nextId (.settling process.registry.nextId ids)).persist

/-- `discardPersisted` once the save before its deletions has been stored. -/
def detached (process : Process) (task : Nat) (ids : List JsString) : Process :=
  ({ process with registry := (World.detach process.registry ids).1 }).setTask task
    (.deleting (World.detach process.registry ids).1.nextId
      (ids.map fun id => (id, process.registry.pendingEvents.get? id))
      (World.detach process.registry ids).2)

/-- The rollback of `discardPersisted`. -/
def restored (process : Process) (task : Nat)
    (pending : List (JsString × Option (List BufferMutation))) (removed : List SessionRecord) :
    Process :=
  ({ process with
    registry := removed.foldl (World.restoreOne pending) process.registry }).setTask task
    (.restoring (removed.foldl (World.restoreOne pending) process.registry).nextId)

def resumeDiscard (process : Process) (task : Nat) : Option Process :=
  match process.discards.get? task with
  | none => none
  | some (.settling promise ids) =>
      (process.outcomes.get? promise).map fun saved =>
        if saved then (process.detached task ids).persist else process.endTask task
  | some (.deleting promise pending removed) =>
      (process.outcomes.get? promise).map fun saved =>
        if saved then process.endTask task
        else (process.restored task pending removed).persist
  | some (.restoring promise) =>
      (process.outcomes.get? promise).map fun _ => process.endTask task

def answerCheckpoint (options : RegistryOptions) (process : Process) (promise : Nat)
    (result : CheckpointResult) : Option Process :=
  match process.registry.loops.get? promise with
  | some loop =>
      match loop.stage with
      | .posting _ =>
          let (registry, saves) := checkpointAnswered options process.registry promise loop result
            process.registry.nextId
          let answered := { process with registry }
          some (if saves then answered.persist else answered)
      | _ => none
  | none => none

def resumeLoop (process : Process) (promise : Nat) (now : Int) (uuid : JsString) :
    Option Process :=
  match process.registry.loops.get? promise with
  | some loop =>
      match loop.stage with
      | .posting _ => none
      | .saving save again =>
          (process.outcomes.get? save).map fun saved =>
            { process with
              registry := checkpointSaved process.registry promise loop again saved now uuid }
      | .ended => some { process with registry := loopFinished process.registry promise loop }
  | none => none

def continueFlush (process : Process) (task : Nat) (flush : ObservationFlush) (now : Int)
    (uuid : JsString) : Process :=
  let (registry, next) := flushRound process.registry flush now uuid
  { process with
    registry
    flushes := match next with
      | none => process.flushes.delete task
      | some flush => process.flushes.set task flush }

def startFlush (options : RegistryOptions) (process : Process) (sessionId : JsString)
    (now : Int) (uuid : JsString) : Process :=
  if !options.checkpoint then process
  else
    let registry := Producer.startFlush process.registry sessionId
    ({ process with
      registry := { registry with nextId := registry.nextId + 1 } }).continueFlush
      registry.nextId ⟨sessionId, 0, false, none⟩ now uuid

def resumeFlush (process : Process) (task : Nat) (now : Int) (uuid : JsString) :
    Option Process :=
  match process.flushes.get? task with
  | none => none
  | some flush =>
      match flush.awaiting with
      | some promise =>
          if (process.registry.loops.get? promise).isSome then none
          else
            some { process with
              flushes := process.flushes.set task (awaitObservationIdle process.registry flush) }
      | none => some (process.continueFlush task flush now uuid)

inductive Action where
  | call (call : RegistryCall) (clock : Nat → Int) (uuid : JsString)
  | persist
  /-- Saving works on its queues. -/
  | queue (queues : SaveQueues)
  /-- A save ends for all that waited for it. -/
  | settle (waiters : List Nat) (saved : Bool)
  | discardPersisted (ids : List JsString)
  | resumeDiscard (task : Nat)
  | answerCheckpoint (promise : Nat) (result : CheckpointResult)
  | resumeLoop (promise : Nat) (now : Int) (uuid : JsString)
  | flushObservation (sessionId : JsString) (now : Int) (uuid : JsString)
  | resumeFlush (task : Nat) (now : Int) (uuid : JsString)
  /-- The process ends, and the next one finds a snapshot. -/
  | crash (snapshot : List SessionRecord)

def step (P : Platform) (options : RegistryOptions) (process : Process) :
    Action → Option Process
  | .call call clock uuid =>
      some { process with
        registry := (call.run P options clock uuid process.registry).registry }
  | .persist => some process.persist
  | .queue queues => some { process with registry := process.registry.withQueues queues }
  | .settle waiters saved =>
      some { process with outcomes := World.settle process.outcomes waiters saved }
  | .discardPersisted ids => some (process.discardPersisted ids)
  | .resumeDiscard task => process.resumeDiscard task
  | .answerCheckpoint promise result => answerCheckpoint options process promise result
  | .resumeLoop promise now uuid => process.resumeLoop promise now uuid
  | .flushObservation sessionId now uuid =>
      some (startFlush options process sessionId now uuid)
  | .resumeFlush task now uuid => process.resumeFlush task now uuid
  | .crash snapshot => some (boot snapshot process.registry.nextId)

/-- The step belongs to the storage alone. -/
def Action.saves : Action → Bool
  | .persist => true
  | .queue _ => true
  | .settle _ _ => true
  | _ => false

end Process

/-! ## The registry over its journal -/

namespace World

variable {P : Platform} {options : RegistryOptions} {world next : World}

/-- The world without its storage. -/
def process (world : World) : Process where
  registry := world.registry
  outcomes := world.outcomes
  discards := world.discards
  flushes := world.flushes

/-- What a step is to the process, where it is not one of the storage. -/
def Action.process (world : World) : Action → Option Process.Action
  | .call made clock uuid => some (.call made clock uuid)
  | .persist => none
  | .discardPersisted ids => some (.discardPersisted ids)
  | .resumeDiscard task => some (.resumeDiscard task)
  | .storeSettles _ => none
  | .commitReturns => none
  | .drainContinues => none
  | .answerCheckpoint promise result => some (.answerCheckpoint promise result)
  | .resumeLoop promise now uuid => some (.resumeLoop promise now uuid)
  | .flushObservation sessionId now uuid => some (.flushObservation sessionId now uuid)
  | .resumeFlush task now uuid => some (.resumeFlush task now uuid)
  | .crash => some (.crash world.store.read)

theorem startSave_process (world : World) :
    ∃ queues, world.startSave.process =
      { world.process with registry := world.registry.withQueues queues } := by
  unfold startSave
  simp only
  split
  · let registry := world.registry
    exact ⟨⟨registry.pendingEvents, registry.dirty, registry.deleted, registry.clearEvents⟩, rfl⟩
  · exact ⟨⟨_, _, _, _⟩, rfl⟩

theorem persist_process (world : World) :
    ∃ queues, world.persist.process =
      { world.process.persist with
        registry := world.process.persist.registry.withQueues queues } := by
  unfold persist kick
  split
  · exact startSave_process world.wait
  · let registry := world.registry
    exact ⟨⟨registry.pendingEvents, registry.dirty, registry.deleted, registry.clearEvents⟩, rfl⟩

theorem unqueueAll_process (changes : List JournalAppend) (registry : Registry) :
    ∃ queues, changes.foldl unqueue registry = registry.withQueues queues := by
  induction changes generalizing registry with
  | nil =>
      exact ⟨⟨registry.pendingEvents, registry.dirty, registry.deleted, registry.clearEvents⟩,
        rfl⟩
  | cons change changes ih =>
      obtain ⟨queues, hqueues⟩ := ih (unqueue registry change)
      refine ⟨queues, ?_⟩
      rw [List.foldl_cons, hqueues]
      unfold unqueue
      split
      · rfl
      · rfl

/-- A step of the process, and what storage does after it. -/
def Follows (P : Platform) (options : RegistryOptions) (process : Process)
    (acted : Process.Action) (next : Process) : Prop :=
  ∃ between, process.step P options acted = some between ∧
    Library.Run (Process.step P options) (fun _ action => action.saves = true) between next

theorem saves_single {process next : Process} (action : Process.Action)
    (hsaves : action.saves = true) (h : process.step P options action = some next) :
    Library.Run (Process.step P options) (fun _ action => action.saves = true) process next :=
  Library.Run.single hsaves h

theorem follows_single {process next : Process} {acted : Process.Action}
    (h : process.step P options acted = some next) : Follows P options process acted next :=
  ⟨next, h, .refl next⟩

/-- A step of the process, with the save that it starts. -/
theorem follows_persist {process : Process} {acted : Process.Action}
    (h : process.step P options acted = some world.process.persist) :
    Follows P options process acted world.persist.process := by
  obtain ⟨queues, hqueues⟩ := persist_process world
  refine ⟨_, h, saves_single (.queue queues) rfl ?_⟩
  rw [hqueues]
  rfl

theorem follows_resumeDiscard {task : Nat} (h : world.resumeDiscard task = some next) :
    Follows P options world.process (.resumeDiscard task) next.process := by
  cases htask : world.discards.get? task with
  | none =>
      simp only [resumeDiscard, htask] at h
      cases h
  | some stage =>
      have hstage : world.process.discards.get? task = some stage := htask
      cases stage with
      | settling promise ids =>
          simp only [resumeDiscard, htask] at h
          obtain ⟨saved, hsaved, rfl⟩ := Option.map_eq_some_iff.1 h
          have houtcome : world.process.outcomes.get? promise = some saved := hsaved
          cases saved with
          | true =>
              apply follows_persist
              simp only [Process.step, Process.resumeDiscard, hstage, houtcome]
              rfl
          | false =>
              apply follows_single
              simp only [Process.step, Process.resumeDiscard, hstage, houtcome]
              rfl
      | deleting promise pending removed =>
          simp only [resumeDiscard, htask] at h
          obtain ⟨saved, hsaved, rfl⟩ := Option.map_eq_some_iff.1 h
          have houtcome : world.process.outcomes.get? promise = some saved := hsaved
          cases saved with
          | true =>
              apply follows_single
              simp only [Process.step, Process.resumeDiscard, hstage, houtcome]
              rfl
          | false =>
              apply follows_persist
              simp only [Process.step, Process.resumeDiscard, hstage, houtcome]
              rfl
      | restoring promise =>
          simp only [resumeDiscard, htask] at h
          obtain ⟨saved, hsaved, rfl⟩ := Option.map_eq_some_iff.1 h
          have houtcome : world.process.outcomes.get? promise = some saved := hsaved
          apply follows_single
          simp only [Process.step, Process.resumeDiscard, hstage, houtcome]
          rfl

theorem follows_answerCheckpoint {promise : Nat} {result : CheckpointResult}
    (h : answerCheckpoint options world promise result = some next) :
    Follows P options world.process (.answerCheckpoint promise result) next.process := by
  unfold answerCheckpoint at h
  split at h
  · rename_i loop hloop
    have hkept : world.process.registry.loops.get? promise = some loop := hloop
    split at h
    · rename_i hposting
      have hstep : world.process.step P options (.answerCheckpoint promise result) =
          some (if (checkpointAnswered options world.registry promise loop result
              world.registry.nextId).2 then
            ({ world with
              registry := (checkpointAnswered options world.registry promise loop result
                world.registry.nextId).1 } : World).process.persist
          else
            ({ world with
              registry := (checkpointAnswered options world.registry promise loop result
                world.registry.nextId).1 } : World).process) := by
        simp only [Process.step, Process.answerCheckpoint, hkept, hposting]
        rfl
      generalize checkpointAnswered options world.registry promise loop result
        world.registry.nextId = answered at h hstep
      obtain ⟨registry, saves⟩ := answered
      cases h
      cases saves with
      | true => exact follows_persist hstep
      | false => exact follows_single hstep
    · cases h
  · cases h

theorem follows_resumeLoop {promise : Nat} {now : Int} {uuid : JsString}
    (h : world.resumeLoop promise now uuid = some next) :
    Follows P options world.process (.resumeLoop promise now uuid) next.process := by
  unfold resumeLoop at h
  split at h
  · rename_i loop hloop
    have hkept : world.process.registry.loops.get? promise = some loop := hloop
    apply follows_single
    split at h
    · cases h
    · rename_i hsaving
      obtain ⟨saved, hsaved, rfl⟩ := Option.map_eq_some_iff.1 h
      simp only [Process.step, Process.resumeLoop, hkept, hsaving]
      rw [show world.process.outcomes.get? _ = some saved from hsaved]
      rfl
    · rename_i hended
      cases h
      simp only [Process.step, Process.resumeLoop, hkept, hended]
      rfl
  · cases h

theorem process_startFlush (world : World) (sessionId : JsString) (now : Int)
    (uuid : JsString) :
    Process.startFlush options world.process sessionId now uuid =
      (startFlush options world sessionId now uuid).process := by
  unfold startFlush Process.startFlush
  split
  · rfl
  · rfl

theorem process_resumeFlush {task : Nat} {now : Int} {uuid : JsString}
    (h : world.resumeFlush task now uuid = some next) :
    world.process.resumeFlush task now uuid = some next.process := by
  unfold resumeFlush at h
  split at h
  · cases h
  · rename_i flush hflush
    have hkept : world.process.flushes.get? task = some flush := hflush
    split at h
    · rename_i promise hawaiting
      split at h
      · cases h
      · rename_i hover
        cases h
        simp only [Process.resumeFlush, hkept, hawaiting]
        exact if_neg hover
    · rename_i hready
      cases h
      simp only [Process.resumeFlush, hkept, hready]
      rfl

/-- A step of a world is a step of its process and what storage does after it. -/
theorem follows_step {action : Action} {acted : Process.Action}
    (hacted : action.process world = some acted)
    (h : world.step P options action = some next) :
    Follows P options world.process acted next.process := by
  cases action with
  | call made clock uuid =>
      cases hacted
      simp only [step] at h
      split at h
      · cases h
      · cases h
        exact follows_single rfl
  | persist => cases hacted
  | discardPersisted ids =>
      cases hacted
      cases h
      exact follows_persist rfl
  | resumeDiscard task =>
      cases hacted
      exact follows_resumeDiscard h
  | storeSettles succeeds => cases hacted
  | commitReturns => cases hacted
  | drainContinues => cases hacted
  | answerCheckpoint promise result =>
      cases hacted
      exact follows_answerCheckpoint h
  | resumeLoop promise now uuid =>
      cases hacted
      exact follows_resumeLoop h
  | flushObservation sessionId now uuid =>
      cases hacted
      cases h
      exact follows_single (congrArg some (process_startFlush world sessionId now uuid))
  | resumeFlush task now uuid =>
      cases hacted
      exact follows_single (process_resumeFlush h)
  | crash =>
      cases hacted
      cases h
      exact follows_single rfl

/-- Any other step is one of the storage alone. -/
theorem saves_step {action : Action} (hsilent : action.process world = none)
    (h : world.step P options action = some next) :
    Library.Run (Process.step P options) (fun _ action => action.saves = true) world.process
      next.process := by
  cases action with
  | persist =>
      cases h
      obtain ⟨between, hpersist, hrest⟩ :=
        show Follows P options world.process .persist world.persist.process from
          follows_persist rfl
      exact (saves_single .persist rfl hpersist).trans hrest
  | storeSettles succeeds =>
      have hmove : Move P options world _ next := move_storeSettles h
      cases hmove with
      | store => exact .refl _
      | fail => exact .refl _
      | observe hobserves _ _ => cases hobserves
  | commitReturns =>
      have hmove : Move P options world _ next := move_commitReturns h
      cases hmove with
      | @unqueue save _ =>
          obtain ⟨queues, hqueues⟩ := unqueueAll_process save.batch.appends world.registry
          apply saves_single (.queue queues) rfl
          rw [process, afterReturn, hqueues]
          rfl
      | requeue => exact saves_single (.queue ⟨_, _, _, _⟩) rfl rfl
      | observe hobserves _ _ => cases hobserves
  | drainContinues =>
      have hmove : Move P options world _ next := move_drainContinues h
      cases hmove with
      | @rest waiters saved _ _ => exact saves_single (.settle waiters saved) rfl rfl
      | @restart waiters saved _ _ =>
          obtain ⟨queues, hqueues⟩ :=
            startSave_process { world with outcomes := settle world.outcomes waiters saved }
          rw [hqueues]
          exact (saves_single (.settle waiters saved) rfl rfl).trans
            (saves_single (.queue queues) rfl rfl)
      | observe hobserves _ _ => cases hobserves
  | call => cases hsilent
  | discardPersisted => cases hsilent
  | resumeDiscard => cases hsilent
  | answerCheckpoint => cases hsilent
  | resumeLoop => cases hsilent
  | flushObservation => cases hsilent
  | resumeFlush => cases hsilent
  | crash => cases hsilent

/-- The process of a run of a world is a run of the process. -/
theorem follow_run {condition : Process → Process.Action → Prop}
    {allowed : World → Action → Prop}
    (hsaves : ∀ process (action : Process.Action), action.saves = true →
      condition process action)
    (hallowed : ∀ world action acted, allowed world action →
      Action.process world action = some acted → condition world.process acted)
    {first : World} (run : World.Run P options allowed first world) :
    Library.Run (Process.step P options) condition first.process world.process := by
  induction run with
  | refl => exact .refl _
  | @step before next action _ holds taken ih =>
      apply ih.trans
      cases hacted : action.process before with
      | none => exact (saves_step hacted taken).mono hsaves
      | some acted =>
          obtain ⟨between, hstep, hrest⟩ := follows_step hacted taken
          exact (Library.Run.single (hallowed _ _ _ holds hacted) hstep).trans
            (hrest.mono hsaves)

end World

end Pmbah.Producer
