import Pmbah.Producer.Checkpoint
import Pmbah.Producer.Journal

/-!
# A registry over its journal

A journal-backed registry with everything that is under way at its `await`s: the
serialized saves of `persist`, the calls of `discardPersisted`, the checkpoint
loops and the observation flushes.  A step runs one piece of code from one
`await` to the next, settles a commit, or ends the process and loads what is
durable.
-/

namespace Pmbah.Producer

open Js Format Library

/-! ## Calls -/

/-- A call of a synchronous method. -/
inductive RegistryCall where
  | findOrCreate (origin : FieldOrigin) (descriptor : FieldDescriptor)
      (captureSurface : JsString) (find : FindOptions)
  | resume (sessionId : JsString) (origin : FieldOrigin) (descriptor : FieldDescriptor)
      (options : ResumeOptions)
  | appendMutation (sessionId : JsString) (mutation : PendingMutation)
      (capturedAtWallMs : Option Int)
  | recordUnrecordedChange (sessionId : JsString)
  | sign (sessionId : JsString) (textBinding : Option Json)
  | markUploading (sessionId : JsString)
  | markUploaded (sessionId : JsString) (response : IngestRecordResponse)
  | markFailedUpload (sessionId : JsString) (reason : JsString)
  | markObservationRejected (sessionId : JsString) (code : ObservationRejection)
  | continueFrom (sessionId : JsString) (location : Location)
  | discard (sessionId : JsString)
  | sweep (options : SweepOptions)

/-- What a call leaves: the registry, and the event it has accepted for a session. -/
structure CallOutcome where
  registry : Registry
  accepted : Option (JsString × BufferMutation)

def acceptedBy (sessionId : JsString)
    (result : Registry × Except JsError BufferMutation) : CallOutcome where
  registry := result.1
  accepted := result.2.toOption.map fun event => (sessionId, event)

def RegistryCall.run (P : Platform) (options : RegistryOptions) (clock : Nat → Int)
    (uuid : JsString) (registry : Registry) : RegistryCall → CallOutcome
  | .findOrCreate origin descriptor captureSurface find =>
      ⟨(Producer.findOrCreate options registry origin descriptor captureSurface find clock
        uuid).1, none⟩
  | .resume sessionId origin descriptor resumeOptions =>
      ⟨(Producer.resume registry sessionId origin descriptor resumeOptions).1, none⟩
  | .appendMutation sessionId mutation capturedAtWallMs =>
      acceptedBy sessionId (Producer.appendMutation P options registry sessionId mutation
        capturedAtWallMs clock uuid)
  | .recordUnrecordedChange sessionId =>
      acceptedBy sessionId
        (Producer.recordUnrecordedChange P options registry sessionId clock uuid)
  | .sign sessionId textBinding =>
      ⟨(Producer.sign P options registry sessionId textBinding (clock 0) uuid).1, none⟩
  | .markUploading sessionId => ⟨(Producer.markUploading registry sessionId).1, none⟩
  | .markUploaded sessionId response =>
      ⟨(Producer.markUploaded registry sessionId response (clock 0)).1, none⟩
  | .markFailedUpload sessionId reason =>
      ⟨(Producer.markFailedUpload registry sessionId reason).1, none⟩
  | .markObservationRejected sessionId code =>
      ⟨(Producer.markObservationRejected registry sessionId code).1, none⟩
  | .continueFrom sessionId location =>
      ⟨(Producer.continueFrom options registry sessionId location clock uuid).1, none⟩
  | .discard sessionId => ⟨(Producer.discard registry sessionId).1, none⟩
  | .sweep sweepOptions => ⟨Producer.sweep options registry sweepOptions (clock 0), none⟩

/-! ## The state -/

/-- A call of `#persistJournal` that has made its commit. -/
structure Save where
  batch : JournalCommit
  ids : List JsString
  waiters : List Nat

/-- Where `#drainPersistence` stands. -/
inductive Drain where
  | idle
  | committing (save : Save)
  /-- Storage has answered; `#persistJournal` has not gone on yet. -/
  | settled (save : Save) (stored : Bool)
  /-- `#persistJournal` has returned or thrown. -/
  | returned (waiters : List Nat) (saved : Bool)

/-- The commit that the registry waits for. -/
def Drain.save? : Drain → Option Save
  | .committing save => some save
  | .settled save _ => some save
  | _ => none

/-- A call of `discardPersisted`, at one of its saves. -/
inductive DiscardTask where
  | settling (promise : Nat) (ids : List JsString)
  | deleting (promise : Nat) (pending : List (JsString × Option (List BufferMutation)))
      (removed : List SessionRecord)
  | restoring (promise : Nat)

structure World where
  registry : Registry
  store : JournalStore
  drain : Drain
  /-- The promises that the next save resolves. -/
  waiters : List Nat
  /-- The outcomes of earlier saves. -/
  outcomes : OrderedMap Nat Bool
  discards : OrderedMap Nat DiscardTask
  flushes : OrderedMap Nat ObservationFlush
  /-- What has been accepted for each session, less what a crash has lost. -/
  accepted : JsString → List BufferMutation
  /-- Sessions with stored events that have not left a queue since. -/
  landed : OrderedSet JsString

namespace World

/-! ## Saving -/

/-- The batch of a save that starts now. -/
def nextBatch (registry : Registry) : JournalCommit where
  sessions := registry.dirty.members.filterMap registry.get
  appends := registry.dirty.members.filterMap fun id =>
    if registry.pending id = [] then none else some ⟨id, registry.pending id⟩
  deleted := registry.deleted.members
  clearEvents := registry.clearEvents.members

def startSave (world : World) : World :=
  let registry := world.registry
  if registry.dirty.members.isEmpty && registry.deleted.members.isEmpty &&
      registry.clearEvents.members.isEmpty then
    { world with drain := .returned world.waiters true, waiters := [] }
  else
    { world with
      registry :=
        { registry with
          dirty := registry.dirty.deleteAll registry.dirty.members
          deleted := registry.deleted.deleteAll registry.deleted.members
          clearEvents := registry.clearEvents.deleteAll registry.clearEvents.members }
      drain := .committing ⟨nextBatch registry, registry.dirty.members, world.waiters⟩
      waiters := [] }

/-- Adds a waiter under a new promise. -/
def wait (world : World) : World :=
  { world with
    registry := { world.registry with nextId := world.registry.nextId + 1 }
    waiters := world.waiters ++ [world.registry.nextId] }

def kick (world : World) : World :=
  match world.drain with
  | .idle => world.startSave
  | _ => world

/-- The promise of the call is the `nextId` it finds. -/
def persist (world : World) : World := world.wait.kick

/-- Stored events leave the front of their queue, if the session still has one. -/
def unqueue (registry : Registry) (append : JournalAppend) : Registry :=
  match registry.pendingEvents.get? append.sessionId with
  | none => registry
  | some queue =>
      { registry with
        pendingEvents :=
          registry.pendingEvents.set append.sessionId (queue.drop append.events.length) }

/-- Work that was not stored is queued again. -/
def requeue (registry : Registry) (save : Save) : Registry :=
  { registry with
    dirty := registry.dirty.addAll save.ids
    deleted := registry.deleted.addAll save.batch.deleted
    clearEvents := registry.clearEvents.addAll save.batch.clearEvents }

def appendIds (save : Save) : List JsString := save.batch.appends.map JournalAppend.sessionId

/-- The storage takes the commit as a whole, or fails it. -/
def storeSettles (world : World) (succeeds : Bool) : Option World :=
  match world.drain with
  | .committing save =>
      if succeeds then
        (world.store.commit save.batch).map fun store =>
          { world with
            store, drain := .settled save true, landed := world.landed.addAll (appendIds save) }
      else some { world with drain := .settled save false }
  | _ => none

def commitReturns (world : World) : Option World :=
  match world.drain with
  | .settled save true =>
      some { world with
        registry := save.batch.appends.foldl unqueue world.registry
        drain := .returned save.waiters true
        landed := world.landed.deleteAll ((appendIds save).filter fun id =>
          (world.registry.pendingEvents.get? id).isSome) }
  | .settled save false =>
      some { world with
        registry := requeue world.registry save, drain := .returned save.waiters false }
  | _ => none

def settle (outcomes : OrderedMap Nat Bool) (waiters : List Nat) (saved : Bool) :
    OrderedMap Nat Bool :=
  waiters.foldl (fun outcomes promise => outcomes.set promise saved) outcomes

/-- Waiters are answered, and those that came meanwhile share the next save. -/
def drainContinues (world : World) : Option World :=
  match world.drain with
  | .returned waiters saved =>
      let answered := { world with outcomes := settle world.outcomes waiters saved }
      some (if answered.waiters.isEmpty then { answered with drain := .idle }
        else answered.startSave)
  | _ => none

/-! ## Discarding -/

/-- One `discard` of `discardPersisted`. -/
def detachOne (state : Registry × List SessionRecord) (id : JsString) :
    Registry × List SessionRecord :=
  match discard state.1 id with
  | (registry, none) => (registry, state.2)
  | (registry, some record) => (registry, state.2 ++ [record])

def detach (registry : Registry) (ids : List JsString) : Registry × List SessionRecord :=
  ids.foldl detachOne (registry, [])

/-- The queue of a session when it was detached. -/
def captured (pending : List (JsString × Option (List BufferMutation))) (id : JsString) :
    Option (List BufferMutation) :=
  (pending.lookup id).join

def restoreOne (pending : List (JsString × Option (List BufferMutation))) (registry : Registry)
    (record : SessionRecord) : Registry :=
  if registry.sessions.has record.sessionId then registry
  else
    let restored :=
      { registry with
        sessions := registry.sessions.set record.sessionId record
        deleted := registry.deleted.delete record.sessionId
        dirty := registry.dirty.add record.sessionId }
    match captured pending record.sessionId with
    | none => restored
    | some events =>
        { restored with
          pendingEvents := restored.pendingEvents.set record.sessionId events }

def setTask (world : World) (task : Nat) (stage : DiscardTask) : World :=
  { world with discards := world.discards.set task stage }

def endTask (world : World) (task : Nat) : World :=
  { world with discards := world.discards.delete task }

def discardPersisted (world : World) (ids : List JsString) : World :=
  (world.setTask world.registry.nextId (.settling world.registry.nextId ids)).persist

/-- `discardPersisted` after the save it waits for. -/
def resumeDiscard (world : World) (task : Nat) : Option World :=
  match world.discards.get? task with
  | none => none
  | some (.settling promise ids) =>
      (world.outcomes.get? promise).map fun saved =>
        if saved then
          let pending := ids.map fun id => (id, world.registry.pendingEvents.get? id)
          let (registry, removed) := detach world.registry ids
          (({ world with registry }).setTask task
            (.deleting registry.nextId pending removed)).persist
        else world.endTask task
  | some (.deleting promise pending removed) =>
      (world.outcomes.get? promise).map fun saved =>
        if saved then world.endTask task
        else
          let registry := removed.foldl (restoreOne pending) world.registry
          (({ world with registry }).setTask task (.restoring registry.nextId)).persist
  | some (.restoring promise) =>
      (world.outcomes.get? promise).map fun _ => world.endTask task

/-! ## Observation -/

def answerCheckpoint (options : RegistryOptions) (world : World) (promise : Nat)
    (result : CheckpointResult) : Option World :=
  match world.registry.loops.get? promise with
  | some loop =>
      match loop.stage with
      | .posting _ =>
          let (registry, saves) := checkpointAnswered options world.registry promise loop result
            world.registry.nextId
          let answered := { world with registry }
          some (if saves then answered.persist else answered)
      | _ => none
  | none => none

def resumeLoop (world : World) (promise : Nat) (now : Int) (uuid : JsString) : Option World :=
  match world.registry.loops.get? promise with
  | some loop =>
      match loop.stage with
      | .posting _ => none
      | .saving save again =>
          (world.outcomes.get? save).map fun saved =>
            { world with
              registry := checkpointSaved world.registry promise loop again saved now uuid }
      | .ended => some { world with registry := loopFinished world.registry promise loop }
  | none => none

def continueFlush (world : World) (task : Nat) (flush : ObservationFlush) (now : Int)
    (uuid : JsString) : World :=
  let (registry, next) := flushRound world.registry flush now uuid
  { world with
    registry
    flushes := match next with
      | none => world.flushes.delete task
      | some flush => world.flushes.set task flush }

def startFlush (options : RegistryOptions) (world : World) (sessionId : JsString) (now : Int)
    (uuid : JsString) : World :=
  if !options.checkpoint then world
  else
    let registry := Producer.startFlush world.registry sessionId
    ({ world with registry := { registry with nextId := registry.nextId + 1 } }).continueFlush
      registry.nextId ⟨sessionId, 0, false, none⟩ now uuid

/-- A flush looks again once the activation it waits for is over, and goes on once
nothing is in flight. -/
def resumeFlush (world : World) (task : Nat) (now : Int) (uuid : JsString) : Option World :=
  match world.flushes.get? task with
  | none => none
  | some flush =>
      match flush.awaiting with
      | some promise =>
          if (world.registry.loops.get? promise).isSome then none
          else
            some { world with
              flushes := world.flushes.set task (awaitObservationIdle world.registry flush) }
      | none => some (world.continueFlush task flush now uuid)

/-! ## What a save leaves alone -/

@[simp] theorem startSave_sessions (world : World) :
    world.startSave.registry.sessions = world.registry.sessions := by
  unfold startSave
  simp only
  split
  · rfl
  · rfl

@[simp] theorem startSave_pendingEvents (world : World) :
    world.startSave.registry.pendingEvents = world.registry.pendingEvents := by
  unfold startSave
  simp only
  split
  · rfl
  · rfl

@[simp] theorem startSave_discards (world : World) :
    world.startSave.discards = world.discards := by
  unfold startSave
  simp only
  split
  · rfl
  · rfl

@[simp] theorem startSave_landed (world : World) : world.startSave.landed = world.landed := by
  unfold startSave
  simp only
  split
  · rfl
  · rfl

@[simp] theorem persist_sessions (world : World) :
    world.persist.registry.sessions = world.registry.sessions := by
  unfold persist kick
  split
  · rw [startSave_sessions]
    rfl
  · rfl

@[simp] theorem persist_discards (world : World) : world.persist.discards = world.discards := by
  unfold persist kick
  split
  · rw [startSave_discards]
    rfl
  · rfl

@[simp] theorem persist_landed (world : World) : world.persist.landed = world.landed := by
  unfold persist kick
  split
  · rw [startSave_landed]
    rfl
  · rfl

/-! ## Steps -/

/-- A new process over what is stored. -/
def boot (store : JournalStore) (nextId : Nat) : World where
  registry := load { Registry.empty with nextId } store.read
  store := store
  drain := .idle
  waiters := []
  outcomes := ∅
  discards := ∅
  flushes := ∅
  accepted := store.events
  landed := ∅

def removedIds : DiscardTask → List JsString
  | .deleting _ _ removed => removed.map SessionRecord.sessionId
  | _ => []

/-- The identifier names a session somewhere, so that it is not drawn again. -/
def InUse (world : World) (id : JsString) : Prop :=
  world.registry.sessions.has id = true ∨ (world.store.session id).isSome = true ∨
    id ∈ world.registry.deleted ∨ id ∈ world.registry.clearEvents ∨
    (∃ save ∈ world.drain.save?, id ∈ save.batch.sessions.map SessionRecord.sessionId ∨
      id ∈ save.batch.deleted ∨ id ∈ save.batch.clearEvents) ∨
    ∃ task ∈ world.discards.values, id ∈ removedIds task

instance (world : World) (id : JsString) : Decidable (world.InUse id) := by
  unfold InUse
  infer_instance

inductive Action where
  | call (call : RegistryCall) (clock : Nat → Int) (uuid : JsString)
  | persist
  | discardPersisted (ids : List JsString)
  | resumeDiscard (task : Nat)
  | storeSettles (succeeds : Bool)
  | commitReturns
  | drainContinues
  | answerCheckpoint (promise : Nat) (result : CheckpointResult)
  | resumeLoop (promise : Nat) (now : Int) (uuid : JsString)
  | flushObservation (sessionId : JsString) (now : Int) (uuid : JsString)
  | resumeFlush (task : Nat) (now : Int) (uuid : JsString)
  | crash

/-- The accepted logs after a call. -/
def record (accepted : JsString → List BufferMutation) :
    Option (JsString × BufferMutation) → JsString → List BufferMutation
  | none => accepted
  | some (id, event) => Function.update accepted id (accepted id ++ [event])

def step (P : Platform) (options : RegistryOptions) (world : World) : Action → Option World
  | .call call clock uuid =>
      if world.InUse uuid then none
      else
        let outcome := call.run P options clock uuid world.registry
        some { world with
          registry := outcome.registry
          accepted := record (Function.update world.accepted uuid []) outcome.accepted
          landed := world.landed.delete uuid }
  | .persist => some world.persist
  | .discardPersisted ids => some (world.discardPersisted ids)
  | .resumeDiscard task => world.resumeDiscard task
  | .storeSettles succeeds => world.storeSettles succeeds
  | .commitReturns => world.commitReturns
  | .drainContinues => world.drainContinues
  | .answerCheckpoint promise result => answerCheckpoint options world promise result
  | .resumeLoop promise now uuid => world.resumeLoop promise now uuid
  | .flushObservation sessionId now uuid => some (startFlush options world sessionId now uuid)
  | .resumeFlush task now uuid => world.resumeFlush task now uuid
  | .crash => some (boot world.store world.registry.nextId)

/-- The worlds that a run of steps leads to, each step meeting a condition on the
world it starts from. -/
inductive Run (P : Platform) (options : RegistryOptions) (condition : World → Action → Prop) :
    World → World → Prop where
  | refl (world : World) : Run P options condition world world
  | step {first world next : World} {action : Action} (run : Run P options condition first world)
      (holds : condition world action) (taken : world.step P options action = some next) :
      Run P options condition first next

/-- Takes a list of steps, each meeting the condition. -/
def steps (P : Platform) (options : RegistryOptions) (condition : World → Action → Prop)
    [∀ world action, Decidable (condition world action)] :
    World → List Action → Option World
  | world, [] => some world
  | world, action :: actions =>
      if condition world action then
        (world.step P options action).bind fun next => steps P options condition next actions
      else none

theorem Run.steps {P : Platform} {options : RegistryOptions}
    {condition : World → Action → Prop} [∀ world action, Decidable (condition world action)]
    {actions : List Action} {first world last : World}
    (run : Run P options condition first world)
    (h : World.steps P options condition world actions = some last) :
    Run P options condition first last := by
  induction actions generalizing world with
  | nil =>
      cases h
      exact run
  | cons action actions ih =>
      rw [World.steps] at h
      split at h
      · obtain ⟨next, hnext, hrest⟩ := Option.bind_eq_some_iff.1 h
        exact ih (run.step ‹_› hnext) hrest
      · cases h

end World

end Pmbah.Producer
