import Pmbah.Producer.Edits

/-!
# What a step can do

The steps of a registry over its journal, with everything a step says when it
is taken.  What checkpoints and flushes do to the registry is summed up as a
change that the journal does not notice.
-/

namespace Pmbah.Producer

open Js Format Library

/-! ## Numbers of objects and promises -/

theorem postRound_nextId (registry : Registry) (promise : Nat) (loop : CheckpointLoop)
    (uuid : JsString) : (postRound registry promise loop uuid).nextId = registry.nextId := by
  unfold postRound
  simp only
  split
  · rfl
  · split
    · rfl
    · rfl

theorem kickCheckpoint_nextId (registry : Registry) (id : JsString) (record : SessionRecord)
    (now : Int) (uuid : JsString) :
    (kickCheckpoint registry id record now uuid).nextId = registry.nextId + 1 := by
  unfold kickCheckpoint
  simp only
  rw [postRound_nextId]
  rfl

theorem checkpointAnswered_nextId (options : RegistryOptions) (registry : Registry)
    (promise : Nat) (loop : CheckpointLoop) (result : CheckpointResult) (save : Nat) :
    (checkpointAnswered options registry promise loop result save).1.nextId =
      registry.nextId := by
  unfold checkpointAnswered
  split
  · rfl
  · simp only
    split
    · rfl
    · rfl

theorem checkpointSaved_nextId (registry : Registry) (promise : Nat) (loop : CheckpointLoop)
    (again : Option Nat) (saved : Bool) (now : Int) (uuid : JsString) :
    (checkpointSaved registry promise loop again saved now uuid).nextId = registry.nextId := by
  unfold checkpointSaved
  repeat' split
  all_goals first
    | rfl
    | exact postRound_nextId _ _ _ _

theorem loopFinished_nextId (registry : Registry) (promise : Nat) (loop : CheckpointLoop) :
    (loopFinished registry promise loop).nextId = registry.nextId := by
  unfold loopFinished
  simp only
  repeat' split
  all_goals rfl

theorem flushRound_nextId (registry : Registry) (flush : ObservationFlush) (now : Int)
    (uuid : JsString) :
    registry.nextId ≤ (flushRound registry flush now uuid).1.nextId := by
  apply flushRound_relates (R := fun registry left => registry.nextId ≤ left.nextId)
  · exact Nat.le_refl _
  · exact Nat.le_refl _
  · intro record _
    rw [kickCheckpoint_nextId]
    exact Nat.le_succ _

namespace World

variable {P : Platform} {options : RegistryOptions} {world next : World}

/-! ## Moves -/

/-- The world after a call. -/
def called (P : Platform) (options : RegistryOptions) (world : World) (made : RegistryCall)
    (clock : Nat → Int) (uuid : JsString) : World :=
  let outcome := made.run P options clock uuid world.registry
  { world with
    registry := outcome.registry
    accepted := record (Function.update world.accepted uuid []) outcome.accepted
    landed := world.landed.delete uuid }

/-- The world after a `discardPersisted` has detached its sessions. -/
def detached (world : World) (task : Nat) (ids : List JsString) : World :=
  ({ world with registry := (detach world.registry ids).1 }).setTask task
    (.deleting (detach world.registry ids).1.nextId
      (ids.map fun id => (id, world.registry.pendingEvents.get? id)) (detach world.registry ids).2)

/-- The world after a `discardPersisted` has put its sessions back. -/
def restored (world : World) (task : Nat)
    (pending : List (JsString × Option (List BufferMutation))) (removed : List SessionRecord) :
    World :=
  ({ world with registry := removed.foldl (restoreOne pending) world.registry }).setTask task
    (.restoring (removed.foldl (restoreOne pending) world.registry).nextId)

/-- The world after storage has taken a commit. -/
def afterCommit (world : World) (save : Save) (store : JournalStore) : World :=
  { world with
    store, drain := .settled save true, landed := world.landed.addAll (appendIds save) }

/-- The world after a commit that succeeded has returned. -/
def afterReturn (world : World) (save : Save) : World :=
  { world with
    registry := save.batch.appends.foldl unqueue world.registry
    drain := .returned save.waiters true
    landed := world.landed.deleteAll ((appendIds save).filter fun id =>
      (world.registry.pendingEvents.get? id).isSome) }

/-- The step goes on with checkpoints or a flush. -/
def Action.observes : Action → Bool
  | .answerCheckpoint _ _ => true
  | .resumeLoop _ _ _ => true
  | .flushObservation _ _ _ => true
  | .resumeFlush _ _ _ => true
  | _ => false

inductive Move (P : Platform) (options : RegistryOptions) (world : World) :
    Action → World → Prop where
  | call {made : RegistryCall} {clock : Nat → Int} {uuid : JsString}
      (hfree : ¬ world.InUse uuid) :
      Move P options world (.call made clock uuid) (world.called P options made clock uuid)
  | persist : Move P options world .persist world.persist
  | settle {ids : List JsString} :
      Move P options world (.discardPersisted ids) (world.discardPersisted ids)
  | detach {task promise : Nat} {ids : List JsString}
      (htask : world.discards.get? task = some (.settling promise ids))
      (hsaved : world.outcomes.get? promise = some true) :
      Move P options world (.resumeDiscard task) (world.detached task ids).persist
  | restore {task promise : Nat} {pending : List (JsString × Option (List BufferMutation))}
      {removed : List SessionRecord}
      (htask : world.discards.get? task = some (.deleting promise pending removed))
      (hfailed : world.outcomes.get? promise = some false) :
      Move P options world (.resumeDiscard task) (world.restored task pending removed).persist
  | finish {task : Nat} : Move P options world (.resumeDiscard task) (world.endTask task)
  | store {save : Save} {store : JournalStore} (hdrain : world.drain = .committing save)
      (hcommit : world.store.commit save.batch = some store) :
      Move P options world (.storeSettles true) (world.afterCommit save store)
  | fail {save : Save} (hdrain : world.drain = .committing save) :
      Move P options world (.storeSettles false) { world with drain := .settled save false }
  | unqueue {save : Save} (hdrain : world.drain = .settled save true) :
      Move P options world .commitReturns (world.afterReturn save)
  | requeue {save : Save} (hdrain : world.drain = .settled save false) :
      Move P options world .commitReturns
        { world with
          registry := requeue world.registry save, drain := .returned save.waiters false }
  | rest {waiters : List Nat} {saved : Bool} (hdrain : world.drain = .returned waiters saved)
      (hempty : world.waiters = []) :
      Move P options world .drainContinues
        { world with drain := .idle, outcomes := World.settle world.outcomes waiters saved }
  | restart {waiters : List Nat} {saved : Bool}
      (hdrain : world.drain = .returned waiters saved) (hwaiting : world.waiters ≠ []) :
      Move P options world .drainContinues
        ({ world with outcomes := World.settle world.outcomes waiters saved }).startSave
  | observe {action : Action} {registry : Registry} {flushes : OrderedMap Nat ObservationFlush}
      (hobserves : action.observes = true) (hsame : SameJournal world.registry registry)
      (hnextId : world.registry.nextId ≤ registry.nextId) :
      Move P options world action { world with registry, flushes }
  | answer {promise : Nat} {result : CheckpointResult} {registry : Registry}
      (hsame : SameJournal world.registry registry)
      (hnextId : registry.nextId = world.registry.nextId) :
      Move P options world (.answerCheckpoint promise result) ({ world with registry }).persist
  | crash : Move P options world .crash (boot world.store world.registry.nextId)

theorem move_resumeDiscard {task : Nat} (h : world.resumeDiscard task = some next) :
    Move P options world (.resumeDiscard task) next := by
  unfold resumeDiscard at h
  split at h
  · cases h
  · rename_i htask
    obtain ⟨saved, hsaved, rfl⟩ := Option.map_eq_some_iff.1 h
    split
    · rename_i htrue
      exact .detach htask (hsaved.trans (congrArg some htrue))
    · exact .finish
  · rename_i htask
    obtain ⟨saved, hsaved, rfl⟩ := Option.map_eq_some_iff.1 h
    split
    · exact .finish
    · rename_i hfalse
      exact .restore htask (hsaved.trans (congrArg some (Bool.eq_false_of_not_eq_true hfalse)))
  · obtain ⟨saved, -, rfl⟩ := Option.map_eq_some_iff.1 h
    exact .finish

theorem move_storeSettles {succeeds : Bool} (h : world.storeSettles succeeds = some next) :
    Move P options world (.storeSettles succeeds) next := by
  unfold storeSettles at h
  split at h
  · rename_i save hdrain
    cases succeeds with
    | true =>
        rw [if_pos rfl] at h
        obtain ⟨store, hcommit, rfl⟩ := Option.map_eq_some_iff.1 h
        exact .store hdrain hcommit
    | false =>
        cases h
        exact .fail hdrain
  · cases h

theorem move_commitReturns (h : world.commitReturns = some next) :
    Move P options world .commitReturns next := by
  unfold commitReturns at h
  split at h
  · cases h
    exact .unqueue ‹_›
  · cases h
    exact .requeue ‹_›
  · cases h

theorem move_drainContinues (h : world.drainContinues = some next) :
    Move P options world .drainContinues next := by
  unfold drainContinues at h
  split at h
  · cases h
    simp only
    split
    · rename_i hempty
      rw [List.isEmpty_iff] at hempty
      exact .rest ‹_› hempty
    · rename_i hwaiting
      rw [List.isEmpty_iff] at hwaiting
      exact .restart ‹_› hwaiting
  · cases h

theorem move_answerCheckpoint {promise : Nat} {result : CheckpointResult}
    (h : answerCheckpoint options world promise result = some next) :
    Move P options world (.answerCheckpoint promise result) next := by
  unfold answerCheckpoint at h
  split at h
  · rename_i loop _
    split at h
    · have hsame := checkpointAnswered_same options world.registry promise loop result
        world.registry.nextId
      have hnextId := checkpointAnswered_nextId options world.registry promise loop result
        world.registry.nextId
      generalize checkpointAnswered options world.registry promise loop result
        world.registry.nextId = answered at h hsame hnextId
      obtain ⟨registry, saves⟩ := answered
      cases h
      split
      · exact .answer hsame hnextId
      · exact .observe rfl hsame hnextId.ge
    · cases h
  · cases h

theorem move_resumeLoop {promise : Nat} {now : Int} {uuid : JsString}
    (h : world.resumeLoop promise now uuid = some next) :
    Move P options world (.resumeLoop promise now uuid) next := by
  unfold resumeLoop at h
  split at h
  · split at h
    · cases h
    · obtain ⟨saved, -, rfl⟩ := Option.map_eq_some_iff.1 h
      exact .observe rfl (checkpointSaved_same _ _ _ _ _ _ _)
        (checkpointSaved_nextId _ _ _ _ _ _ _).ge
    · cases h
      exact .observe rfl (loopFinished_same _ _ _) (loopFinished_nextId _ _ _).ge
  · cases h

theorem move_startFlush {sessionId : JsString} {now : Int} {uuid : JsString} :
    Move P options world (.flushObservation sessionId now uuid)
      (startFlush options world sessionId now uuid) := by
  unfold startFlush
  split
  · exact .observe rfl (.refl _) (Nat.le_refl _)
  · let started : Registry :=
      { Producer.startFlush world.registry sessionId with nextId := world.registry.nextId + 1 }
    have hstarted : SameJournal world.registry started := .of_eq rfl rfl rfl rfl rfl
    have hround := flushRound_same started ⟨sessionId, 0, false, none⟩ now uuid
    have hnextId := flushRound_nextId started ⟨sessionId, 0, false, none⟩ now uuid
    exact .observe rfl (hstarted.trans hround) ((Nat.le_succ _).trans hnextId)

theorem move_resumeFlush {task : Nat} {now : Int} {uuid : JsString}
    (h : world.resumeFlush task now uuid = some next) :
    Move P options world (.resumeFlush task now uuid) next := by
  unfold resumeFlush at h
  split at h
  · cases h
  · split at h
    · split at h
      · cases h
      · cases h
        exact .observe rfl (.refl _) (Nat.le_refl _)
    · cases h
      exact .observe rfl (flushRound_same _ _ _ _) (flushRound_nextId _ _ _ _)

/-- Every step is one of the moves. -/
theorem move_of_step {action : Action} (h : world.step P options action = some next) :
    Move P options world action next := by
  cases action with
  | call made clock uuid =>
      simp only [step] at h
      split at h
      · cases h
      · cases h
        exact .call ‹_›
  | persist =>
      cases h
      exact .persist
  | discardPersisted ids =>
      cases h
      exact .settle
  | resumeDiscard task => exact move_resumeDiscard h
  | storeSettles succeeds => exact move_storeSettles h
  | commitReturns => exact move_commitReturns h
  | drainContinues => exact move_drainContinues h
  | answerCheckpoint promise result => exact move_answerCheckpoint h
  | resumeLoop promise now uuid => exact move_resumeLoop h
  | flushObservation sessionId now uuid =>
      cases h
      exact move_startFlush
  | resumeFlush task now uuid => exact move_resumeFlush h
  | crash =>
      cases h
      exact .crash

end World

end Pmbah.Producer
