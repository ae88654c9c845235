import Pmbah.Producer.Discards

/-!
# Crash consistency

At every point where a process can end, storage holds sessions that describe
exactly their stored rows, as long as no rollback of `discardPersisted` comes
after another commit has taken the deletion.
-/

namespace Pmbah.Producer

open Js Format Library

namespace World

variable {P : Platform} {options : RegistryOptions}

/-- The tip of the event hash chain computed again over stored rows. -/
def recomputedTip (P : Platform) (session : SessionRecord) (rows : List BufferMutation) :
    Except JsError (Option B3Hash) :=
  if rows = [] then .ok none
  else
    (computeEventHashChain P (rows.map BufferMutation.toJson) session.sessionId
      session.formatVersion).map List.getLast?

/-- A session says what its rows are: rows 0 up to its count, the time of the last
one, and the chain over them. -/
structure MatchesRows (P : Platform) (session : SessionRecord) (rows : List BufferMutation) :
    Prop where
  eventCount : session.eventCount = some rows.length
  numbered : rows.map BufferMutation.seq = List.range rows.length
  lastEventT : session.lastEventT = some (lastTime rows)
  tip : recomputedTip P session rows = .ok session.lastEventChainTip

/-- What must hold of storage wherever a process ends. -/
structure CrashConsistent (P : Platform) (store : JournalStore) : Prop where
  described : ∀ id session, store.session id = some session →
    session.continuationAnchor = false → MatchesRows P session (store.events id)
  owned : ∀ id, store.events id ≠ [] → (store.session id).isSome = true

theorem map_seq_of_valid {log : List BufferMutation} (h : ValidLog log) :
    log.map BufferMutation.seq = List.range log.length := by
  apply List.ext_getElem
  · rw [List.length_map, List.length_range]
  · intro i hi _
    rw [List.length_map] at hi
    rw [List.getElem_map, List.getElem_range]
    exact h.seq_eq i log[i] (List.getElem?_eq_getElem hi)

theorem matchesRows_of_describes {session : SessionRecord}
    {rows : List BufferMutation} (h : Describes P session rows) :
    MatchesRows P session rows where
  eventCount := h.eventCount
  numbered := map_seq_of_valid h.valid
  lastEventT := h.lastEventT
  tip := by
    unfold recomputedTip
    split
    · rename_i hempty
      rw [h.tip, hempty]
      rfl
    · rename_i hne
      obtain ⟨tips, htips, htip⟩ := h.chain hne
      rw [htips, htip]
      rfl

theorem crashConsistent_of_durable {store : JournalStore} (h : Durable P store) :
    CrashConsistent P store where
  described id session hsession hanchor :=
    matchesRows_of_describes (h.described id session hsession hanchor)
  owned := h.owned

theorem inv_run (hjournal : options.journal = true) {first world : World}
    (hfirst : Inv P first) (run : Run P options DeletionQueued first world) : Inv P world := by
  induction run with
  | refl => exact hfirst
  | step _ hqueued hnext ih => exact inv_step hjournal ih hqueued hnext

/-- Every run whose rollbacks find their deletions queued keeps storage consistent. -/
theorem crashConsistent_run (hjournal : options.journal = true) {store : JournalStore}
    (hstore : Durable P store) {nextId : Nat} {world : World}
    (run : Run P options DeletionQueued (boot store nextId) world) :
    CrashConsistent P world.store :=
  crashConsistent_of_durable (inv_run hjournal (inv_boot hstore nextId) run).durable

/-! ## A rollback that comes too late -/

def exampleProducer : ProducerIdentity := ⟨js "browser", js "1.0.0", []⟩

def exampleOptions : RegistryOptions := .standard false exampleProducer

def exampleSession : JsString := js "00000000-0000-4000-8000-000000000001"

/-- An identifier that is drawn and not used. -/
def spareUuid : JsString := js "00000000-0000-4000-8000-000000000002"

def exampleClock (_ : Nat) : Int := 1700000000000

def startWriting : Action :=
  .call (.findOrCreate ⟨js "https://example.test", js "/", 1, 0⟩
    ⟨.textarea, js "textarea", none, none, none, none, js "body", 0⟩ (js "textarea")
    ⟨true, false, none⟩) exampleClock exampleSession

def typeLetter : Action :=
  .call (.appendMutation exampleSession
    ⟨.insert, some (.ofNat 0), some (.ofNat 0), some (.ofNat 1), .typing⟩ none)
    exampleClock spareUuid

/-- A commit succeeds or fails, and its waiters hear of it. -/
def commitEnds (succeeds : Bool) : List Action :=
  [.storeSettles succeeds, .commitReturns, .drainContinues]

/-- The deletion fails, and a save that another caller waits for takes it to storage
before the rollback runs. -/
def lateRollback : List Action :=
  [startWriting, typeLetter, .persist] ++ commitEnds true ++
    [.discardPersisted [exampleSession], .drainContinues, .resumeDiscard 2, .persist] ++
    commitEnds false ++ [.resumeDiscard 2] ++ commitEnds true ++ [.storeSettles true]

theorem not_crashConsistent_lateRollback :
    ¬ ∀ world, Run Platform.standard exampleOptions (fun _ _ => True)
        (boot JournalStore.empty 0) world →
      CrashConsistent Platform.standard world.store := by
  intro h
  have hlost : (steps Platform.standard exampleOptions (fun _ _ => True)
      (boot JournalStore.empty 0) lateRollback).any (fun world =>
        world.store.events exampleSession = [] ∧
          (world.store.session exampleSession).any (fun session =>
            session.eventCount = some 1 ∧ session.continuationAnchor = false)) = true := by
    decide +kernel
  obtain ⟨world, hworld, hcheck⟩ := (Option.any_eq_true _ _).1 hlost
  obtain ⟨hrows, hsession⟩ := of_decide_eq_true hcheck
  obtain ⟨session, hget, hcounts⟩ := (Option.any_eq_true _ _).1 hsession
  obtain ⟨hcount, hanchor⟩ := of_decide_eq_true hcounts
  -- The session counts one event, and no row of it is left.
  have hmatches := (h world ((Run.refl _).steps hworld)).described _ session hget hanchor
  have := hmatches.eventCount
  rw [hcount, hrows] at this
  cases this

/-- The deletion fails and the rollback takes it back in time. -/
def timelyRollback : List Action :=
  [startWriting, typeLetter, .persist] ++ commitEnds true ++
    [.discardPersisted [exampleSession], .drainContinues, .resumeDiscard 2] ++
    commitEnds false ++ [.resumeDiscard 2] ++ commitEnds true

theorem crashConsistent_timelyRollback :
    ∃ world, steps Platform.standard exampleOptions DeletionQueued
        (boot JournalStore.empty 0) timelyRollback = some world ∧
      CrashConsistent Platform.standard world.store := by
  obtain ⟨world, hworld⟩ := Option.isSome_iff_exists.1
    (show (steps Platform.standard exampleOptions DeletionQueued (boot JournalStore.empty 0)
      timelyRollback).isSome = true by decide +kernel)
  exact ⟨world, hworld,
    crashConsistent_run rfl (durable_empty Platform.standard) ((Run.refl _).steps hworld)⟩

end World

end Pmbah.Producer
