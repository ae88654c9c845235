import Pmbah.Producer.CrashConsistency
import Pmbah.Producer.Loops

/-!
# One checkpoint at a time

No session ever has two requests out.  A session whose activations are all over
has its flag cleared, as long as no rollback of `discardPersisted` puts back a
session in flight that nobody works for, and no save fails under an activation
that the session's record no longer waits for.
-/

namespace Pmbah.Producer

open Js Format Library

/-- Two requests of one session are never out at once. -/
def ObservesOnce (registry : Registry) : Prop :=
  ∀ p q left right sent posted, registry.loops.get? p = some left →
    registry.loops.get? q = some right → left.stage = .posting sent →
    right.stage = .posting posted → left.sessionId = right.sessionId → p = q

/-- A session is not in flight once its activations have all finished. -/
def NoneStuck (registry : Registry) : Prop :=
  ∀ id record, registry.get id = some record →
    (∀ loop ∈ registry.loops.values, loop.sessionId ≠ id) → record.observation.inFlight = false

namespace Process

variable {P : Platform} {options : RegistryOptions} {process next : Process}

/-- A record that some `discardPersisted` has taken out. -/
def Detached (discards : OrderedMap Nat DiscardTask) (record : SessionRecord) : Prop :=
  ∃ task promise pending removed,
    discards.get? task = some (.deleting promise pending removed) ∧ record ∈ removed

/-- No session is detached twice. -/
structure Apart (discards : OrderedMap Nat DiscardTask) : Prop where
  distinct : ∀ task promise pending removed,
    discards.get? task = some (.deleting promise pending removed) →
      (removed.map SessionRecord.sessionId).Nodup
  apart : ∀ task promise pending removed task' promise' pending' removed',
    discards.get? task = some (.deleting promise pending removed) →
    discards.get? task' = some (.deleting promise' pending' removed') →
    ∀ record ∈ removed, ∀ record' ∈ removed', record.sessionId = record'.sessionId → task = task'

/-- The identifier that a call draws names no session, kept, detached or observed. -/
def Fresh (process : Process) : Action → Prop
  | .call _ _ uuid =>
      process.registry.get uuid = none ∧
        (∀ loop ∈ process.registry.loops.values, loop.sessionId ≠ uuid) ∧
        ∀ task ∈ process.discards.values, uuid ∉ World.removedIds task
  | _ => True

/-- A session that is put back in flight has an activation at work, and an activation
whose save fails is the one that the record object waits for. -/
def Attends (process : Process) : Action → Prop
  | .resumeDiscard task =>
      match process.discards.get? task with
      | some (.deleting promise _ removed) =>
          process.outcomes.get? promise = some false → ∀ record ∈ removed,
            record.observation.inFlight = true → ∃ loop ∈ process.registry.loops.values,
              loop.sessionId = record.sessionId ∧ loop.stage.working = true
      | _ => True
  | .resumeLoop promise _ _ =>
      match process.registry.loops.get? promise with
      | some ⟨id, kicked, .saving save (some _)⟩ =>
          process.outcomes.get? save = some false → ∀ record ∈ process.registry.get id,
            record.observation.inFlight = true →
              process.registry.inFlight.get? id = some promise ∧ kicked = record.objectId
      | _ => True
  | _ => True

/-- What every run keeps. -/
structure Sound (process : Process) : Prop where
  tracked : Tracked process.registry (Detached process.discards)
  apart : Apart process.discards

theorem sound_boot (snapshot : List SessionRecord) (nextId : Nat) :
    Sound (boot snapshot nextId) where
  tracked := by
    have htracked := tracked_boot snapshot nextId
    have hnone : ∀ record, ¬ Detached (boot snapshot nextId).discards record := by
      intro record hdetached
      obtain ⟨task, promise, pending, removed, htask, -⟩ := hdetached
      cases htask
    exact { htracked with
      away := fun p record h => absurd h (hnone record)
      absent := fun record h => absurd h (hnone record) }
  apart := by
    refine ⟨?_, ?_⟩
    · intro task promise pending removed htask
      cases htask
    · intro task promise pending removed _ _ _ _ htask
      cases htask

theorem Fresh.unused {made : RegistryCall} {clock : Nat → Int} {uuid : JsString}
    (h : Fresh process (.call made clock uuid)) :
    Unused process.registry (Detached process.discards) uuid := by
  obtain ⟨-, hloops, htasks⟩ := h
  refine ⟨?_, ?_⟩
  · intro p hp
    obtain ⟨loop, hloop, hid, -⟩ := hp
    exact hloops loop (OrderedMap.mem_values_iff.2 ⟨p, hloop⟩) hid
  · intro record hdetached hid
    obtain ⟨task, promise, pending, removed, htask, hrecord⟩ := hdetached
    apply htasks _ (OrderedMap.mem_values_iff.2 ⟨task, htask⟩)
    rw [← hid]
    exact List.mem_map.2 ⟨record, hrecord, rfl⟩

/-! ## Tasks -/

/-- A task at another stage than its deletion detaches nothing. -/
theorem detached_set {discards : OrderedMap Nat DiscardTask} {task : Nat} {stage : DiscardTask}
    (hstage : ∀ promise pending removed, stage ≠ .deleting promise pending removed)
    {record : SessionRecord} (h : Detached (discards.set task stage) record) :
    Detached discards record := by
  obtain ⟨other, promise, pending, removed, hother, hrecord⟩ := h
  rw [OrderedMap.get?_set] at hother
  split at hother
  · exact absurd (Option.some.inj hother) (hstage _ _ _)
  · exact ⟨other, promise, pending, removed, hother, hrecord⟩

theorem detached_delete {discards : OrderedMap Nat DiscardTask} {task : Nat}
    {record : SessionRecord} (h : Detached (discards.delete task) record) :
    Detached discards record := by
  obtain ⟨other, promise, pending, removed, hother, hrecord⟩ := h
  rw [OrderedMap.get?_delete] at hother
  split at hother
  · cases hother
  · exact ⟨other, promise, pending, removed, hother, hrecord⟩

theorem Apart.fewer {discards later : OrderedMap Nat DiscardTask} (h : Apart discards)
    (hfewer : ∀ task promise pending removed,
      later.get? task = some (.deleting promise pending removed) →
      discards.get? task = some (.deleting promise pending removed)) : Apart later where
  distinct task promise pending removed htask :=
    h.distinct task promise pending removed (hfewer _ _ _ _ htask)
  apart _ _ _ _ _ _ _ _ htask htask' :=
    h.apart _ _ _ _ _ _ _ _ (hfewer _ _ _ _ htask) (hfewer _ _ _ _ htask')

theorem apart_set {discards : OrderedMap Nat DiscardTask} (h : Apart discards) {task : Nat}
    {stage : DiscardTask}
    (hstage : ∀ promise pending removed, stage ≠ .deleting promise pending removed) :
    Apart (discards.set task stage) := by
  apply h.fewer
  intro other promise pending removed hother
  rw [OrderedMap.get?_set] at hother
  split at hother
  · exact absurd (Option.some.inj hother) (hstage _ _ _)
  · exact hother

theorem apart_delete {discards : OrderedMap Nat DiscardTask} (h : Apart discards) (task : Nat) :
    Apart (discards.delete task) := by
  apply h.fewer
  intro other promise pending removed hother
  rw [OrderedMap.get?_delete] at hother
  split at hother
  · cases hother
  · exact hother

theorem Tracked.fewer {registry : Registry} {detached fewer : SessionRecord → Prop}
    (h : Tracked registry detached) (hfewer : ∀ record, fewer record → detached record) :
    Tracked registry fewer :=
  { h with
    away := fun p record hrecord => h.away p record (hfewer record hrecord)
    absent := fun record hrecord => h.absent record (hfewer record hrecord) }

/-- A step that only names a new promise. -/
theorem Sound.persist (h : Sound process) : Sound process.persist where
  tracked := h.tracked.congr rfl rfl rfl (Nat.le_succ _)
  apart := h.apart

theorem Sound.setTask (h : Sound process) {task : Nat} {stage : DiscardTask}
    (hstage : ∀ promise pending removed, stage ≠ .deleting promise pending removed) :
    Sound (process.setTask task stage) where
  tracked := Tracked.fewer h.tracked fun _ => detached_set hstage
  apart := apart_set h.apart hstage

theorem Sound.endTask (h : Sound process) (task : Nat) : Sound (process.endTask task) where
  tracked := Tracked.fewer h.tracked fun _ => detached_delete
  apart := apart_delete h.apart task

/-! ## Discarding -/

theorem Sound.detach (h : Sound process) (task : Nat) (ids : List JsString) :
    Sound (process.detached task ids) := by
  have htaken := detach_taken h.tracked.keyed ids
  have hworks : ∀ {p id}, Works (World.detach process.registry ids).1 p id ↔
      Works process.registry p id := works_congr htaken.loops
  have hdetached : ∀ record, Detached (process.detached task ids).discards record →
      Detached process.discards record ∨
        record ∈ (World.detach process.registry ids).2 := by
    intro record hrecord
    obtain ⟨other, promise, pending, removed, hother, hmem⟩ := hrecord
    change (process.discards.set task _).get? other = _ at hother
    rw [OrderedMap.get?_set] at hother
    split at hother
    · cases hother
      exact Or.inr hmem
    · exact Or.inl ⟨other, promise, pending, removed, hother, hmem⟩
  refine ⟨⟨?_, ?_, ?_, ?_, ?_, ?_, ?_⟩, ⟨?_, ?_⟩⟩
  · intro id record hrecord
    have hrecord : (World.detach process.registry ids).1.get id = some record := hrecord
    rw [htaken.get] at hrecord
    split at hrecord
    · cases hrecord
    · exact h.tracked.keyed id record hrecord
  · intro p loop hloop
    have hloop : (World.detach process.registry ids).1.loops.get? p = some loop := hloop
    rw [htaken.loops] at hloop
    exact (h.tracked.numbered p loop hloop).trans_le htaken.nextId
  · exact fun p q id hp hq => h.tracked.single p q id (hworks.1 hp) (hworks.1 hq)
  · exact fun p q id hp hq => h.tracked.owner p q id (htaken.fewer p id hp) (hworks.1 hq)
  · intro p id record hrecord hp
    have hrecord : (World.detach process.registry ids).1.get id = some record := hrecord
    rw [htaken.get] at hrecord
    split at hrecord
    · cases hrecord
    · exact h.tracked.occupied p id record hrecord (hworks.1 hp)
  · intro p record hrecord hp
    rcases hdetached record hrecord with hbefore | hremoved
    · exact h.tracked.away p record hbefore (hworks.1 hp)
    · obtain ⟨-, kept, objectId, hkept, hcopy⟩ := htaken.removed record hremoved
      have hoccupied := h.tracked.occupied p _ kept hkept (hworks.1 hp)
      rw [hcopy]
      exact hoccupied
  · intro record hrecord
    show (World.detach process.registry ids).1.get record.sessionId = none
    rw [htaken.get]
    rcases hdetached record hrecord with hbefore | hremoved
    · split
      · rfl
      · exact h.tracked.absent record hbefore
    · rw [if_pos (htaken.removed record hremoved).1]
  · intro other promise pending removed hother
    change (process.discards.set task _).get? other = _ at hother
    rw [OrderedMap.get?_set] at hother
    split at hother
    · cases hother
      exact htaken.distinct
    · exact h.apart.distinct other promise pending removed hother
  · -- The sessions taken out now were kept, so that nothing had detached them before.
    have hnew : ∀ record, Detached process.discards record →
        ∀ taken ∈ (World.detach process.registry ids).2,
          record.sessionId ≠ taken.sessionId := by
      intro record hbefore taken htakenOut heq
      obtain ⟨-, kept, -, hkept, -⟩ := htaken.removed taken htakenOut
      rw [← heq, h.tracked.absent record hbefore] at hkept
      cases hkept
    intro first promise pending removed second promise' pending' removed' hfirst hsecond record
      hrecord record' hrecord' heq
    change (process.discards.set task _).get? first = _ at hfirst
    change (process.discards.set task _).get? second = _ at hsecond
    rw [OrderedMap.get?_set] at hfirst hsecond
    by_cases hf : first = task
    · by_cases hs : second = task
      · rw [hf, hs]
      · rw [if_pos hf] at hfirst
        rw [if_neg hs] at hsecond
        cases hfirst
        exact absurd heq.symm
          (hnew record' ⟨second, _, _, _, hsecond, hrecord'⟩ record hrecord)
    · rw [if_neg hf] at hfirst
      by_cases hs : second = task
      · rw [if_pos hs] at hsecond
        cases hsecond
        exact absurd heq (hnew record ⟨first, _, _, _, hfirst, hrecord⟩ record' hrecord')
      · rw [if_neg hs] at hsecond
        exact h.apart.apart _ _ _ _ _ _ _ _ hfirst hsecond record hrecord record' hrecord' heq

theorem Owned.detach {registry : Registry} (h : Owned registry) (hkeyed : Keyed registry)
    (ids : List JsString) : Owned (World.detach registry ids).1 := by
  have htaken := detach_taken hkeyed ids
  intro id record hrecord hflag
  rw [htaken.get] at hrecord
  split at hrecord
  · cases hrecord
  · rename_i hout
    exact (attended_congr htaken.loops (htaken.inFlight id hout)).2 (h id record hrecord hflag)

section restoring

variable {task promise : Nat} {pending : List (JsString × Option (List BufferMutation))}
  {removed : List SessionRecord}

theorem Sound.putBack (h : Sound process)
    (htask : process.discards.get? task = some (.deleting promise pending removed)) :
    PutBack process.registry removed
      (removed.foldl (World.restoreOne pending) process.registry) := by
  apply restoreAll_back (h.apart.distinct _ _ _ _ htask)
  intro record hrecord
  exact h.tracked.absent record ⟨task, _, _, _, htask, hrecord⟩

theorem Sound.restore (h : Sound process)
    (htask : process.discards.get? task = some (.deleting promise pending removed)) :
    Sound (process.restored task pending removed) := by
  have hback := h.putBack htask
  have hworks : ∀ {p id},
      Works (removed.foldl (World.restoreOne pending) process.registry) p id ↔
        Works process.registry p id := works_congr hback.loops
  have hget : ∀ id record,
      (removed.foldl (World.restoreOne pending) process.registry).get id = some record →
      (record ∈ removed ∧ record.sessionId = id) ∨ process.registry.get id = some record := by
    intro id record hrecord
    by_cases hid : id ∈ removed.map SessionRecord.sessionId
    · obtain ⟨kept, hkept, rfl⟩ := List.mem_map.1 hid
      rw [hback.back kept hkept] at hrecord
      cases hrecord
      exact Or.inl ⟨hkept, rfl⟩
    · rw [hback.get id hid] at hrecord
      exact Or.inr hrecord
  have hdetached : ∀ record,
      Detached (process.restored task pending removed).discards record →
      Detached process.discards record ∧
        record.sessionId ∉ removed.map SessionRecord.sessionId := by
    intro record hrecord
    obtain ⟨other, promise', pending', removed', hother, hmem⟩ := hrecord
    change (process.discards.set task _).get? other = _ at hother
    rw [OrderedMap.get?_set] at hother
    split at hother
    · cases hother
    · rename_i hne
      refine ⟨⟨other, _, _, _, hother, hmem⟩, ?_⟩
      intro hid
      obtain ⟨restored, hrestored, heq⟩ := List.mem_map.1 hid
      exact hne (h.apart.apart _ _ _ _ _ _ _ _ hother htask record hmem restored hrestored
        heq.symm)
  refine ⟨⟨?_, ?_, ?_, ?_, ?_, ?_, ?_⟩, apart_set h.apart (by intro _ _ _ heq; cases heq)⟩
  · intro id record hrecord
    rcases hget id record hrecord with ⟨-, hid⟩ | hkept
    · exact hid
    · exact h.tracked.keyed id record hkept
  · intro p loop hloop
    have hloop : (removed.foldl (World.restoreOne pending) process.registry).loops.get? p =
        some loop := hloop
    rw [hback.loops] at hloop
    show p < (removed.foldl (World.restoreOne pending) process.registry).nextId
    rw [hback.nextId]
    exact h.tracked.numbered p loop hloop
  · exact fun p q id hp hq => h.tracked.single p q id (hworks.1 hp) (hworks.1 hq)
  · intro p q id hp hq
    have hp : (removed.foldl (World.restoreOne pending) process.registry).inFlight.get? id =
        some p := hp
    rw [hback.inFlight] at hp
    exact h.tracked.owner p q id hp (hworks.1 hq)
  · intro p id record hrecord hp
    rcases hget id record hrecord with ⟨hmem, hid⟩ | hkept
    · rw [← hid] at hp
      exact h.tracked.away p record ⟨task, _, _, _, htask, hmem⟩ (hworks.1 hp)
    · exact h.tracked.occupied p id record hkept (hworks.1 hp)
  · exact fun p record hrecord hp =>
      h.tracked.away p record (hdetached record hrecord).1 (hworks.1 hp)
  · intro record hrecord
    obtain ⟨hbefore, hout⟩ := hdetached record hrecord
    exact (hback.get _ hout).trans (h.tracked.absent record hbefore)

theorem Owned.restore (h : Owned process.registry) (hsound : Sound process)
    (htask : process.discards.get? task = some (.deleting promise pending removed))
    (hworked : ∀ record ∈ removed, record.observation.inFlight = true →
      ∃ loop ∈ process.registry.loops.values,
        loop.sessionId = record.sessionId ∧ loop.stage.working = true) :
    Owned (removed.foldl (World.restoreOne pending) process.registry) := by
  have hback := hsound.putBack htask
  intro id record hrecord hflag
  apply (attended_congr hback.loops (by rw [hback.inFlight])).2
  by_cases hid : id ∈ removed.map SessionRecord.sessionId
  · obtain ⟨kept, hkept, rfl⟩ := List.mem_map.1 hid
    rw [hback.back kept hkept] at hrecord
    cases hrecord
    obtain ⟨loop, hloop, hsession, hworking⟩ := hworked record hkept hflag
    obtain ⟨p, hp⟩ := OrderedMap.mem_values_iff.1 hloop
    exact Or.inl ⟨p, loop, hp, hsession, hworking⟩
  · rw [hback.get id hid] at hrecord
    exact h id record hrecord hflag

end restoring

/-! ## Steps and runs -/

theorem step_resumeDiscard {task : Nat} (h : process.resumeDiscard task = some next) :
    (∃ promise ids, process.discards.get? task = some (.settling promise ids) ∧
      next = (process.detached task ids).persist) ∨
    (∃ promise pending removed,
      process.discards.get? task = some (.deleting promise pending removed) ∧
      process.outcomes.get? promise = some false ∧
      next = (process.restored task pending removed).persist) ∨
    next = process.endTask task := by
  unfold resumeDiscard at h
  split at h
  · cases h
  · rename_i promise ids htask
    obtain ⟨saved, -, rfl⟩ := Option.map_eq_some_iff.1 h
    split
    · exact Or.inl ⟨promise, ids, htask, rfl⟩
    · exact Or.inr (Or.inr rfl)
  · rename_i promise pending removed htask
    obtain ⟨saved, hsaved, rfl⟩ := Option.map_eq_some_iff.1 h
    split
    · exact Or.inr (Or.inr rfl)
    · rename_i hfailed
      rw [Bool.not_eq_true] at hfailed
      rw [hfailed] at hsaved
      exact Or.inr (Or.inl ⟨promise, pending, removed, htask, hsaved, rfl⟩)
  · obtain ⟨saved, -, rfl⟩ := Option.map_eq_some_iff.1 h
    exact Or.inr (Or.inr rfl)

theorem step_answerCheckpoint {promise : Nat} {result : CheckpointResult}
    (h : answerCheckpoint options process promise result = some next) :
    ∃ loop request, process.registry.loops.get? promise = some loop ∧
      loop.stage = .posting request ∧
      (next = { process with
          registry := (checkpointAnswered options process.registry promise loop result
            process.registry.nextId).1 } ∨
        next = ({ process with
          registry := (checkpointAnswered options process.registry promise loop result
            process.registry.nextId).1 } : Process).persist) := by
  unfold answerCheckpoint at h
  split at h
  · rename_i loop hloop
    split at h
    · rename_i request hposting
      refine ⟨loop, request, hloop, hposting, ?_⟩
      generalize checkpointAnswered options process.registry promise loop result
        process.registry.nextId = answered at h ⊢
      obtain ⟨registry, saves⟩ := answered
      cases h
      cases saves with
      | true => exact Or.inr rfl
      | false => exact Or.inl rfl
    · cases h
  · cases h

theorem step_resumeLoop {promise : Nat} {now : Int} {uuid : JsString}
    (h : process.resumeLoop promise now uuid = some next) :
    ∃ loop, process.registry.loops.get? promise = some loop ∧
      ((∃ save again saved, loop.stage = .saving save again ∧
          process.outcomes.get? save = some saved ∧
          next = { process with
            registry := checkpointSaved process.registry promise loop again saved now uuid }) ∨
        loop.stage = .ended ∧
          next = { process with registry := loopFinished process.registry promise loop }) := by
  unfold resumeLoop at h
  split at h
  · rename_i loop hloop
    refine ⟨loop, hloop, ?_⟩
    split at h
    · cases h
    · rename_i save again hsaving
      obtain ⟨saved, hsaved, rfl⟩ := Option.map_eq_some_iff.1 h
      exact Or.inl ⟨save, again, saved, hsaving, hsaved, rfl⟩
    · cases h
      exact Or.inr ⟨‹_›, rfl⟩
  · cases h

/-- One round of a flush, after it may have been started. -/
theorem step_flush {action : Action} (h : process.step P options action = some next)
    (hflush : (∃ id now uuid, action = .flushObservation id now uuid) ∨
      ∃ task now uuid, action = .resumeFlush task now uuid) :
    (∃ flushes, next = { process with flushes }) ∨ ∃ registry : Registry,
      registry.sessions = process.registry.sessions ∧
      registry.inFlight = process.registry.inFlight ∧
      registry.loops = process.registry.loops ∧ process.registry.nextId ≤ registry.nextId ∧
      next.discards = process.discards ∧ next.outcomes = process.outcomes ∧
      ∃ flush now uuid, next.registry = (flushRound registry flush now uuid).1 := by
  rcases hflush with ⟨id, now, uuid, rfl⟩ | ⟨task, now, uuid, rfl⟩
  · cases h
    unfold startFlush
    split
    · exact Or.inl ⟨process.flushes, rfl⟩
    · exact Or.inr ⟨{ Producer.startFlush process.registry id with
        nextId := process.registry.nextId + 1 }, rfl, rfl, rfl, Nat.le_succ _, rfl, rfl,
        ⟨id, 0, false, none⟩, now, uuid, rfl⟩
  · change process.resumeFlush task now uuid = some next at h
    unfold resumeFlush at h
    split at h
    · cases h
    · split at h
      · split at h
        · cases h
        · cases h
          exact Or.inl ⟨_, rfl⟩
      · cases h
        exact Or.inr ⟨process.registry, rfl, rfl, rfl, Nat.le_refl _, rfl, rfl, _, now, uuid, rfl⟩

theorem sound_step (h : Sound process) {action : Action} (hfresh : Fresh process action)
    (hnext : process.step P options action = some next) :
    Sound next ∧ (Owned process.registry → Attends process action → Owned next.registry) := by
  have hquiet : ∀ later : Process, later.registry.sessions = process.registry.sessions →
      later.registry.inFlight = process.registry.inFlight →
      later.registry.loops = process.registry.loops →
      process.registry.nextId ≤ later.registry.nextId → later.discards = process.discards →
      Sound later ∧ (Owned process.registry → Attends process action → Owned later.registry) := by
    intro later hsessions hinFlight hloops hnextId hdiscards
    refine ⟨⟨?_, ?_⟩, fun howned _ => howned.congr hsessions hinFlight hloops⟩
    · rw [hdiscards]
      exact h.tracked.congr hsessions hinFlight hloops hnextId
    · rw [hdiscards]
      exact h.apart
  have hflushed : ((∃ id now uuid, action = .flushObservation id now uuid) ∨
      ∃ task now uuid, action = .resumeFlush task now uuid) →
      Sound next ∧ (Owned process.registry → Attends process action → Owned next.registry) := by
    intro hflush
    rcases step_flush hnext hflush with ⟨flushes, rfl⟩ |
      ⟨registry, hsessions, hinFlight, hloops, hnextId, hdiscards, -, flush, now, uuid, hround⟩
    · exact hquiet _ rfl rfl rfl (Nat.le_refl _) rfl
    · obtain ⟨htracked, howned⟩ :=
        (h.tracked.congr hsessions hinFlight hloops hnextId).flush flush now uuid
      rw [← hround] at htracked howned
      refine ⟨⟨?_, ?_⟩, fun hbefore _ => howned (hbefore.congr hsessions hinFlight hloops)⟩
      · rw [hdiscards]
        exact htracked
      · rw [hdiscards]
        exact h.apart
  cases action with
  | call made clock uuid =>
      cases hnext
      obtain ⟨htracked, howned⟩ := h.tracked.touches hfresh.unused
        (made.run_touches P options h.tracked.keyed hfresh.1 clock)
      exact ⟨⟨htracked, h.apart⟩, fun hbefore _ => howned hbefore⟩
  | persist =>
      cases hnext
      exact hquiet _ rfl rfl rfl (Nat.le_succ _) rfl
  | queue queues =>
      cases hnext
      exact hquiet _ rfl rfl rfl (Nat.le_refl _) rfl
  | settle waiters saved =>
      cases hnext
      exact hquiet _ rfl rfl rfl (Nat.le_refl _) rfl
  | discardPersisted ids =>
      cases hnext
      exact ⟨(h.setTask (by nofun)).persist, fun howned _ => howned.congr rfl rfl rfl⟩
  | resumeDiscard task =>
      rcases step_resumeDiscard hnext with ⟨promise, ids, -, rfl⟩ |
        ⟨promise, pending, removed, htask, hfailed, rfl⟩ | rfl
      · refine ⟨(h.detach task ids).persist, fun howned _ => ?_⟩
        exact (Owned.detach howned h.tracked.keyed ids).congr rfl rfl rfl
      · refine ⟨(h.restore htask).persist, fun howned hattends => ?_⟩
        simp only [Attends, htask] at hattends
        exact (Owned.restore howned h htask (hattends hfailed)).congr rfl rfl rfl
      · exact ⟨h.endTask task, fun howned _ => howned.congr rfl rfl rfl⟩
  | answerCheckpoint promise result =>
      obtain ⟨loop, request, hloop, hposting, hcases⟩ := step_answerCheckpoint hnext
      obtain ⟨stage, hround⟩ := checkpointAnswered_round process.registry promise hposting
        options result process.registry.nextId
      have hanswered : Sound { process with
          registry := (checkpointAnswered options process.registry promise loop result
            process.registry.nextId).1 } := ⟨h.tracked.round hloop hround, h.apart⟩
      have howned : Owned process.registry → Owned (checkpointAnswered options process.registry
          promise loop result process.registry.nextId).1 := by
        intro howned
        exact howned.round hloop hround fun hlost => hlost.elim
      rcases hcases with rfl | rfl
      · exact ⟨hanswered, fun hbefore _ => howned hbefore⟩
      · exact ⟨hanswered.persist, fun hbefore _ => (howned hbefore).congr rfl rfl rfl⟩
  | resumeLoop promise now uuid =>
      obtain ⟨loop, hloop, ⟨save, again, saved, hsaving, hsaved, rfl⟩ | ⟨hended, rfl⟩⟩ :=
        step_resumeLoop hnext
      · obtain ⟨stage, hround⟩ :=
          checkpointSaved_round process.registry promise hsaving saved now uuid
        refine ⟨⟨h.tracked.round hloop hround, h.apart⟩, fun howned hattends => ?_⟩
        apply howned.round hloop hround
        rintro ⟨rfl, hagain⟩ record hrecord hflag
        obtain ⟨object, rfl⟩ := Option.isSome_iff_exists.1 hagain
        obtain ⟨id, kicked, stage⟩ := loop
        simp only at hsaving hrecord
        simp only [Attends, hloop, hsaving] at hattends
        exact hattends hsaved record hrecord hflag
      · have hfinished := loopFinished_spec process.registry promise loop
        exact ⟨⟨h.tracked.finish hfinished, h.apart⟩, fun howned _ =>
          howned.finish hloop hended hfinished⟩
  | flushObservation id now uuid => exact hflushed (Or.inl ⟨id, now, uuid, rfl⟩)
  | resumeFlush task now uuid => exact hflushed (Or.inr ⟨task, now, uuid, rfl⟩)
  | crash snapshot =>
      cases hnext
      exact ⟨sound_boot snapshot _, fun _ _ => owned_boot snapshot _⟩

theorem Sound.observesOnce (h : Sound process) : ObservesOnce process.registry := by
  intro p q left right sent posted hleft hright hsent hposted heq
  apply h.tracked.single p q left.sessionId
  · exact ⟨left, hleft, rfl, by rw [hsent]; rfl⟩
  · exact ⟨right, hright, heq.symm, by rw [hposted]; rfl⟩

theorem noneStuck_of_owned {registry : Registry} (h : Owned registry) : NoneStuck registry := by
  intro id record hrecord hover
  by_contra hflag
  rw [Bool.not_eq_false] at hflag
  rcases h id record hrecord hflag with ⟨p, loop, hloop, hid, -⟩ | ⟨p, loop, hloop, -, hid, -⟩
  · exact hover loop (OrderedMap.mem_values_iff.2 ⟨p, hloop⟩) hid
  · exact hover loop (OrderedMap.mem_values_iff.2 ⟨p, hloop⟩) hid

theorem sound_run {first : Process} (hfirst : Sound first)
    (run : Run (step P options) Fresh first process) : Sound process :=
  run.invariant (fun _ _ _ h hfresh hnext => (sound_step h hfresh hnext).1) hfirst

theorem owned_run {first : Process} (hfirst : Sound first) (howned : Owned first.registry)
    (run : Run (step P options) (fun process action => process.Fresh action ∧
      process.Attends action) first process) :
    Sound process ∧ Owned process.registry := by
  refine run.invariant (I := fun process => Sound process ∧ Owned process.registry) ?_
    ⟨hfirst, howned⟩
  intro state action next h hcondition hnext
  obtain ⟨hsound, hkept⟩ := sound_step h.1 hcondition.1 hnext
  exact ⟨hsound, hkept h.2 hcondition.2⟩

instance (process : Process) (action : Action) : Decidable (process.Fresh action) := by
  unfold Fresh
  split
  · infer_instance
  · infer_instance

instance (process : Process) (action : Action) : Decidable (process.Attends action) := by
  unfold Attends
  split
  · split
    · infer_instance
    · infer_instance
  · split
    · infer_instance
    · infer_instance
  · infer_instance

end Process

namespace World

variable {P : Platform} {options : RegistryOptions}

/-- The identifier that a call draws names no session, kept, detached or observed. -/
def Fresh (world : World) (action : Action) : Prop :=
  ∀ acted ∈ action.process world, world.process.Fresh acted

/-- No step loses the activation that a session in flight waits for. -/
def Attends (world : World) (action : Action) : Prop :=
  ∀ acted ∈ action.process world, world.process.Attends acted

instance (world : World) (action : Action) : Decidable (world.Fresh action) :=
  inferInstanceAs (Decidable (∀ acted ∈ action.process world, world.process.Fresh acted))

instance (world : World) (action : Action) : Decidable (world.Attends action) :=
  inferInstanceAs (Decidable (∀ acted ∈ action.process world, world.process.Attends acted))

/-- No session has two requests out, and none stays in flight without an activation,
over any storage and over the journal. -/
theorem observesOnce_run (P : Platform) (options : RegistryOptions) :
    (∀ snapshot nextId process,
      Library.Run (Process.step P options) Process.Fresh (Process.boot snapshot nextId) process →
        ObservesOnce process.registry) ∧
    (∀ snapshot nextId process,
      Library.Run (Process.step P options)
          (fun process action => process.Fresh action ∧ process.Attends action)
          (Process.boot snapshot nextId) process →
        NoneStuck process.registry) ∧
    (∀ store nextId world, Run P options Fresh (boot store nextId) world →
      ObservesOnce world.registry) ∧
    ∀ store nextId world,
      Run P options (fun world action => world.Fresh action ∧ world.Attends action)
          (boot store nextId) world →
        NoneStuck world.registry := by
  have honce : ∀ snapshot nextId process,
      Library.Run (Process.step P options) Process.Fresh (Process.boot snapshot nextId) process →
        ObservesOnce process.registry := by
    intro snapshot nextId process run
    exact (Process.sound_run (Process.sound_boot snapshot nextId) run).observesOnce
  have hstuck : ∀ snapshot nextId process,
      Library.Run (Process.step P options)
          (fun process action => process.Fresh action ∧ process.Attends action)
          (Process.boot snapshot nextId) process →
        NoneStuck process.registry := by
    intro snapshot nextId process run
    exact Process.noneStuck_of_owned
      (Process.owned_run (Process.sound_boot snapshot nextId) (owned_boot snapshot nextId) run).2
  refine ⟨honce, hstuck, ?_, ?_⟩
  · intro store nextId world run
    apply honce store.read nextId world.process
    apply follow_run _ _ run
    · intro process action hsaves
      cases action with
      | persist => trivial
      | queue => trivial
      | settle => trivial
      | _ => cases hsaves
    · exact fun world action acted hfresh hacted => hfresh acted hacted
  · intro store nextId world run
    apply hstuck store.read nextId world.process
    apply follow_run _ _ run
    · intro process action hsaves
      cases action with
      | persist => exact ⟨trivial, trivial⟩
      | queue => exact ⟨trivial, trivial⟩
      | settle => exact ⟨trivial, trivial⟩
      | _ => cases hsaves
    · exact fun world action acted hboth hacted => ⟨hboth.1 acted hacted, hboth.2 acted hacted⟩

/-! ## A session that stays in flight -/

def observedOptions : RegistryOptions := .standard true exampleProducer

/-- The checkpoint is answered while its session is detached, and then the deletion
fails: the session comes back in flight, with nobody working for it. -/
def answeredWhileDetached : List Action :=
  [startWriting, typeLetter, .discardPersisted [exampleSession]] ++ commitEnds true ++
    [.resumeDiscard 2, .answerCheckpoint 1 (.failed .transient 0 (js "checkpoint_timeout")),
      .resumeLoop 1 0 spareUuid] ++
    commitEnds false ++ [.resumeDiscard 2]

theorem not_noneStuck_answeredWhileDetached :
    ¬ ∀ world, Run Platform.standard observedOptions Fresh (boot JournalStore.empty 0) world →
      NoneStuck world.registry := by
  intro h
  have hstuck : (steps Platform.standard observedOptions Fresh (boot JournalStore.empty 0)
      answeredWhileDetached).any (fun world =>
        world.registry.loops.values = [] ∧
          (world.registry.get exampleSession).any fun record =>
            record.observation.inFlight = true) = true := by
    decide +kernel
  obtain ⟨world, hworld, hcheck⟩ := (Option.any_eq_true _ _).1 hstuck
  obtain ⟨hloops, hsession⟩ := of_decide_eq_true hcheck
  obtain ⟨record, hget, hflag⟩ := (Option.any_eq_true _ _).1 hsession
  have hcleared := h world ((Run.refl _).steps hworld) exampleSession record hget
    (by rw [hloops]; nofun)
  rw [of_decide_eq_true hflag] at hcleared
  cases hcleared

/-- The checkpoint is answered after the rollback. -/
def answeredAfterRollback : List Action :=
  [startWriting, typeLetter, .discardPersisted [exampleSession]] ++ commitEnds true ++
    [.resumeDiscard 2] ++ commitEnds false ++
    [.resumeDiscard 2, .answerCheckpoint 1 (.failed .transient 0 (js "checkpoint_timeout"))]

theorem noneStuck_answeredAfterRollback :
    ∃ world, steps Platform.standard observedOptions
        (fun world action => world.Fresh action ∧ world.Attends action)
        (boot JournalStore.empty 0) answeredAfterRollback = some world ∧
      NoneStuck world.registry := by
  obtain ⟨world, hworld⟩ := Option.isSome_iff_exists.1
    (show (steps Platform.standard observedOptions
      (fun world action => world.Fresh action ∧ world.Attends action)
      (boot JournalStore.empty 0) answeredAfterRollback).isSome = true by decide +kernel)
  exact ⟨world, hworld, (observesOnce_run Platform.standard observedOptions).2.2.2 _ _ world
    ((Run.refl _).steps hworld)⟩

end World

end Pmbah.Producer
