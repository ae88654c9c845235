import Pmbah.Producer.Divergence

/-!
# Rounds of `flushObservation`

A call starts nothing for a session of which nothing is committed.  It starts at most
two activations, one in each of its rounds, and ends when its second round is over.
-/

namespace Pmbah.Producer

open Js Format Library

variable {P : Platform} {options : RegistryOptions} {registry : Registry}
  {flush : ObservationFlush} {now : Int} {uuid : JsString}

/-- A round for a session of which nothing is committed starts nothing. -/
theorem RoundOf.loops {result : Registry × Option ObservationFlush}
    (h : RoundOf registry flush now uuid result)
    (hnothing : ∀ record, registry.get flush.sessionId = some record →
      record.observation.lastCommittedEventCount = 0) : result.1.loops = registry.loops := by
  cases h with
  | starts _ hget _ _ hcommitted => exact absurd (hnothing _ hget) hcommitted
  | _ => rfl

/-- A call goes from round to round and has none after its second. -/
theorem RoundOf.next {result : Registry × Option ObservationFlush}
    (h : RoundOf registry flush now uuid result) {later : ObservationFlush}
    (hlater : result.2 = some later) :
    later.round = flush.round + 1 ∧ flush.round < 2 ∧ later.sessionId = flush.sessionId := by
  cases h with
  | joins hround =>
      cases hlater
      exact ⟨rfl, hround, rfl⟩
  | starts hround =>
      cases hlater
      exact ⟨rfl, hround, rfl⟩
  | _ => cases hlater

/-- A round that ends the call starts nothing. -/
theorem RoundOf.ended {result : Registry × Option ObservationFlush}
    (h : RoundOf registry flush now uuid result) (hended : result.2 = none) :
    result.1.loops = registry.loops := by
  cases h with
  | joins => cases hended
  | starts => cases hended
  | _ => rfl

namespace Process

variable {process next : Process} {task : Nat}

/-! ## Steps of a call -/

/-- The state in which a call of its session makes its first round. -/
def begun (process : Process) (id : JsString) : Process :=
  { process with
    registry := { Producer.startFlush process.registry id with
      nextId := process.registry.nextId + 1 } }

theorem Sound.begun (h : Sound process) (id : JsString) : Sound (process.begun id) where
  tracked := h.tracked.congr rfl rfl rfl (Nat.le_succ _)
  apart := h.apart

theorem startFlush_eq (process : Process) (hcheckpoint : options.checkpoint = true)
    (id : JsString) (now : Int) (uuid : JsString) :
    Process.startFlush options process id now uuid =
      (process.begun id).continueFlush process.registry.nextId ⟨id, 0, false, none⟩ now uuid := by
  unfold startFlush
  rw [hcheckpoint]
  rfl

theorem startFlush_unwired (process : Process) (hcheckpoint : options.checkpoint = false)
    (id : JsString) (now : Int) (uuid : JsString) :
    Process.startFlush options process id now uuid = process := by
  unfold startFlush
  rw [hcheckpoint]
  rfl

/-- A step of the call under way as `task`, or the step that begins it. -/
inductive Turns (process : Process) (task : Nat) : JsString → Action → Prop where
  | begins (id : JsString) (now : Int) (uuid : JsString)
      (htask : task = process.registry.nextId) :
      Turns process task id (.flushObservation id now uuid)
  | resumes {flush : ObservationFlush} (now : Int) (uuid : JsString)
      (hflush : process.flushes.get? task = some flush) :
      Turns process task flush.sessionId (.resumeFlush task now uuid)

theorem step_resumeFlush {now : Int} {uuid : JsString}
    (h : process.resumeFlush task now uuid = some next) :
    ∃ flush, process.flushes.get? task = some flush ∧
      ((∃ promise, flush.awaiting = some promise ∧
          process.registry.loops.get? promise = none ∧
          next = { process with
            flushes := process.flushes.set task
              (awaitObservationIdle process.registry flush) }) ∨
        flush.awaiting = none ∧ next = process.continueFlush task flush now uuid) := by
  unfold resumeFlush at h
  split at h
  · cases h
  · rename_i flush hflush
    refine ⟨flush, hflush, ?_⟩
    split at h
    · rename_i promise hawaiting
      split at h
      · cases h
      · rename_i hover
        cases h
        exact Or.inl ⟨promise, hawaiting, by simpa using hover, rfl⟩
    · cases h
      exact Or.inr ⟨‹_›, rfl⟩

theorem continueFlush_flushes (process : Process) (task : Nat) (flush : ObservationFlush)
    (now : Int) (uuid : JsString) (other : Nat) :
    (process.continueFlush task flush now uuid).flushes.get? other =
      if other = task then (flushRound process.registry flush now uuid).2
      else process.flushes.get? other := by
  unfold continueFlush
  generalize flushRound process.registry flush now uuid = result
  obtain ⟨registry, later⟩ := result
  cases later with
  | none => exact OrderedMap.get?_delete _ _ _
  | some later => exact OrderedMap.get?_set _ _ _ _

/-- A step of a call for a session of which nothing is committed starts nothing. -/
theorem turns_loops {id : JsString} {action : Action} (hturns : Turns process task id action)
    (hnothing : ∀ record, process.registry.get id = some record →
      record.observation.lastCommittedEventCount = 0)
    (h : process.step P options action = some next) :
    next.registry.loops = process.registry.loops := by
  cases hturns with
  | begins _ now uuid _ =>
      cases h
      cases hcheckpoint : options.checkpoint with
      | false => rw [startFlush_unwired process hcheckpoint]
      | true =>
          rw [startFlush_eq process hcheckpoint]
          exact (flushRound_spec (process.begun id).registry ⟨id, 0, false, none⟩ now uuid).loops
            hnothing
  | resumes now uuid hflush =>
      obtain ⟨flush, hfound, ⟨promise, -, -, rfl⟩ | ⟨-, rfl⟩⟩ := step_resumeFlush h
      · rfl
      · rw [hflush] at hfound
        cases hfound
        exact (flushRound_spec _ _ now uuid).loops hnothing

/-! ## At most two rounds -/

theorem Touch.nextId_le {drops : JsString → Prop} {uuid : JsString} {registry next : Registry}
    (h : Touch options drops uuid registry next) : registry.nextId ≤ next.nextId := by
  cases h with
  | quiet _ _ _ hnextId => exact hnextId
  | write => exact Nat.le_refl _
  | kick =>
      rw [kickCheckpoint_nextId]
      exact Nat.le_succ _
  | insert => exact Nat.le_succ _
  | remove _ hnextId => exact hnextId
  | anchor _ _ _ _ _ hnextId => exact hnextId

theorem Touches.nextId_le {drops : JsString → Prop} {uuid : JsString} {registry next : Registry}
    (h : Touches options drops uuid registry next) : registry.nextId ≤ next.nextId := by
  induction h with
  | nil => exact Nat.le_refl _
  | cons head _ ih => exact (Touch.nextId_le head).trans ih

theorem load_nextId_le (registry : Registry) (snapshot : List SessionRecord) :
    registry.nextId ≤ (load registry snapshot).nextId := by
  unfold load
  generalize hstart : { registry with
    sessions := ∅, pendingEvents := ∅, dirty := ∅, deleted := ∅, clearEvents := ∅ } = start
  have hsame : registry.nextId = start.nextId := by rw [← hstart]
  rw [hsame]
  clear hstart hsame
  induction snapshot generalizing start with
  | nil => exact Nat.le_refl _
  | cons first snapshot ih => exact (Nat.le_succ _).trans (ih (loadRecord start first))

/-- Names are never given out again. -/
theorem nextId_le_step (hsound : Sound process) {action : Action}
    (hfresh : process.Fresh action) (h : process.step P options action = some next) :
    process.registry.nextId ≤ next.registry.nextId := by
  cases action with
  | call made clock uuid =>
      cases h
      exact Touches.nextId_le
        (made.run_touches P options hsound.tracked.keyed hfresh.1 clock)
  | persist =>
      cases h
      exact Nat.le_succ _
  | queue queues =>
      cases h
      exact Nat.le_refl _
  | settle waiters saved =>
      cases h
      exact Nat.le_refl _
  | discardPersisted ids =>
      cases h
      exact Nat.le_succ _
  | resumeDiscard task =>
      rcases step_resumeDiscard h with ⟨promise, ids, -, rfl⟩ |
        ⟨promise, pending, removed, htask, -, rfl⟩ | rfl
      · exact (detach_taken hsound.tracked.keyed ids).nextId.trans (Nat.le_succ _)
      · exact (hsound.putBack htask).nextId.ge.trans (Nat.le_succ _)
      · exact Nat.le_refl _
  | answerCheckpoint promise result =>
      obtain ⟨loop, request, -, hposting, hcases⟩ := step_answerCheckpoint h
      obtain ⟨stage, hround⟩ := checkpointAnswered_round process.registry promise hposting
        options result process.registry.nextId
      rcases hcases with rfl | rfl
      · exact hround.nextId.ge
      · exact hround.nextId.ge.trans (Nat.le_succ _)
  | resumeLoop promise now uuid =>
      obtain ⟨loop, -, ⟨save, again, saved, hsaving, -, rfl⟩ | ⟨-, rfl⟩⟩ := step_resumeLoop h
      · obtain ⟨stage, hround⟩ :=
          checkpointSaved_round process.registry promise hsaving saved now uuid
        exact hround.nextId.ge
      · exact (loopFinished_spec process.registry promise loop).nextId.ge
  | flushObservation id now uuid =>
      cases h
      cases hcheckpoint : options.checkpoint with
      | false => rw [startFlush_unwired process hcheckpoint]
      | true =>
          rw [startFlush_eq process hcheckpoint]
          exact (Nat.le_succ _).trans
            (flushRound_nextId (process.begun id).registry ⟨id, 0, false, none⟩ now uuid)
  | resumeFlush task now uuid =>
      obtain ⟨flush, -, ⟨promise, -, -, rfl⟩ | ⟨-, rfl⟩⟩ := step_resumeFlush h
      · exact Nat.le_refl _
      · exact flushRound_nextId _ _ _ _
  | crash snapshot =>
      cases h
      exact load_nextId_le { Registry.empty with nextId := process.registry.nextId } snapshot

/-- How many activations a step adds. -/
def started (process next : Process) : Nat :=
  next.registry.loops.values.length - process.registry.loops.values.length

/-- How many of them the call under way as `task` starts. -/
def startedBy (task : Nat) (process next : Process) : Action → Nat
  | .resumeFlush resumed _ _ => if resumed = task then started process next else 0
  | _ => 0

/-- Beside the process, how many activations the call under way as `task` has started. -/
def countStarts (P : Platform) (options : RegistryOptions) (task : Nat)
    (state : Process × Nat) (action : Action) : Option (Process × Nat) :=
  (state.1.step P options action).map fun next =>
    (next, state.2 + startedBy task state.1 next action)

/-- A round starts at most one activation. -/
theorem started_continueFlush (process : Process) (task : Nat) (flush : ObservationFlush)
    (now : Int) (uuid : JsString) :
    started process (process.continueFlush task flush now uuid) ≤ 1 ∧
      ((flushRound process.registry flush now uuid).2 = none →
        started process (process.continueFlush task flush now uuid) = 0) := by
  have hround := flushRound_spec process.registry flush now uuid
  have hloops : (process.continueFlush task flush now uuid).registry.loops =
      (flushRound process.registry flush now uuid).1.loops := rfl
  rw [started, hloops]
  refine ⟨?_, fun hended => ?_⟩
  · generalize flushRound process.registry flush now uuid = result at hround
    cases hround with
    | @starts record _ _ _ _ _ _ hstarted =>
        obtain ⟨written, stage, hkick⟩ := kickedBy_of_eq hstarted
        have hset := OrderedMap.length_values_set_le process.registry.loops
          process.registry.nextId ⟨flush.sessionId, record.objectId, stage⟩
        rw [← hkick.loops] at hset
        exact Nat.sub_le_iff_le_add'.2 hset
    | _ => simp [endFlush]
  · rw [hround.ended hended]
    omega

/-- A call that waits has had a round for each activation it has started. -/
structure Bounded (task : Nat) (state : Process × Nat) : Prop where
  sound : Sound state.1
  begun : task < state.1.registry.nextId
  starts : state.2 ≤ 2
  waiting : ∀ flush, state.1.flushes.get? task = some flush →
    state.2 ≤ flush.round ∧ flush.round ≤ 2

/-- The round of a call that waits on afterwards. -/
theorem bounded_continueFlush {state : Process × Nat} (h : Bounded task state)
    {flush : ObservationFlush} (hflush : state.2 ≤ flush.round ∧ flush.round ≤ 2) (now : Int)
    (uuid : JsString) (hsound : Sound (state.1.continueFlush task flush now uuid)) :
    Bounded task (state.1.continueFlush task flush now uuid,
      state.2 + started state.1 (state.1.continueFlush task flush now uuid)) := by
  obtain ⟨hone, hnone⟩ := started_continueFlush state.1 task flush now uuid
  have hround := flushRound_spec state.1.registry flush now uuid
  have hstarts := h.starts
  refine ⟨hsound, h.begun.trans_le (flushRound_nextId state.1.registry flush now uuid), ?_, ?_⟩
  · show state.2 + started state.1 _ ≤ 2
    cases hnext : (flushRound state.1.registry flush now uuid).2 with
    | none =>
        rw [hnone hnext]
        exact hstarts
    | some later =>
        obtain ⟨-, hspent, -⟩ := hround.next hnext
        omega
  · intro later hlater
    rw [continueFlush_flushes, if_pos rfl] at hlater
    obtain ⟨hlaterRound, hspent, -⟩ := hround.next hlater
    show state.2 + started state.1 _ ≤ _ ∧ _
    omega

theorem bounded_begins (hsound : Sound process) (hcheckpoint : options.checkpoint = true)
    {id : JsString} {now : Int} {uuid : JsString}
    (h : process.step P options (.flushObservation id now uuid) = some next) :
    Bounded process.registry.nextId (next, started process next) := by
  have hfresh : process.Fresh (.flushObservation id now uuid) := trivial
  have hnext := (sound_step hsound hfresh h).1
  cases h
  rw [startFlush_eq process hcheckpoint] at hnext ⊢
  obtain ⟨hone, hnone⟩ := started_continueFlush (process.begun id) process.registry.nextId
    ⟨id, 0, false, none⟩ now uuid
  have hround := flushRound_spec (process.begun id).registry ⟨id, 0, false, none⟩ now uuid
  have hbegun := flushRound_nextId (process.begun id).registry ⟨id, 0, false, none⟩ now uuid
  refine ⟨hnext, (Nat.lt_succ_self _).trans_le hbegun, hone.trans (by omega), ?_⟩
  intro later hlater
  rw [continueFlush_flushes, if_pos rfl] at hlater
  obtain ⟨hlaterRound, -, -⟩ := hround.next hlater
  have hone' : started process ((process.begun id).continueFlush process.registry.nextId
    ⟨id, 0, false, none⟩ now uuid) ≤ 1 := hone
  have hfirst : later.round = 1 := hlaterRound
  show started process _ ≤ _ ∧ _
  omega

/-- The calls that wait, after a step that is not one of theirs. -/
theorem flushes_step {action : Action} (hbegun : task < process.registry.nextId)
    (hother : ∀ now uuid, action ≠ .resumeFlush task now uuid)
    (h : process.step P options action = some next) (flush : ObservationFlush)
    (hflush : next.flushes.get? task = some flush) : process.flushes.get? task = some flush := by
  cases action with
  | call made clock uuid =>
      cases h
      exact hflush
  | persist =>
      cases h
      exact hflush
  | queue queues =>
      cases h
      exact hflush
  | settle waiters saved =>
      cases h
      exact hflush
  | discardPersisted ids =>
      cases h
      exact hflush
  | resumeDiscard discard =>
      rcases step_resumeDiscard h with ⟨promise, ids, -, rfl⟩ |
        ⟨promise, pending, removed, -, -, rfl⟩ | rfl
      · exact hflush
      · exact hflush
      · exact hflush
  | answerCheckpoint promise result =>
      obtain ⟨loop, request, -, -, rfl | rfl⟩ := step_answerCheckpoint h
      · exact hflush
      · exact hflush
  | resumeLoop promise now uuid =>
      obtain ⟨loop, -, ⟨save, again, saved, -, -, rfl⟩ | ⟨-, rfl⟩⟩ := step_resumeLoop h
      · exact hflush
      · exact hflush
  | flushObservation id now uuid =>
      cases h
      cases hcheckpoint : options.checkpoint with
      | false => rwa [startFlush_unwired process hcheckpoint] at hflush
      | true =>
          rw [startFlush_eq process hcheckpoint, continueFlush_flushes,
            if_neg hbegun.ne] at hflush
          exact hflush
  | resumeFlush resumed now uuid =>
      have hne : task ≠ resumed := by
        rintro rfl
        exact hother now uuid rfl
      obtain ⟨resuming, -, ⟨promise, -, -, rfl⟩ | ⟨-, rfl⟩⟩ := step_resumeFlush h
      · change (process.flushes.set resumed _).get? task = some flush at hflush
        rwa [OrderedMap.get?_set_ne _ _ hne] at hflush
      · rwa [continueFlush_flushes, if_neg hne] at hflush
  | crash snapshot =>
      cases h
      cases hflush

theorem bounded_step {state later : Process × Nat} (h : Bounded task state) {action : Action}
    (hfresh : state.1.Fresh action)
    (hnext : countStarts P options task state action = some later) : Bounded task later := by
  obtain ⟨next, hstep, rfl⟩ := Option.map_eq_some_iff.1 hnext
  have hsound := (sound_step h.sound hfresh hstep).1
  by_cases hours : ∃ now uuid, action = .resumeFlush task now uuid
  · obtain ⟨now, uuid, rfl⟩ := hours
    simp only [startedBy, if_true]
    obtain ⟨flush, hflush, ⟨promise, -, -, rfl⟩ | ⟨-, rfl⟩⟩ := step_resumeFlush hstep
    · have hidle : started state.1 { state.1 with
          flushes := state.1.flushes.set task
            (awaitObservationIdle state.1.registry flush) } = 0 := Nat.sub_self _
      rw [hidle]
      refine ⟨hsound, h.begun, h.starts, ?_⟩
      intro waiting hwaiting
      change (state.1.flushes.set task _).get? task = some waiting at hwaiting
      rw [OrderedMap.get?_set_self] at hwaiting
      cases hwaiting
      exact h.waiting flush hflush
    · exact bounded_continueFlush h (h.waiting flush hflush) now uuid hsound
  · have hother : ∀ now uuid, action ≠ .resumeFlush task now uuid :=
      fun now uuid heq => hours ⟨now, uuid, heq⟩
    have hcount : startedBy task state.1 next action = 0 := by
      unfold startedBy
      split
      · rename_i resumed now uuid
        rw [if_neg]
        rintro rfl
        exact hours ⟨now, uuid, rfl⟩
      · rfl
    rw [hcount, Nat.add_zero]
    refine ⟨hsound, h.begun.trans_le (nextId_le_step h.sound hfresh hstep), h.starts, ?_⟩
    intro flush hflush
    exact h.waiting flush (flushes_step h.begun hother hstep flush hflush)

theorem bounded_run {state later : Process × Nat} (h : Bounded task state)
    (run : Run (countStarts P options task) (fun state action => state.1.Fresh action) state
      later) : Bounded task later :=
  run.invariant (fun _ _ _ h hfresh hnext => bounded_step h hfresh hnext) h

/-- A call that has had both its rounds returns in two steps once nothing is in flight for
its session. -/
theorem returns_spent {flush : ObservationFlush}
    (hflush : process.flushes.get? task = some flush) (hspent : flush.round = 2)
    (hover : ∀ promise ∈ flush.awaiting, process.registry.loops.get? promise = none)
    (hidle : process.registry.inFlight.get? flush.sessionId = none) (now : Int)
    (uuid : JsString) :
    ∃ next, process.resumeFlush task now uuid = some next ∧
      (next.flushes.get? task = none ∨
        ∃ last, next.resumeFlush task now uuid = some last ∧ last.flushes.get? task = none) := by
  have hends : ∀ registry : Registry, ∀ flush : ObservationFlush, flush.round = 2 →
      (flushRound registry flush now uuid).2 = none := by
    intro registry flush hspent
    unfold flushRound
    rw [if_pos hspent.ge]
  cases hawaiting : flush.awaiting with
  | none =>
      refine ⟨process.continueFlush task flush now uuid, ?_, Or.inl ?_⟩
      · simp only [resumeFlush, hflush, hawaiting]
      · rw [continueFlush_flushes, if_pos rfl]
        exact hends process.registry flush hspent
  | some promise =>
      have hended := hover promise hawaiting
      let waiting := awaitObservationIdle process.registry flush
      let next : Process := { process with flushes := process.flushes.set task waiting }
      have hnext : next.flushes.get? task = some waiting := OrderedMap.get?_set_self _ _ _
      refine ⟨next, ?_, Or.inr ⟨next.continueFlush task waiting now uuid, ?_, ?_⟩⟩
      · simp only [resumeFlush, hflush, hawaiting, hended]
        rfl
      · have hready : waiting.awaiting = none := hidle
        simp only [resumeFlush, hnext, hready]
      · rw [continueFlush_flushes, if_pos rfl]
        exact hends next.registry waiting hspent

end Process

end Pmbah.Producer
