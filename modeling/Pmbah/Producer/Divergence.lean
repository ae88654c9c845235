import Pmbah.Producer.SingleCheckpoint

/-!
# Diverged sessions

A session whose observation has been found to disagree with the server's binds no
token and starts no request again, as long as nothing that was under way for it
at that time is answered in a way that rewrites its observation.
-/

namespace Pmbah.Producer

open Js Format Library

inductive ObservationUploadRequest where
  | bound (observedSessionId token : JsString)
  | unobserved
  deriving DecidableEq

/-- Empty strings count as absent. -/
def getObservationEnvelope (options : RegistryOptions) (registry : Registry)
    (sessionId : JsString) : Option ObservationUploadRequest :=
  match registry.get sessionId with
  | none => none
  | some record =>
      if !options.checkpoint then none
      else if record.observation.state = .diverged then some .unobserved
      else
        match record.observation.observedSessionId, record.observation.lastObservedToken with
        | some observedSessionId, some token =>
            if observedSessionId = [] ∨ token = [] then some .unobserved
            else some (.bound observedSessionId token)
        | _, _ => some .unobserved

def BindsToken (options : RegistryOptions) (registry : Registry) (id : JsString) : Prop :=
  ∃ observedSessionId token,
    getObservationEnvelope options registry id = some (.bound observedSessionId token)

/-- The record binds nothing and asks for nothing: it is diverged, or frozen with
nothing committed. -/
def Pinned (record : SessionRecord) : Prop :=
  record.observation.state = .diverged ∨
    (record.state ≠ .active ∧ record.observation.lastObservedToken = none ∧
      record.observation.lastCommittedEventCount = 0)

instance (record : SessionRecord) : Decidable (Pinned record) :=
  inferInstanceAs (Decidable (_ ∨ _))

/-- Every request that is out for the session was out before. -/
def SendsNothing (registry next : Registry) (id : JsString) : Prop :=
  ∀ promise loop request, next.loops.get? promise = some loop → loop.sessionId = id →
    loop.stage = .posting request → registry.loops.get? promise = some loop

def PinnedAt (registry : Registry) (id : JsString) : Prop :=
  ∀ record, registry.get id = some record → Pinned record

variable {P : Platform} {options : RegistryOptions} {registry next : Registry} {id : JsString}

theorem PinnedAt.binds (h : PinnedAt registry id) : ¬ BindsToken options registry id := by
  rintro ⟨observedSessionId, token, henvelope⟩
  unfold getObservationEnvelope at henvelope
  cases hget : registry.get id with
  | none =>
      rw [hget] at henvelope
      cases henvelope
  | some record =>
      rw [hget] at henvelope
      simp only at henvelope
      rcases h record hget with hdiverged | ⟨-, htoken, -⟩
      · rw [hdiverged] at henvelope
        simp at henvelope
      · rw [htoken] at henvelope
        simp at henvelope

theorem SendsNothing.of_loops (h : next.loops = registry.loops) : SendsNothing registry next id := by
  intro promise loop request hloop _ _
  rwa [h] at hloop

theorem SendsNothing.trans {last : Registry} (h : SendsNothing registry next id)
    (h' : SendsNothing next last id) : SendsNothing registry last id := by
  intro promise loop request hloop hid hposting
  exact h promise loop request (h' promise loop request hloop hid hposting) hid hposting

/-! ## The methods -/

theorem Rewritten.pinned {record written : SessionRecord} (h : Rewritten record written)
    (hpinned : Pinned record) : Pinned written := by
  have hfrozen := h.frozen
  have hobservation := h.observation
  unfold Pinned at *
  generalize written.observation = observation at hobservation ⊢
  cases hobservation with
  | kept => exact hpinned.imp_right fun hkept => ⟨hfrozen hkept.1, hkept.2⟩
  | recomputed state hactive hstays =>
      rcases hpinned with hdiverged | hkept
      · exact Or.inl (hstays hdiverged)
      · exact absurd hactive hkept.1
  | queued _ _ => exact hpinned.imp_right fun hkept => ⟨hfrozen hkept.1, hkept.2⟩
  | rejected code hstate =>
      cases code with
      | mismatch => exact Or.inl rfl
      | unavailable => exact Or.inr ⟨hfrozen hstate, rfl, rfl⟩

/-- An activation of another session. -/
theorem KickedBy.pinned {other : JsString} {record written : SessionRecord} {stage : LoopStage}
    (hkick : KickedBy registry other record written stage next) (hne : other ≠ id)
    (h : PinnedAt registry id) : PinnedAt next id ∧ SendsNothing registry next id := by
  refine ⟨?_, ?_⟩
  · intro found hfound
    rw [hkick.get, if_neg fun heq => hne heq.symm] at hfound
    exact h found hfound
  · intro p loop request hloop hid _
    rw [hkick.loops, OrderedMap.get?_set] at hloop
    split at hloop
    · cases hloop
      exact absurd hid hne
    · exact hloop

theorem Touch.pinned {drops : JsString → Prop} {uuid : JsString}
    (htouch : Touch options drops uuid registry next) (hne : uuid ≠ id)
    (h : PinnedAt registry id) : PinnedAt next id ∧ SendsNothing registry next id := by
  cases htouch with
  | quiet hsessions _ hloops _ =>
      refine ⟨?_, .of_loops hloops⟩
      intro record hrecord
      rw [Registry.get, hsessions] at hrecord
      exact h record hrecord
  | @write written record kept hget hwritten =>
      refine ⟨?_, .of_loops rfl⟩
      intro found hfound
      rw [get_put] at hfound
      split at hfound
      · rename_i heq
        cases hfound
        rw [← heq] at hget
        exact hwritten.pinned (h record hget)
      · exact h found hfound
  | @kick kicked drawn record now hget hactive _ hopen _ _ =>
      obtain ⟨written, stage, hkick⟩ := kickCheckpoint_spec registry kicked record now drawn
      refine hkick.pinned ?_ h
      rintro rfl
      rcases h record hget with hdiverged | hfrozen
      · exact hopen hdiverged
      · exact hfrozen.1 hactive
  | @insert record hid _ _ =>
      refine ⟨?_, .of_loops rfl⟩
      intro found hfound
      have hput : (insertNew registry record).get id =
          if id = record.sessionId then some record else registry.get id :=
        OrderedMap.get?_set _ _ _ _
      rw [hput, if_neg (by rw [hid]; exact fun heq => hne heq.symm)] at hfound
      exact h found hfound
  | @remove removed nextId _ _ =>
      refine ⟨?_, .of_loops rfl⟩
      intro found hfound
      have hget : Registry.get { removeSession registry removed with nextId } id =
          if id = removed then none else registry.get id := get_removeSession registry removed id
      rw [hget] at hfound
      split at hfound
      · cases hfound
      · exact h found hfound
  | @anchor anchor record kept nextId _ _ hfrozen _ hempty _ =>
      refine ⟨?_, .of_loops rfl⟩
      intro found hfound
      have hget : (anchored registry anchor kept nextId).get id =
          if id = anchor then some kept else registry.get id := OrderedMap.get?_set _ _ _ _
      rw [hget] at hfound
      split at hfound
      · cases hfound
        refine Or.inr ⟨hfrozen, ?_⟩
        rw [hempty]
        exact ⟨rfl, rfl⟩
      · exact h found hfound

theorem Touches.pinned {drops : JsString → Prop} {uuid : JsString}
    (htouches : Touches options drops uuid registry next) (hne : uuid ≠ id)
    (h : PinnedAt registry id) : PinnedAt next id ∧ SendsNothing registry next id := by
  induction htouches with
  | nil => exact ⟨h, .of_loops rfl⟩
  | cons head _ ih =>
      obtain ⟨hnext, hsends⟩ := head.pinned hne h
      obtain ⟨hlast, hmore⟩ := ih hnext
      exact ⟨hlast, hsends.trans hmore⟩

theorem flushRound_pinned (h : PinnedAt registry id) (flush : ObservationFlush) (now : Int)
    (uuid : JsString) :
    PinnedAt (flushRound registry flush now uuid).1 id ∧
      SendsNothing registry (flushRound registry flush now uuid).1 id := by
  have hround := flushRound_spec registry flush now uuid
  generalize flushRound registry flush now uuid = result at hround ⊢
  cases hround with
  | @starts record started _ hget hopen _ hcommitted hstarted =>
      obtain ⟨written, stage, hkick⟩ := kickedBy_of_eq hstarted
      refine hkick.pinned ?_ h
      rintro rfl
      rcases h record hget with hdiverged | hfrozen
      · exact hopen hdiverged
      · exact hcommitted hfrozen.2.2
  | _ => exact ⟨h, .of_loops rfl⟩

/-! ## Rounds -/

/-- What a round of another session's activation leaves. -/
theorem RoundBy.pinned {lost : Prop} {promise : Nat} {loop : CheckpointLoop} {stage : LoopStage}
    (hround : RoundBy lost registry promise loop stage next) (hne : loop.sessionId ≠ id)
    (h : PinnedAt registry id) : PinnedAt next id ∧ SendsNothing registry next id := by
  refine ⟨?_, ?_⟩
  · intro record hrecord
    rw [hround.other id fun heq => hne heq.symm] at hrecord
    exact h record hrecord
  · intro p found request hfound hid _
    rw [hround.loops, OrderedMap.get?_set] at hfound
    split at hfound
    · cases hfound
      exact absurd hid hne
    · exact hfound

/-- A failed attempt that may be repeated does not reopen the record. -/
def Covered (record : SessionRecord) : Prop :=
  if record.observation.lastCommittedEventCount = 0 then
    record.state ≠ .active ∧ record.observation.lastObservedToken = none
  else sessionEventCount record ≤ record.observation.lastCommittedEventCount

/-- An answer that leaves a diverged session diverged. -/
def Harmless (record : SessionRecord) : CheckpointResult → Prop
  | .ok _ => False
  | .failed .conflict _ _ => True
  | .failed .clientBug _ _ => True
  | .failed .unavailable _ _ => record.state ≠ .active
  | .failed .transient _ _ => Covered record
  | .failed .rateLimited _ _ => Covered record

instance (record : SessionRecord) : Decidable (Covered record) := by
  unfold Covered
  infer_instance

instance (record : SessionRecord) (result : CheckpointResult) :
    Decidable (Harmless record result) := by
  unfold Harmless
  split
  all_goals infer_instance

theorem Covered.pinned {record : SessionRecord} (h : Covered record) (hpinned : Pinned record)
    {kind : CheckpointFailureKind} (hkind : kind = .transient ∨ kind = .rateLimited)
    (status : Nat) (reason : JsString) :
    Pinned (applyCheckpointResult options record (.failed kind status reason)) := by
  have hstate : (applyCheckpointResult options record
      (.failed kind status reason)).observation.state =
      if record.observation.lastCommittedEventCount = 0 then .unknown
      else if record.observation.lastCommittedEventCount < sessionEventCount record then .partially
      else record.observation.state := by
    rcases hkind with rfl | rfl
    · rfl
    · rfl
  unfold Covered at h
  split at h
  · rename_i hzero
    right
    rcases hkind with rfl | rfl
    · exact ⟨h.1, h.2, hzero⟩
    · exact ⟨h.1, h.2, hzero⟩
  · rename_i hcommitted
    rcases hpinned with hdiverged | hfrozen
    · left
      rw [hstate, if_neg hcommitted, if_neg (by omega)]
      exact hdiverged
    · exact absurd hfrozen.2.2 hcommitted

theorem Harmless.pinned {record : SessionRecord} {result : CheckpointResult}
    (h : Harmless record result) (hpinned : Pinned record) :
    Pinned (applyCheckpointResult options record result) := by
  cases result with
  | ok => exact h.elim
  | failed kind status reason =>
      cases kind with
      | conflict => exact Or.inl rfl
      | clientBug => exact Or.inl rfl
      | unavailable => exact Or.inr ⟨h, rfl, rfl⟩
      | transient => exact Covered.pinned h hpinned (Or.inl rfl) status reason
      | rateLimited => exact Covered.pinned h hpinned (Or.inr rfl) status reason

/-- The activation sends nothing more. -/
theorem SendsNothing.stopped {promise : Nat} {loop : CheckpointLoop} {stage : LoopStage}
    (hstage : ∀ request, stage ≠ .posting request)
    (hloops : next.loops = registry.loops.set promise { loop with stage }) :
    SendsNothing registry next id := by
  intro p found posted hfound _ hposting
  rw [hloops, OrderedMap.get?_set] at hfound
  split at hfound
  · cases hfound
    exact absurd hposting (hstage posted)
  · exact hfound

theorem checkpointAnswered_pinned (options : RegistryOptions) (promise : Nat)
    {loop : CheckpointLoop} {request : CheckpointRequest} (hstage : loop.stage = .posting request)
    {result : CheckpointResult} (save : Nat)
    (hharmless : loop.sessionId = id → ∀ record ∈ registry.get id, Harmless record result)
    (h : PinnedAt registry id) :
    PinnedAt (checkpointAnswered options registry promise loop result save).1 id ∧
      SendsNothing registry (checkpointAnswered options registry promise loop result save).1
        id := by
  by_cases hid : loop.sessionId = id
  · subst hid
    unfold checkpointAnswered
    cases hget : registry.get loop.sessionId with
    | none => exact ⟨h, .stopped (by nofun) rfl⟩
    | some live =>
        have hlive := hharmless rfl live hget
        have hrefused : result.isOk = false := by
          cases result with
          | ok => exact hlive.elim
          | failed => rfl
        simp only [hrefused, Bool.false_and]
        refine ⟨?_, .stopped (by nofun) rfl⟩
        intro record hrecord
        have hput : some _ = some record := (OrderedMap.get?_set_self _ _ _).symm.trans hrecord
        cases hput
        exact hlive.pinned (h live hget)
  · obtain ⟨stage, hround⟩ :=
      checkpointAnswered_round registry promise hstage options result save
    exact hround.pinned hid h

/-- A round with nothing to send. -/
theorem postRound_pinned {promise : Nat} {loop : CheckpointLoop} {uuid : JsString}
    (hsilent : ∀ record ∈ registry.get loop.sessionId, record.lastEventChainTip = none)
    (h : PinnedAt registry loop.sessionId) :
    PinnedAt (postRound registry promise loop uuid) loop.sessionId ∧
      SendsNothing registry (postRound registry promise loop uuid) loop.sessionId := by
  unfold postRound
  cases hget : registry.get loop.sessionId with
  | none => exact ⟨h, .stopped (by nofun) rfl⟩
  | some record =>
      simp only [hsilent record hget]
      refine ⟨?_, .stopped (by nofun) rfl⟩
      intro found hfound
      have hput : some _ = some found := (OrderedMap.get?_set_self _ _ _).symm.trans hfound
      cases hput
      exact h record hget

theorem postRound_written {promise : Nat} {loop : CheckpointLoop} {uuid : JsString}
    {written : SessionRecord} (hsilent : written.lastEventChainTip = none)
    (h : Pinned written) :
    PinnedAt (postRound (registry.put loop.sessionId written) promise loop uuid)
        loop.sessionId ∧
      SendsNothing registry
        (postRound (registry.put loop.sessionId written) promise loop uuid) loop.sessionId := by
  have hput : ∀ found, (registry.put loop.sessionId written).get loop.sessionId = some found →
      found = written := by
    intro found hfound
    rw [get_put, if_pos rfl] at hfound
    exact (Option.some.inj hfound).symm
  have hround := @postRound_pinned (registry.put loop.sessionId written) promise loop uuid
    (fun found hfound => hput found hfound ▸ hsilent) (fun found hfound => hput found hfound ▸ h)
  exact ⟨hround.1, hround.2⟩

theorem checkpointSaved_pinned (promise : Nat) {loop : CheckpointLoop} {save : Nat}
    {again : Option Nat} (hstage : loop.stage = .saving save again) {saved : Bool} (now : Int)
    (uuid : JsString)
    (hsilent : loop.sessionId = id → saved = true → again.isSome = true →
      ∀ record ∈ registry.get id, record.lastEventChainTip = none)
    (h : PinnedAt registry id) :
    PinnedAt (checkpointSaved registry promise loop again saved now uuid) id ∧
      SendsNothing registry (checkpointSaved registry promise loop again saved now uuid) id := by
  by_cases hid : loop.sessionId = id
  · subst hid
    unfold checkpointSaved
    cases again with
    | none => exact ⟨h, .stopped (by nofun) rfl⟩
    | some object =>
        simp only [Bool.not_eq_true']
        split
        · exact ⟨h, .stopped (by nofun) rfl⟩
        · rename_i hsaved
          rw [Bool.not_eq_false] at hsaved
          have hquiet := hsilent rfl hsaved rfl
          cases hget : registry.get loop.sessionId with
          | none => exact postRound_pinned hquiet h
          | some record =>
              simp only
              split
              · apply postRound_written
                · exact hquiet record hget
                · exact h record hget
              · exact postRound_pinned hquiet h
  · obtain ⟨stage, hround⟩ := checkpointSaved_round registry promise hstage saved now uuid
    exact hround.pinned hid h

theorem FinishedBy.pinned {promise : Nat} {loop : CheckpointLoop}
    (hfinished : FinishedBy registry promise loop next) (h : PinnedAt registry id) :
    PinnedAt next id ∧ SendsNothing registry next id := by
  refine ⟨?_, ?_⟩
  · intro record hrecord
    by_cases hid : id = loop.sessionId
    · subst hid
      rcases hfinished.record with hsame | ⟨-, kept, hkept, hnext⟩
      · exact h record (hsame ▸ hrecord)
      · rw [hnext] at hrecord
        cases hrecord
        exact h kept hkept
    · rw [hfinished.other id hid] at hrecord
      exact h record hrecord
  · intro p found posted hfound _ _
    rw [hfinished.loops, OrderedMap.get?_delete] at hfound
    split at hfound
    · cases hfound
    · exact hfound

/-! ## Loading -/

theorem normaliseLoadedRecord_pinned {stored : SessionRecord} (h : Pinned stored)
    (objectId : Nat) : Pinned (normaliseLoadedRecord objectId stored) := by
  refine h.imp_right fun hfrozen => ⟨?_, hfrozen.2⟩
  unfold normaliseLoadedRecord
  simp only
  split
  · nofun
  · exact hfrozen.1

namespace Process

variable {process next : Process}

/-- The divergence of a session is found out: its upload is rejected for a mismatch,
or its checkpoint is answered by a conflict or a client bug. -/
def Diverges (process : Process) (id : JsString) : Action → Prop
  | .call (.markObservationRejected sessionId .mismatch) _ _ =>
      sessionId = id ∧ ∃ record ∈ process.registry.get id,
        record.state = .uploading ∨ record.state = .failedUpload
  | .answerCheckpoint promise (.failed kind _ _) =>
      (kind = .conflict ∨ kind = .clientBug) ∧
        (∃ loop ∈ process.registry.loops.get? promise, loop.sessionId = id) ∧
        (process.registry.get id).isSome = true
  | _ => False

/-- What was under way for the session ends without rewriting its observation, and a
process ends only when the divergence is stored. -/
def Undisturbed (id : JsString) (process : Process) : Action → Prop
  | .call _ _ uuid => uuid ≠ id
  | .answerCheckpoint promise result =>
      ∀ loop ∈ process.registry.loops.get? promise, loop.sessionId = id →
        ∀ record ∈ process.registry.get id, Harmless record result
  | .resumeLoop promise _ _ =>
      ∀ loop ∈ process.registry.loops.get? promise, loop.sessionId = id →
        match loop.stage with
        | .saving save (some _) => process.outcomes.get? save = some true →
            ∀ record ∈ process.registry.get id, record.lastEventChainTip = none
        | _ => True
  | .crash snapshot => ∀ stored ∈ snapshot, stored.sessionId = id → Pinned stored
  | _ => True

/-- The session's record is pinned, also where it has been taken out. -/
structure Silent (id : JsString) (process : Process) : Prop where
  kept : PinnedAt process.registry id
  away : ∀ record, Detached process.discards record → record.sessionId = id → Pinned record

theorem Silent.detach (h : Silent id process) (hsound : Sound process) (task : Nat)
    (ids : List JsString) : Silent id (process.detached task ids) := by
  have htaken := detach_taken hsound.tracked.keyed ids
  refine ⟨?_, ?_⟩
  · intro record hrecord
    have hrecord : (World.detach process.registry ids).1.get id = some record := hrecord
    rw [htaken.get] at hrecord
    split at hrecord
    · cases hrecord
    · exact h.kept record hrecord
  · intro record hdetached hid
    obtain ⟨other, promise, pending, removed, hother, hmem⟩ := hdetached
    change (process.discards.set task _).get? other = _ at hother
    rw [OrderedMap.get?_set] at hother
    split at hother
    · cases hother
      obtain ⟨-, kept, objectId, hkept, rfl⟩ := htaken.removed record hmem
      rw [hid] at hkept
      exact h.kept kept hkept
    · exact h.away record ⟨other, _, _, _, hother, hmem⟩ hid

theorem Silent.restore (h : Silent id process) (hsound : Sound process) {task promise : Nat}
    {pending : List (JsString × Option (List BufferMutation))} {removed : List SessionRecord}
    (htask : process.discards.get? task = some (.deleting promise pending removed)) :
    Silent id (process.restored task pending removed) := by
  have hback := hsound.putBack htask
  refine ⟨?_, ?_⟩
  · intro record hrecord
    have hrecord : (removed.foldl (World.restoreOne pending) process.registry).get id =
        some record := hrecord
    by_cases hid : id ∈ removed.map SessionRecord.sessionId
    · obtain ⟨kept, hkept, hsame⟩ := List.mem_map.1 hid
      rw [← hsame, hback.back kept hkept] at hrecord
      cases hrecord
      exact h.away record ⟨task, _, _, _, htask, hkept⟩ hsame
    · rw [hback.get id hid] at hrecord
      exact h.kept record hrecord
  · intro record hdetached hid
    exact h.away record (detached_set (by nofun) hdetached) hid

theorem silent_step (hsound : Sound process) (h : Silent id process) {action : Action}
    (hfresh : process.Fresh action) (hundisturbed : Undisturbed id process action)
    (hnext : process.step P options action = some next) :
    Silent id next ∧ SendsNothing process.registry next.registry id := by
  have hflushed : ((∃ id now uuid, action = .flushObservation id now uuid) ∨
      ∃ task now uuid, action = .resumeFlush task now uuid) →
      Silent id next ∧ SendsNothing process.registry next.registry id := by
    intro hflush
    rcases step_flush hnext hflush with ⟨flushes, rfl⟩ |
      ⟨registry, hsessions, -, hloops, -, hdiscards, -, flush, now, uuid, hround⟩
    · exact ⟨⟨h.kept, h.away⟩, .of_loops rfl⟩
    · have hkept : PinnedAt registry id := by
        intro record hrecord
        rw [Registry.get, hsessions] at hrecord
        exact h.kept record hrecord
      obtain ⟨hpinned, hsends⟩ := flushRound_pinned hkept flush now uuid
      rw [← hround] at hpinned hsends
      refine ⟨⟨hpinned, ?_⟩, (SendsNothing.of_loops hloops).trans hsends⟩
      rw [hdiscards]
      exact h.away
  cases action with
  | call made clock uuid =>
      cases hnext
      obtain ⟨hpinned, hsends⟩ := (made.run_touches P options hsound.tracked.keyed hfresh.1
        clock).pinned hundisturbed h.kept
      exact ⟨⟨hpinned, h.away⟩, hsends⟩
  | persist =>
      cases hnext
      exact ⟨⟨h.kept, h.away⟩, .of_loops rfl⟩
  | queue queues =>
      cases hnext
      exact ⟨⟨h.kept, h.away⟩, .of_loops rfl⟩
  | settle waiters saved =>
      cases hnext
      exact ⟨⟨h.kept, h.away⟩, .of_loops rfl⟩
  | discardPersisted ids =>
      cases hnext
      exact ⟨⟨h.kept, fun record hdetached =>
        h.away record (detached_set (by intro _ _ _ heq; cases heq) hdetached)⟩, .of_loops rfl⟩
  | resumeDiscard task =>
      rcases step_resumeDiscard hnext with ⟨promise, ids, -, rfl⟩ |
        ⟨promise, pending, removed, htask, -, rfl⟩ | rfl
      · have hdetached := h.detach hsound task ids
        exact ⟨⟨hdetached.kept, hdetached.away⟩,
          .of_loops (detach_taken hsound.tracked.keyed ids).loops⟩
      · have hrestored := h.restore hsound htask
        exact ⟨⟨hrestored.kept, hrestored.away⟩, .of_loops (hsound.putBack htask).loops⟩
      · exact ⟨⟨h.kept, fun record hdetached => h.away record (detached_delete hdetached)⟩,
          .of_loops rfl⟩
  | answerCheckpoint promise result =>
      obtain ⟨loop, request, hloop, hposting, hcases⟩ := step_answerCheckpoint hnext
      obtain ⟨hpinned, hsends⟩ := checkpointAnswered_pinned options promise hposting
        process.registry.nextId (hundisturbed loop hloop) h.kept
      rcases hcases with rfl | rfl
      · exact ⟨⟨hpinned, h.away⟩, hsends⟩
      · exact ⟨⟨hpinned, h.away⟩, hsends⟩
  | resumeLoop promise now uuid =>
      obtain ⟨loop, hloop, ⟨save, again, saved, hsaving, hsaved, rfl⟩ | ⟨hended, rfl⟩⟩ :=
        step_resumeLoop hnext
      · have hsilent : loop.sessionId = id → saved = true → again.isSome = true →
            ∀ record ∈ process.registry.get id, record.lastEventChainTip = none := by
          rintro hid rfl hagain
          obtain ⟨object, rfl⟩ := Option.isSome_iff_exists.1 hagain
          have hwait := hundisturbed loop hloop hid
          rw [hsaving] at hwait
          exact hwait hsaved
        obtain ⟨hpinned, hsends⟩ :=
          checkpointSaved_pinned promise hsaving now uuid hsilent h.kept
        exact ⟨⟨hpinned, h.away⟩, hsends⟩
      · obtain ⟨hpinned, hsends⟩ :=
          (loopFinished_spec process.registry promise loop).pinned h.kept
        exact ⟨⟨hpinned, h.away⟩, hsends⟩
  | flushObservation id now uuid => exact hflushed (Or.inl ⟨id, now, uuid, rfl⟩)
  | resumeFlush task now uuid => exact hflushed (Or.inr ⟨task, now, uuid, rfl⟩)
  | crash snapshot =>
      cases hnext
      refine ⟨⟨?_, ?_⟩, ?_⟩
      · intro record hrecord
        obtain ⟨stored, hstored, hid, objectId, rfl⟩ := get_load hrecord
        exact normaliseLoadedRecord_pinned (hundisturbed stored hstored hid) objectId
      · intro record hdetached
        obtain ⟨task, promise, pending, removed, htask, -⟩ := hdetached
        cases htask
      · intro p found posted hfound
        rw [(boot_loops snapshot _).1] at hfound
        cases hfound

/-- The step that finds the divergence out pins the record. -/
theorem silent_of_diverges (hsound : Sound process) {action : Action}
    (hdiverges : Diverges process id action)
    (hnext : process.step P options action = some next) : Silent id next := by
  unfold Diverges at hdiverges
  split at hdiverges
  · rename_i sessionId clock uuid
    obtain ⟨rfl, record, hget, hstate⟩ := hdiverges
    cases hnext
    have hallowed : [SessionState.uploading, .failedUpload].contains record.state = true := by
      rcases hstate with hstate | hstate
      · rw [hstate]
        rfl
      · rw [hstate]
        rfl
    have hmarked : (markObservationRejected process.registry sessionId .mismatch).1 =
        (process.registry.touch sessionId).put sessionId
          { record with observation := rejectObservation record.observation .mismatch } := by
      unfold markObservationRejected requireInState
      rw [show process.registry.get sessionId = some record from hget]
      simp only [hallowed, if_true]
    refine ⟨?_, ?_⟩
    · intro found hfound
      have hfound : (markObservationRejected process.registry sessionId .mismatch).1.get
          sessionId = some found := hfound
      rw [hmarked, get_put, if_pos rfl] at hfound
      cases hfound
      exact Or.inl rfl
    · intro away hdetached hid
      have := hsound.tracked.absent away hdetached
      rw [hid, show process.registry.get sessionId = some record from hget] at this
      cases this
  · rename_i promise kind status reason
    obtain ⟨hkind, ⟨loop, hloop, hid⟩, hlive⟩ := hdiverges
    obtain ⟨record, hget⟩ := Option.isSome_iff_exists.1 hlive
    have haway : ∀ away, Detached process.discards away → away.sessionId = id →
        Pinned away := by
      intro away hdetached haway
      have := hsound.tracked.absent away hdetached
      rw [haway, hget] at this
      cases this
    obtain ⟨found, request, hfound, hposting, hcases⟩ := step_answerCheckpoint hnext
    rw [show process.registry.loops.get? promise = some loop from hloop] at hfound
    cases hfound
    have hpinned : PinnedAt (checkpointAnswered options process.registry promise loop
        (.failed kind status reason) process.registry.nextId).1 id := by
      intro written hwritten
      unfold checkpointAnswered at hwritten
      rw [hid, hget] at hwritten
      have hput : some _ = some written :=
        (OrderedMap.get?_set_self _ _ _).symm.trans hwritten
      cases hput
      rcases hkind with rfl | rfl
      · exact Or.inl rfl
      · exact Or.inl rfl
    rcases hcases with rfl | rfl
    · exact ⟨hpinned, haway⟩
    · exact ⟨hpinned, haway⟩
  · exact hdiverges.elim

theorem silent_run (hsound : Sound process) (h : Silent id process) {last : Process}
    (run : Run (step P options) (fun process action => process.Fresh action ∧
      Undisturbed id process action) process last) :
    Sound last ∧ Silent id last ∧ SendsNothing process.registry last.registry id := by
  refine run.invariant (I := fun last => Sound last ∧ Silent id last ∧
    SendsNothing process.registry last.registry id) ?_ ⟨hsound, h, .of_loops rfl⟩
  intro state action next hstate hcondition hnext
  obtain ⟨hsilent, hsends⟩ := silent_step hstate.1 hstate.2.1 hcondition.1 hcondition.2 hnext
  exact ⟨(sound_step hstate.1 hcondition.1 hnext).1, hsilent, hstate.2.2.trans hsends⟩

/-- The steps of the storage alone. -/
theorem silent_saves (hsound : Sound process) (h : Silent id process) {last : Process}
    (run : Run (step P options) (fun _ action => action.saves = true) process last) :
    Sound last ∧ Silent id last ∧ SendsNothing process.registry last.registry id := by
  apply silent_run (P := P) hsound h
  apply run.mono
  intro state action hsaves
  cases action with
  | persist => exact ⟨trivial, trivial⟩
  | queue => exact ⟨trivial, trivial⟩
  | settle => exact ⟨trivial, trivial⟩
  | _ => cases hsaves

instance (process : Process) (id : JsString) (action : Action) :
    Decidable (process.Diverges id action) := by
  unfold Diverges
  split
  · infer_instance
  · infer_instance
  · infer_instance

instance (id : JsString) (process : Process) :
    (action : Action) → Decidable (Undisturbed id process action)
  | .call _ _ uuid => inferInstanceAs (Decidable (uuid ≠ id))
  | .answerCheckpoint promise result =>
      inferInstanceAs (Decidable (∀ loop ∈ process.registry.loops.get? promise,
        loop.sessionId = id → ∀ record ∈ process.registry.get id, Harmless record result))
  | .resumeLoop promise _ _ =>
      have : ∀ loop : CheckpointLoop, Decidable (loop.sessionId = id →
          match loop.stage with
          | .saving save (some _) => process.outcomes.get? save = some true →
              ∀ record ∈ process.registry.get id, record.lastEventChainTip = none
          | _ => True)
        | ⟨_, _, .saving _ (some _)⟩ => inferInstanceAs (Decidable (_ → _ → _))
        | ⟨_, _, .saving _ none⟩ => inferInstanceAs (Decidable (_ → True))
        | ⟨_, _, .posting _⟩ => inferInstanceAs (Decidable (_ → True))
        | ⟨_, _, .ended⟩ => inferInstanceAs (Decidable (_ → True))
      inferInstanceAs (Decidable (∀ loop ∈ process.registry.loops.get? promise, _))
  | .crash snapshot =>
      inferInstanceAs (Decidable (∀ stored ∈ snapshot, stored.sessionId = id → Pinned stored))
  | .persist | .queue .. | .settle .. | .discardPersisted .. | .resumeDiscard ..
  | .flushObservation .. | .resumeFlush .. => inferInstanceAs (Decidable True)

/-- The divergence of a session stays. -/
structure StaysDiverged (options : RegistryOptions) (id : JsString) (after later : Registry) :
    Prop where
  unbound : ¬ BindsToken options later id
  sendsNothing : SendsNothing after later id
  /-- What any later save stores of the session. -/
  pinned : PinnedAt later id

end Process

namespace World

/-- The divergence of a session is found out by the step. -/
def Diverges (world : World) (id : JsString) (action : Action) : Prop :=
  ∃ acted ∈ action.process world, world.process.Diverges id acted

def Undisturbed (id : JsString) (world : World) (action : Action) : Prop :=
  ∀ acted ∈ action.process world, Process.Undisturbed id world.process acted

/-- From the step that finds it out, the divergence of a session stays, over any
storage and over the journal. -/
theorem diverged_run (P : Platform) (options : RegistryOptions) (id : JsString) :
    (∀ snapshot nextId before action after later,
      Library.Run (Process.step P options) Process.Fresh (Process.boot snapshot nextId) before →
      before.Fresh action → before.Diverges id action →
      before.step P options action = some after →
      Library.Run (Process.step P options)
        (fun process action => process.Fresh action ∧ Process.Undisturbed id process action)
        after later →
      Process.StaysDiverged options id after.registry later.registry) ∧
    ∀ store nextId before action after later,
      Run P options Fresh (boot store nextId) before →
      before.Fresh action → before.Diverges id action →
      before.step P options action = some after →
      Run P options (fun world action => world.Fresh action ∧ Undisturbed id world action)
        after later →
      Process.StaysDiverged options id after.registry later.registry := by
  refine ⟨?_, ?_⟩
  · intro snapshot nextId before action after later hbefore hfresh hdiverges hstep hafter
    have hsound := Process.sound_run (Process.sound_boot snapshot nextId) hbefore
    obtain ⟨-, hsilent, hsends⟩ := Process.silent_run (Process.sound_step hsound hfresh hstep).1
      (Process.silent_of_diverges hsound hdiverges hstep) hafter
    exact ⟨hsilent.kept.binds, hsends, hsilent.kept⟩
  · intro store nextId before action after later hbefore hfresh hdiverges hstep hafter
    have hsaves : ∀ process (action : Process.Action), action.saves = true →
        Process.Fresh process action := by
      intro process action hsaves
      cases action with
      | persist => trivial
      | queue => trivial
      | settle => trivial
      | _ => cases hsaves
    have hsound : Process.Sound before.process := by
      apply Process.sound_run (Process.sound_boot store.read nextId)
      exact follow_run hsaves (fun _ _ acted h hacted => h acted hacted) hbefore
    obtain ⟨acted, hacted, hfound⟩ := hdiverges
    obtain ⟨between, hbetween, hrest⟩ := follows_step hacted hstep
    obtain ⟨hkept, hsilent, -⟩ := Process.silent_saves
      (Process.sound_step hsound (hfresh acted hacted) hbetween).1
      (Process.silent_of_diverges hsound hfound hbetween) hrest
    have hlater : Library.Run (Process.step P options)
        (fun process action => Process.Fresh process action ∧
          Process.Undisturbed id process action)
        after.process later.process := by
      apply follow_run _ _ hafter
      · intro process action hsaves
        cases action with
        | persist => exact ⟨trivial, trivial⟩
        | queue => exact ⟨trivial, trivial⟩
        | settle => exact ⟨trivial, trivial⟩
        | _ => cases hsaves
      · exact fun _ _ acted h hacted => ⟨h.1 acted hacted, h.2 acted hacted⟩
    obtain ⟨-, hsilent, hsends⟩ := Process.silent_run hkept hsilent hlater
    exact ⟨hsilent.kept.binds, hsends, hsilent.kept⟩

/-! ## A divergence that is forgotten -/

instance (world : World) (id : JsString) (action : Action) :
    Decidable (world.Diverges id action) :=
  inferInstanceAs (Decidable (∃ acted ∈ action.process world, world.process.Diverges id acted))

instance (id : JsString) (world : World) (action : Action) :
    Decidable (Undisturbed id world action) :=
  inferInstanceAs (Decidable (∀ acted ∈ action.process world,
    Process.Undisturbed id world.process acted))

def signSession : Action := .call (.sign exampleSession none) exampleClock spareUuid

def startUpload : Action := .call (.markUploading exampleSession) exampleClock spareUuid

def rejectForMismatch : Action :=
  .call (.markObservationRejected exampleSession .mismatch) exampleClock spareUuid

def observedToken : JsString := js "token"

def acceptCheckpoint : Action :=
  .answerCheckpoint 1 (.ok
    { observedSessionId := spareUuid
      token := observedToken
      checkpointId := js "checkpoint"
      eventCount := 1
      chainTip := ⟨List.replicate 32 0, B3Hash.zeros_length⟩
      serverT := js "2024-01-01T00:00:00.000Z"
      created := true })

/-- The upload is rejected for a mismatch while the session's first checkpoint is out,
and the checkpoint is accepted afterwards. -/
theorem not_staysDiverged_acceptedLate :
    ¬ ∀ before action after later,
      Run Platform.standard observedOptions Fresh (boot JournalStore.empty 0) before →
      before.Fresh action → before.Diverges exampleSession action →
      before.step Platform.standard observedOptions action = some after →
      Run Platform.standard observedOptions Fresh after later →
      Process.StaysDiverged observedOptions exampleSession after.registry later.registry := by
  intro h
  have hbound : (steps Platform.standard observedOptions Fresh (boot JournalStore.empty 0)
      [startWriting, typeLetter, signSession, startUpload]).any (fun before =>
        before.Fresh rejectForMismatch ∧ before.Diverges exampleSession rejectForMismatch ∧
        (before.step Platform.standard observedOptions rejectForMismatch).any fun after =>
          (steps Platform.standard observedOptions Fresh after [acceptCheckpoint]).any
            fun later => getObservationEnvelope observedOptions later.registry exampleSession =
              some (.bound spareUuid observedToken)) = true := by
    decide +kernel
  obtain ⟨before, hbefore, hcheck⟩ := (Option.any_eq_true _ _).1 hbound
  obtain ⟨hfresh, hdiverges, hcheck⟩ := of_decide_eq_true hcheck
  obtain ⟨after, hafter, hcheck⟩ := (Option.any_eq_true _ _).1 hcheck
  obtain ⟨later, hlater, hcheck⟩ := (Option.any_eq_true _ _).1 hcheck
  have hstays := h before rejectForMismatch after later ((Run.refl _).steps hbefore) hfresh
    hdiverges hafter ((Run.refl _).steps hlater)
  exact hstays.unbound ⟨spareUuid, observedToken, of_decide_eq_true hcheck⟩

def refuseCheckpoint : Action :=
  .answerCheckpoint 1 (.failed .conflict 409 (js "observation_conflict"))

/-- The checkpoint is refused for a conflict, and saved before the process ends. -/
theorem staysDiverged_refusedAndSaved :
    ∃ before after later,
      steps Platform.standard observedOptions Fresh (boot JournalStore.empty 0)
        [startWriting, typeLetter] = some before ∧
      before.step Platform.standard observedOptions refuseCheckpoint = some after ∧
      steps Platform.standard observedOptions
        (fun world action => world.Fresh action ∧ Undisturbed exampleSession world action) after
        (commitEnds true ++ [.crash]) = some later ∧
      Process.StaysDiverged observedOptions exampleSession after.registry later.registry := by
  have hrun : (steps Platform.standard observedOptions Fresh (boot JournalStore.empty 0)
      [startWriting, typeLetter]).any (fun before =>
        before.Fresh refuseCheckpoint ∧ before.Diverges exampleSession refuseCheckpoint ∧
        (before.step Platform.standard observedOptions refuseCheckpoint).any fun after =>
          (steps Platform.standard observedOptions
            (fun world action => world.Fresh action ∧ Undisturbed exampleSession world action)
            after (commitEnds true ++ [.crash])).isSome) = true := by
    decide +kernel
  obtain ⟨before, hbefore, hcheck⟩ := (Option.any_eq_true _ _).1 hrun
  obtain ⟨hfresh, hdiverges, hcheck⟩ := of_decide_eq_true hcheck
  obtain ⟨after, hafter, hcheck⟩ := (Option.any_eq_true _ _).1 hcheck
  obtain ⟨later, hlater⟩ := Option.isSome_iff_exists.1 hcheck
  exact ⟨before, after, later, hbefore, hafter, hlater,
    (diverged_run Platform.standard observedOptions exampleSession).2 _ _ before
      refuseCheckpoint after later ((Run.refl _).steps hbefore) hfresh hdiverges hafter
      ((Run.refl _).steps hlater)⟩

end World

end Pmbah.Producer
