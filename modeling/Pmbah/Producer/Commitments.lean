import Pmbah.Producer.Flushes

/-!
# What has been committed of a session

As long as every answer is for the count that was sent, neither a request nor a commitment
goes beyond the events of its session.  As long as no rollback of `discardPersisted` puts a
session back in flight, `awaitObservationIdle` finds the activation that it is in flight for.
-/

namespace Pmbah.Producer

open Js Format Library

variable {P : Platform} {options : RegistryOptions} {registry next : Registry}
  {detached : SessionRecord → Prop} {id : JsString}

/-- The record of the session, kept or taken out. -/
def Known (registry : Registry) (detached : SessionRecord → Prop) (id : JsString)
    (record : SessionRecord) : Prop :=
  registry.get id = some record ∨ (detached record ∧ record.sessionId = id)

/-- What is committed of a session is within its events. -/
def Within (record : SessionRecord) : Prop :=
  record.observation.lastCommittedEventCount ≤ sessionEventCount record ∧
    (0 < record.observation.lastCommittedEventCount → record.lastEventChainTip.isSome = true)

instance (record : SessionRecord) : Decidable (Within record) :=
  inferInstanceAs (Decidable (_ ∧ _))

/-- What is committed of a session, and what is asked for it, is within its events. -/
structure Covers (registry : Registry) (id : JsString) (record : SessionRecord) : Prop where
  committed : record.observation.lastCommittedEventCount ≤ sessionEventCount record
  tip : 0 < record.observation.lastCommittedEventCount →
    record.lastEventChainTip.isSome = true
  posted : ∀ promise loop request, registry.loops.get? promise = some loop →
    loop.sessionId = id → loop.stage = .posting request →
      request.eventCount ≤ sessionEventCount record ∧ record.lastEventChainTip.isSome = true

/-- Anchors aside, whose history is gone. -/
def Measured (registry : Registry) (detached : SessionRecord → Prop) (id : JsString) : Prop :=
  ∀ record, Known registry detached id record → record.continuationAnchor = false →
    Covers registry id record

/-- A session in flight is one that `awaitObservationIdle` waits for. -/
structure Joined (registry : Registry) (id : JsString) : Prop where
  mapped : ∀ promise, registry.inFlight.get? id = some promise →
    ∃ loop, registry.loops.get? promise = some loop ∧ loop.sessionId = id
  owned : ∀ record, registry.get id = some record → record.observation.inFlight = true →
    ∃ promise loop, registry.inFlight.get? id = some promise ∧
      registry.loops.get? promise = some loop ∧ loop.kicked = record.objectId

/-- Every known record has grown from a known one, and what is asked is within it. -/
theorem Measured.later {later : SessionRecord → Prop} (h : Measured registry detached id)
    (hknown : ∀ record, Known next later id record → record.continuationAnchor = false →
      ∃ earlier, Known registry detached id earlier ∧ Grown earlier record)
    (hposts : ∀ record promise loop request, Known next later id record →
      next.loops.get? promise = some loop → loop.sessionId = id →
      loop.stage = .posting request → registry.loops.get? promise = some loop ∨
        (request.eventCount ≤ sessionEventCount record ∧
          record.lastEventChainTip.isSome = true)) : Measured next later id := by
  intro record hrecord hanchor
  obtain ⟨earlier, hearlier, hgrown⟩ := hknown record hrecord hanchor
  have hcovers := h earlier hearlier (hgrown.anchor ▸ hanchor)
  refine ⟨?_, ?_, ?_⟩
  · exact (hgrown.committed.trans hcovers.committed).trans hgrown.eventCount
  · intro hpos
    exact hgrown.tip (hcovers.tip (hpos.trans_le hgrown.committed))
  · intro promise loop request hloop hid hposting
    rcases hposts record promise loop request hrecord hloop hid hposting with hbefore | hnow
    · obtain ⟨hle, htip⟩ := hcovers.posted promise loop request hbefore hid hposting
      exact ⟨hle.trans hgrown.eventCount, hgrown.tip htip⟩
    · exact hnow

theorem Grown.refl (record : SessionRecord) : Grown record record :=
  .of_eq rfl rfl rfl (Nat.le_refl _)

/-- A change that neither adds records nor asks for anything. -/
theorem Measured.fewer {later : SessionRecord → Prop} (h : Measured registry detached id)
    (hknown : ∀ record, Known next later id record → Known registry detached id record)
    (hsends : SendsNothing registry next id) : Measured next later id :=
  h.later (fun record hrecord _ => ⟨record, hknown record hrecord, .refl record⟩)
    fun _ promise loop request _ hloop hid hposting =>
      Or.inl (hsends promise loop request hloop hid hposting)

theorem Known.same (h : next.get id = registry.get id) {record : SessionRecord} :
    Known next detached id record ↔ Known registry detached id record := by
  rw [Known, Known, h]

/-! ## The methods -/

/-- An activation for a session that is there. -/
theorem Measured.kick (h : Measured registry detached id) (htracked : Tracked registry detached)
    {kicked : JsString} {kept record written : SessionRecord} {stage : LoopStage}
    (hget : registry.get kicked = some kept) (hgrown : Grown kept record)
    (hkick : KickedBy registry kicked record written stage next) : Measured next detached id := by
  have haway : ∀ away, detached away → away.sessionId = id → id ≠ kicked := by
    rintro away haway rfl rfl
    rw [htracked.absent away haway] at hget
    cases hget
  obtain ⟨observation, hwritten, hcommitted, -⟩ := hkick.observed
  have hlater : Grown kept written := by
    apply hgrown.trans
    rw [hwritten]
    exact .of_eq rfl rfl rfl hcommitted.le
  apply h.later
  · intro later hlaterKnown _
    rcases hlaterKnown with hnow | haway
    · rw [hkick.get] at hnow
      split at hnow
      · rename_i hid
        cases hnow
        exact ⟨kept, Or.inl (hid ▸ hget), hlater⟩
      · exact ⟨later, Or.inl hnow, .refl later⟩
    · exact ⟨later, Or.inr haway, .refl later⟩
  · intro later promise loop request hlaterKnown hloop hid hposting
    rw [hkick.loops, OrderedMap.get?_set] at hloop
    split at hloop
    · cases hloop
      subst hid
      rcases hlaterKnown with hnow | haway'
      · rw [hkick.get, if_pos rfl] at hnow
        cases hnow
        right
        rcases hkick.stage with ⟨hended, -⟩ | ⟨posted, hposted, hcount, htip⟩
        · rw [hended] at hposting
          cases hposting
        · rw [hposted] at hposting
          cases hposting
          rw [hwritten]
          exact ⟨hcount.le, htip⟩
      · exact absurd rfl (haway later haway'.1 haway'.2)
    · exact Or.inl hloop

theorem Joined.kick (h : Joined registry id) (htracked : Tracked registry detached)
    {kicked : JsString} {record written : SessionRecord} {stage : LoopStage}
    (hkick : KickedBy registry kicked record written stage next) : Joined next id := by
  have hold : ∀ {promise loop}, registry.loops.get? promise = some loop →
      next.loops.get? promise = some loop := by
    intro promise loop hloop
    rw [hkick.loops, OrderedMap.get?_set_ne]
    · exact hloop
    · exact (htracked.numbered promise loop hloop).ne
  have hnew : next.loops.get? registry.nextId = some ⟨kicked, record.objectId, stage⟩ := by
    rw [hkick.loops, OrderedMap.get?_set_self]
  refine ⟨?_, ?_⟩
  · intro promise hmap
    rw [hkick.inFlight, OrderedMap.get?_set] at hmap
    split at hmap
    · rename_i hid
      cases hmap
      exact ⟨_, hnew, hid.symm⟩
    · obtain ⟨loop, hloop, hid⟩ := h.mapped promise hmap
      exact ⟨loop, hold hloop, hid⟩
  · intro found hfound hflag
    rw [hkick.get] at hfound
    rw [hkick.inFlight, OrderedMap.get?_set]
    split at hfound
    · rename_i hid
      cases hfound
      rw [if_pos hid]
      exact ⟨_, _, rfl, hnew, hkick.objectId.symm⟩
    · rename_i hid
      rw [if_neg hid]
      obtain ⟨promise, loop, hmap, hloop, hobject⟩ := h.owned found hfound hflag
      exact ⟨promise, loop, hmap, hold hloop, hobject⟩

variable {drops : JsString → Prop} {uuid : JsString}

theorem Measured.touch (h : Measured registry detached id)
    (htracked : Tracked registry detached) (hunused : Unused registry detached uuid)
    (htouch : Touch options drops uuid registry next) : Measured next detached id := by
  cases htouch with
  | quiet hsessions _ hloops _ =>
      have hget : next.get id = registry.get id := by
        rw [Registry.get, hsessions]
        rfl
      exact h.fewer (fun _ => (Known.same hget).1) (.of_loops hloops)
  | @write written record kept hget hwritten =>
      apply h.later
      · intro later hlater _
        rcases hlater with hnow | haway
        · rw [get_put] at hnow
          split at hnow
          · rename_i hid
            cases hnow
            exact ⟨record, Or.inl (hid ▸ hget), hwritten.grown⟩
          · exact ⟨later, Or.inl hnow, .refl later⟩
        · exact ⟨later, Or.inr haway, .refl later⟩
      · exact fun _ _ _ _ _ hloop _ _ => Or.inl hloop
  | @kick kicked drawn record now hget _ _ _ _ _ =>
      obtain ⟨written, stage, hkick⟩ := kickCheckpoint_spec registry kicked record now drawn
      exact h.kick htracked hget (.refl record) hkick
  | @insert record hid _ hempty =>
      have hget : (insertNew registry record).get id =
          if id = record.sessionId then some record else registry.get id :=
        OrderedMap.get?_set _ _ _ _
      intro later hlater hanchor
      by_cases hnew : id = record.sessionId
      · rw [if_pos hnew] at hget
        rcases hlater with hnow | ⟨haway, hsame⟩
        · rw [hget] at hnow
          cases hnow
          refine ⟨?_, ?_, ?_⟩
          · rw [hempty]
            exact Nat.zero_le _
          · rw [hempty]
            exact fun hpos => absurd hpos (Nat.lt_irrefl 0)
          · intro promise loop request hloop hloopId hposting
            refine absurd ⟨loop, hloop, ?_, by rw [hposting]; rfl⟩ (hunused.1 promise)
            rw [hloopId, hnew, hid]
        · exact absurd (hsame.trans (hnew.trans hid)) (hunused.2 later haway)
      · rw [if_neg hnew] at hget
        exact h.fewer (fun _ => (Known.same hget).1) (.of_loops rfl) later hlater hanchor
  | @remove removed nextId _ _ =>
      have hget : Registry.get { removeSession registry removed with nextId } id =
          if id = removed then none else registry.get id := get_removeSession registry removed id
      have hsends : SendsNothing registry { removeSession registry removed with nextId } id :=
        .of_loops rfl
      apply Measured.fewer h _ hsends
      intro later hlater
      rcases hlater with hnow | haway
      · rw [hget] at hnow
        split at hnow
        · cases hnow
        · exact Or.inl hnow
      · exact Or.inr haway
  | @anchor anchor record kept nextId _ _ _ hkept _ _ =>
      have hget : (anchored registry anchor kept nextId).get id =
          if id = anchor then some kept else registry.get id := OrderedMap.get?_set _ _ _ _
      apply h.later
      · intro later hlater hanchor
        rcases hlater with hnow | haway
        · rw [hget] at hnow
          split at hnow
          · cases hnow
            rw [hkept] at hanchor
            cases hanchor
          · exact ⟨later, Or.inl hnow, .refl later⟩
        · exact ⟨later, Or.inr haway, .refl later⟩
      · exact fun _ _ _ _ _ hloop _ _ => Or.inl hloop

/-- A change of records after which every flag was set before, on the same object. -/
theorem Joined.rewritten (h : Joined registry id) (hinFlight : next.inFlight = registry.inFlight)
    (hloops : next.loops = registry.loops)
    (hrecord : ∀ found, next.get id = some found → found.observation.inFlight = true →
      ∃ record, registry.get id = some record ∧ record.observation.inFlight = true ∧
        record.objectId = found.objectId) : Joined next id := by
  refine ⟨?_, ?_⟩
  · rw [hinFlight, hloops]
    exact h.mapped
  · intro found hfound hflag
    obtain ⟨record, hget, hset, hobject⟩ := hrecord found hfound hflag
    rw [hinFlight, hloops, ← hobject]
    exact h.owned record hget hset

theorem Joined.touch (h : Joined registry id) (htracked : Tracked registry detached)
    (htouch : Touch options drops uuid registry next) : Joined next id := by
  cases htouch with
  | quiet hsessions hinFlight hloops _ =>
      apply h.rewritten hinFlight hloops
      intro found hfound hflag
      rw [Registry.get, hsessions] at hfound
      exact ⟨found, hfound, hflag, rfl⟩
  | @write written record kept hget hwritten =>
      refine h.rewritten rfl rfl ?_
      intro found hfound hflag
      rw [get_put] at hfound
      split at hfound
      · rename_i hid
        cases hfound
        exact ⟨record, hid ▸ hget, hwritten.flag hflag, hwritten.objectId.symm⟩
      · exact ⟨found, hfound, hflag, rfl⟩
  | @kick kicked drawn record now hget _ _ _ _ _ =>
      obtain ⟨written, stage, hkick⟩ := kickCheckpoint_spec registry kicked record now drawn
      exact h.kick htracked hkick
  | @insert record hid _ hempty =>
      have hget : (insertNew registry record).get id =
          if id = record.sessionId then some record else registry.get id :=
        OrderedMap.get?_set _ _ _ _
      refine h.rewritten rfl rfl ?_
      intro found hfound hflag
      rw [hget] at hfound
      split at hfound
      · cases hfound
        rw [hempty] at hflag
        cases hflag
      · exact ⟨found, hfound, hflag, rfl⟩
  | @remove removed nextId _ _ =>
      have hget : Registry.get { removeSession registry removed with nextId } id =
          if id = removed then none else registry.get id := get_removeSession registry removed id
      have hmap : (registry.inFlight.delete removed).get? id =
          if id = removed then none else registry.inFlight.get? id :=
        OrderedMap.get?_delete _ _ _
      refine ⟨?_, ?_⟩
      · intro promise hpromise
        change (registry.inFlight.delete removed).get? id = some promise at hpromise
        rw [hmap] at hpromise
        split at hpromise
        · cases hpromise
        · exact h.mapped promise hpromise
      · intro found hfound hflag
        show ∃ promise loop, (registry.inFlight.delete removed).get? id = some promise ∧ _
        rw [hget] at hfound
        rw [hmap]
        split at hfound
        · cases hfound
        · rename_i hid
          rw [if_neg hid]
          exact h.owned found hfound hflag
  | @anchor anchor record kept nextId _ _ _ _ hempty _ =>
      have hget : (anchored registry anchor kept nextId).get id =
          if id = anchor then some kept else registry.get id := OrderedMap.get?_set _ _ _ _
      refine h.rewritten rfl rfl ?_
      intro found hfound hflag
      rw [hget] at hfound
      split at hfound
      · cases hfound
        rw [hempty] at hflag
        cases hflag
      · exact ⟨found, hfound, hflag, rfl⟩

/-- A call, which is a sequence of such changes. -/
theorem touches_account (htracked : Tracked registry detached)
    (hunused : Unused registry detached uuid)
    (htouches : Touches options drops uuid registry next) :
    (Measured registry detached id → Measured next detached id) ∧
      (Joined registry id → Joined next id) := by
  induction htouches with
  | nil => exact ⟨fun h => h, fun h => h⟩
  | cons head _ ih =>
      obtain ⟨hnext, hstill, -⟩ := htracked.touch hunused head
      obtain ⟨hmeasured, hjoined⟩ := ih hnext hstill
      exact ⟨fun h => hmeasured (h.touch htracked hunused head),
        fun h => hjoined (h.touch htracked head)⟩

/-! ## Rounds -/

section rounds

variable {promise : Nat} {loop : CheckpointLoop} {record : SessionRecord}

/-- The answer, where it commits anything, is for the count that was sent. -/
def CheckpointResult.Echoes (sent : Nat) : CheckpointResult → Prop
  | .ok response => response.eventCount = sent
  | .failed .. => True

theorem applyCheckpointResult_committed (options : RegistryOptions) (record : SessionRecord)
    {result : CheckpointResult} {sent : Nat} (hechoes : result.Echoes sent) :
    (applyCheckpointResult options record result).observation.lastCommittedEventCount ≤
      max record.observation.lastCommittedEventCount sent := by
  cases result with
  | ok response =>
      rw [CheckpointResult.Echoes] at hechoes
      subst hechoes
      exact Nat.le_refl _
  | failed kind status reason =>
      cases kind with
      | unavailable => exact Nat.zero_le _
      | _ => exact Nat.le_max_left _ _

/-- An answer writes to the observation of the object that is kept. -/
theorem checkpointAnswered_get (options : RegistryOptions) (promise : Nat)
    (result : CheckpointResult) (save : Nat) (hget : registry.get loop.sessionId = some record) :
    ∃ observation, (checkpointAnswered options registry promise loop result save).1.get
        loop.sessionId = some { record with observation } ∧
      (observation.inFlight = true → record.observation.inFlight = true) ∧
      observation.lastCommittedEventCount =
        (applyCheckpointResult options record result).observation.lastCommittedEventCount ∧
      observation.state = (applyCheckpointResult options record result).observation.state := by
  unfold checkpointAnswered
  simp only [hget]
  split
  · rename_i hgoes
    rw [Bool.and_eq_true] at hgoes
    obtain ⟨hflight, -⟩ := applyCheckpointResult_ok options record hgoes.1
    exact ⟨_, OrderedMap.get?_set_self _ _ _, fun h => hflight.symm.trans h, rfl, rfl⟩
  · exact ⟨_, OrderedMap.get?_set_self _ _ _, by nofun, rfl, rfl⟩

theorem checkpointAnswered_none (options : RegistryOptions) (promise : Nat)
    (result : CheckpointResult) (save : Nat) (hget : registry.get loop.sessionId = none) :
    (checkpointAnswered options registry promise loop result save).1.get loop.sessionId =
      none := by
  unfold checkpointAnswered
  simp only [hget]
  exact hget

theorem checkpointAnswered_stopped (options : RegistryOptions) (promise : Nat)
    (result : CheckpointResult) (save : Nat) :
    SendsNothing registry (checkpointAnswered options registry promise loop result save).1
      id := by
  unfold checkpointAnswered
  split
  · exact .stopped (by nofun) rfl
  · simp only
    split
    · exact .stopped (by nofun) rfl
    · exact .stopped (by nofun) rfl

/-- The next round of an activation asks for what its session has by then. -/
structure NextRound (registry : Registry) (loop : CheckpointLoop) (promise : Nat)
    (next : Registry) : Prop where
  get : ∀ record, registry.get loop.sessionId = some record →
    ∃ observation, next.get loop.sessionId = some { record with observation } ∧
      (observation.inFlight = true → record.observation.inFlight = true) ∧
      observation.lastCommittedEventCount = record.observation.lastCommittedEventCount ∧
      observation.state = record.observation.state
  absent : registry.get loop.sessionId = none → next.get loop.sessionId = none
  posts : ∀ other found request, next.loops.get? other = some found →
    found.stage = .posting request → registry.loops.get? other = some found ∨
      (found.sessionId = loop.sessionId ∧ ∃ record, registry.get loop.sessionId = some record ∧
        request.eventCount = sessionEventCount record ∧
        record.lastEventChainTip.isSome = true)

/-- The activation's own request, if it has one, is the only one that may be new. -/
theorem posts_set {stage : LoopStage}
    (hloops : next.loops = registry.loops.set promise { loop with stage })
    (hstage : ∀ request, stage = .posting request → ∃ record,
      registry.get loop.sessionId = some record ∧
        request.eventCount = sessionEventCount record ∧
        record.lastEventChainTip.isSome = true) (other : Nat) (found : CheckpointLoop)
    (request : CheckpointRequest) (hfound : next.loops.get? other = some found)
    (hposting : found.stage = .posting request) :
    registry.loops.get? other = some found ∨
      (found.sessionId = loop.sessionId ∧ ∃ record, registry.get loop.sessionId = some record ∧
        request.eventCount = sessionEventCount record ∧
        record.lastEventChainTip.isSome = true) := by
  rw [hloops, OrderedMap.get?_set] at hfound
  split at hfound
  · cases hfound
    exact Or.inr ⟨rfl, hstage request hposting⟩
  · exact Or.inl hfound

theorem setStage_nextRound (registry : Registry) (loop : CheckpointLoop) (promise : Nat)
    {stage : LoopStage} (hstage : ∀ request, stage ≠ .posting request) :
    NextRound registry loop promise (setStage registry promise loop stage) where
  get record hget := ⟨record.observation, hget, fun h => h, rfl, rfl⟩
  absent hget := hget
  posts := posts_set rfl fun request hposting => absurd hposting (hstage request)

theorem postRound_nextRound (registry : Registry) (loop : CheckpointLoop) (promise : Nat)
    (uuid : JsString) : NextRound registry loop promise (postRound registry promise loop uuid) := by
  unfold postRound
  cases hget : registry.get loop.sessionId with
  | none => exact setStage_nextRound registry loop promise (by nofun)
  | some record =>
      simp only
      split
      · refine ⟨fun found hfound => ?_, fun h => ?_, posts_set rfl (by nofun)⟩
        · rw [hget] at hfound
          cases hfound
          exact ⟨_, OrderedMap.get?_set_self _ _ _, by nofun, rfl, rfl⟩
        · rw [hget] at h
          cases h
      · rename_i chainTip htip
        refine ⟨fun found hfound => ?_, fun h => ?_, posts_set rfl fun request hposting => ?_⟩
        · exact ⟨found.observation, hfound, fun h => h, rfl, rfl⟩
        · rw [hget] at h
          cases h
        · cases hposting
          refine ⟨record, hget, rfl, ?_⟩
          rw [htip]
          rfl

theorem checkpointSaved_nextRound (registry : Registry) (promise : Nat) (again : Option Nat)
    (saved : Bool) (now : Int) (uuid : JsString) :
    NextRound registry loop promise
      (checkpointSaved registry promise loop again saved now uuid) := by
  unfold checkpointSaved
  cases again with
  | none => exact setStage_nextRound registry loop promise (by nofun)
  | some object =>
      simp only
      split
      · exact setStage_nextRound registry loop promise (by nofun)
      · cases hget : registry.get loop.sessionId with
        | none =>
            have hround := postRound_nextRound registry loop promise uuid
            exact hround
        | some record =>
            simp only
            split
            · -- The object that the last round wrote is written to before the next one.
              let written : SessionRecord := { record with
                observation :=
                  { record.observation with queued := false, lastAttemptAtWallMs := some now } }
              have hput : (registry.put loop.sessionId written).get loop.sessionId =
                  some written := OrderedMap.get?_set_self _ _ _
              have hround :=
                postRound_nextRound (registry.put loop.sessionId written) loop promise uuid
              refine ⟨fun found hfound => ?_, fun h => ?_, fun other found request hfound hposting
                => ?_⟩
              · rw [hget] at hfound
                cases hfound
                exact hround.get written hput
              · rw [hget] at h
                cases h
              · rcases hround.posts other found request hfound hposting with
                  hbefore | ⟨hid, kept, hkept, hcount, htip⟩
                · exact Or.inl hbefore
                · rw [hput] at hkept
                  cases hkept
                  exact Or.inr ⟨hid, record, hget, hcount, htip⟩
            · exact postRound_nextRound registry loop promise uuid

/-- The object that a round writes to is the one that was there. -/
theorem Joined.round (h : Joined registry id) {lost : Prop} {stage : LoopStage}
    (hloop : registry.loops.get? promise = some loop)
    (hround : RoundBy lost registry promise loop stage next)
    (hrecord : ∀ record, registry.get loop.sessionId = some record → ∃ observation,
      next.get loop.sessionId = some { record with observation } ∧
        (observation.inFlight = true → record.observation.inFlight = true))
    (habsent : registry.get loop.sessionId = none → next.get loop.sessionId = none) :
    Joined next id := by
  have hloops : ∀ p found, registry.loops.get? p = some found →
      ∃ later, next.loops.get? p = some later ∧ later.sessionId = found.sessionId ∧
        later.kicked = found.kicked := by
    intro p found hfound
    rw [hround.loops, OrderedMap.get?_set]
    split
    · rename_i hp
      rw [hp, hloop] at hfound
      cases hfound
      exact ⟨_, rfl, rfl, rfl⟩
    · exact ⟨found, hfound, rfl, rfl⟩
  refine ⟨?_, ?_⟩
  · intro p hmap
    rw [hround.inFlight] at hmap
    obtain ⟨found, hfound, hid⟩ := h.mapped p hmap
    obtain ⟨later, hlater, hsame, -⟩ := hloops p found hfound
    exact ⟨later, hlater, hsame.trans hid⟩
  · intro found hfound hflag
    have hbefore : ∃ record, registry.get id = some record ∧
        record.observation.inFlight = true ∧ record.objectId = found.objectId := by
      by_cases hid : id = loop.sessionId
      · subst hid
        cases hget : registry.get loop.sessionId with
        | none =>
            rw [habsent hget] at hfound
            cases hfound
        | some record =>
            obtain ⟨observation, hnext, hset⟩ := hrecord record hget
            rw [hnext] at hfound
            cases hfound
            exact ⟨record, rfl, hset hflag, rfl⟩
      · rw [hround.other id hid] at hfound
        exact ⟨found, hfound, hflag, rfl⟩
    obtain ⟨record, hget, hset, hobject⟩ := hbefore
    obtain ⟨p, waited, hmap, hwaited, hkicked⟩ := h.owned record hget hset
    obtain ⟨later, hlater, -, hsame⟩ := hloops p waited hwaited
    refine ⟨p, later, ?_, hlater, ?_⟩
    · rw [hround.inFlight]
      exact hmap
    · rw [hsame, hkicked, hobject]

theorem Covers.fewer (h : Covers registry id record) (hsends : SendsNothing registry next id) :
    Covers next id record where
  committed := h.committed
  tip := h.tip
  posted promise loop request hloop hid hposting :=
    h.posted promise loop request (hsends promise loop request hloop hid hposting) hid hposting

theorem Measured.answered (h : Measured registry detached id)
    (hloop : registry.loops.get? promise = some loop) {request : CheckpointRequest}
    (hposting : loop.stage = .posting request) (options : RegistryOptions)
    {result : CheckpointResult}
    (hechoes : loop.sessionId = id → result.Echoes request.eventCount) (save : Nat) :
    Measured (checkpointAnswered options registry promise loop result save).1 detached id := by
  have hstopped : SendsNothing registry
      (checkpointAnswered options registry promise loop result save).1 id :=
    checkpointAnswered_stopped options promise result save
  obtain ⟨stage, hround⟩ :=
    checkpointAnswered_round registry promise hposting options result save
  intro record hrecord hanchor
  by_cases hid : id = loop.sessionId
  · subst hid
    rcases hrecord with hnow | haway
    · cases hget : registry.get loop.sessionId with
      | none =>
          rw [checkpointAnswered_none options promise result save hget] at hnow
          cases hnow
      | some earlier =>
          obtain ⟨observation, hnext, -, hcommitted, -⟩ :=
            checkpointAnswered_get options promise result save hget
          rw [hnext] at hnow
          cases hnow
          have hcovers := h earlier (Or.inl hget) hanchor
          obtain ⟨hsent, htip⟩ := hcovers.posted promise loop request hloop rfl hposting
          have happlied := applyCheckpointResult_committed options earlier (hechoes rfl)
          refine ⟨?_, fun _ => htip, ?_⟩
          · show observation.lastCommittedEventCount ≤ sessionEventCount earlier
            rw [hcommitted]
            exact happlied.trans (max_le hcovers.committed hsent)
          · exact (hcovers.fewer hstopped).posted
    · exact (h record (Or.inr haway) hanchor).fewer hstopped
  · have hsame : (checkpointAnswered options registry promise loop result save).1.get id =
        registry.get id := hround.other id hid
    exact (h record ((Known.same hsame).1 hrecord) hanchor).fewer hstopped

theorem Measured.nextRound (h : Measured registry detached id)
    (habsent : ∀ record, detached record → registry.get record.sessionId = none)
    (hround : NextRound registry loop promise next)
    (hother : ∀ id ≠ loop.sessionId, next.get id = registry.get id) :
    Measured next detached id := by
  have hknown : ∀ record, Known next detached id record → ∃ earlier,
      Known registry detached id earlier ∧ Grown earlier record ∧
        sessionEventCount earlier = sessionEventCount record ∧
        earlier.lastEventChainTip = record.lastEventChainTip := by
    intro record hrecord
    rcases hrecord with hnow | haway
    · by_cases hid : id = loop.sessionId
      · subst hid
        cases hget : registry.get loop.sessionId with
        | none =>
            rw [hround.absent hget] at hnow
            cases hnow
        | some earlier =>
            obtain ⟨observation, hnext, -, hcommitted, -⟩ := hround.get earlier hget
            rw [hnext] at hnow
            cases hnow
            exact ⟨earlier, Or.inl hget, .of_eq rfl rfl rfl hcommitted.le, rfl, rfl⟩
      · rw [hother id hid] at hnow
        exact ⟨record, Or.inl hnow, .refl record, rfl, rfl⟩
    · exact ⟨record, Or.inr haway, .refl record, rfl, rfl⟩
  apply h.later
  · intro record hrecord _
    obtain ⟨earlier, hearlier, hgrown, -⟩ := hknown record hrecord
    exact ⟨earlier, hearlier, hgrown⟩
  · intro record other found request hrecord hfound hid hposting
    rcases hround.posts other found request hfound hposting with
      hbefore | ⟨hsame, live, hlive, hcount, htip⟩
    · exact Or.inl hbefore
    · right
      obtain ⟨earlier, hearlier, -, hevents, htips⟩ := hknown record hrecord
      rcases hearlier with hget | ⟨haway, hawayId⟩
      · rw [← hid, hsame, hlive] at hget
        cases hget
        rw [← hevents, ← htips]
        exact ⟨hcount.le, htip⟩
      · have := habsent earlier haway
        rw [hawayId, ← hid, hsame, hlive] at this
        cases this

/-- What a finished activation leaves. -/
theorem finished_account (hfinished : FinishedBy registry promise loop next)
    (hloop : registry.loops.get? promise = some loop)
    (hmeasured : Measured registry detached id) (h : Joined registry id) :
    Measured next detached id ∧ Joined next id := by
  have hloops : ∀ p found, next.loops.get? p = some found →
      registry.loops.get? p = some found := by
    intro p found hfound
    rw [hfinished.loops, OrderedMap.get?_delete] at hfound
    split at hfound
    · cases hfound
    · exact hfound
  have hget : ∀ found, next.get id = some found → ∃ record, registry.get id = some record ∧
      Grown record found ∧ record.objectId = found.objectId ∧
      (found.observation.inFlight = true → record.observation.inFlight = true) := by
    intro found hfound
    by_cases hid : id = loop.sessionId
    · subst hid
      rcases hfinished.record with hsame | ⟨-, kept, hkept, hnext⟩
      · exact ⟨found, hsame ▸ hfound, .refl found, rfl, fun h => h⟩
      · rw [hnext] at hfound
        cases hfound
        exact ⟨kept, hkept, .of_eq rfl rfl rfl (Nat.le_refl _), rfl, fun hset => by cases hset⟩
    · rw [hfinished.other id hid] at hfound
      exact ⟨found, hfound, .refl found, rfl, fun h => h⟩
  refine ⟨hmeasured.later ?_ fun _ p found _ _ hfound _ _ => Or.inl (hloops p found hfound),
    ⟨?_, ?_⟩⟩
  · intro record hrecord _
    rcases hrecord with hnow | haway
    · obtain ⟨earlier, hearlier, hgrown, -⟩ := hget record hnow
      exact ⟨earlier, Or.inl hearlier, hgrown⟩
    · exact ⟨record, Or.inr haway, .refl record⟩
  · -- The entry of the finished activation goes with it.
    intro p hmap
    rw [hfinished.inFlight] at hmap
    split at hmap
    · cases hmap
    · rename_i hkept
      obtain ⟨found, hfound, hid⟩ := h.mapped p hmap
      refine ⟨found, ?_, hid⟩
      rw [hfinished.loops, OrderedMap.get?_delete_ne]
      · exact hfound
      · rintro rfl
        rw [hloop] at hfound
        cases hfound
        exact hkept ⟨hid.symm, hmap⟩
  · intro found hfound hflag
    obtain ⟨record, hrecord, -, hobject, hset⟩ := hget found hfound
    obtain ⟨p, waited, hmap, hwaited, hkicked⟩ := h.owned record hrecord (hset hflag)
    have hp : p ≠ promise := by
      rintro rfl
      rw [hloop] at hwaited
      cases hwaited
      obtain ⟨owner, howner, hid⟩ := h.mapped p hmap
      rw [hloop] at howner
      cases howner
      subst hid
      have hcleared := hfinished.cleared record hrecord hmap hkicked found hfound
      rw [hcleared] at hflag
      cases hflag
    refine ⟨p, waited, ?_, ?_, hkicked.trans hobject⟩
    · rw [hfinished.inFlight, if_neg]
      · exact hmap
      · rintro ⟨-, hother⟩
        rw [hmap] at hother
        exact hp (Option.some.inj hother)
    · rw [hfinished.loops, OrderedMap.get?_delete_ne _ hp]
      exact hwaited

end rounds

instance (sent : Nat) (result : CheckpointResult) : Decidable (result.Echoes sent) :=
  match result with
  | .ok response => inferInstanceAs (Decidable (response.eventCount = sent))
  | .failed .. => inferInstanceAs (Decidable True)

namespace Process

variable {process next : Process}

/-- What the session asked for is what an answer commits, and the sessions that are loaded
are committed within their events. -/
def Echoes (id : JsString) (process : Process) : Action → Prop
  | .answerCheckpoint promise result =>
      ∀ loop ∈ process.registry.loops.get? promise, loop.sessionId = id →
        match loop.stage with
        | .posting request => result.Echoes request.eventCount
        | _ => True
  | .crash snapshot =>
      ∀ stored ∈ snapshot, stored.sessionId = id → stored.continuationAnchor = false →
        Within stored
  | _ => True

/-- No rollback of `discardPersisted` puts the session back in flight. -/
def PutsBackIdle (id : JsString) (process : Process) : Action → Prop
  | .resumeDiscard task =>
      match process.discards.get? task with
      | some (.deleting promise _ removed) =>
          process.outcomes.get? promise = some false → ∀ record ∈ removed,
            record.sessionId = id → record.observation.inFlight = false
      | _ => True
  | _ => True

/-- What a run keeps of a session, whose checkpoints are answered for what was sent and
which is not put back in flight. -/
structure Account (id : JsString) (process : Process) : Prop where
  measured : Measured process.registry (Detached process.discards) id
  joined : Joined process.registry id

theorem Measured.tasks {discards later : OrderedMap Nat DiscardTask}
    (h : Measured registry (Detached discards) id)
    (hfewer : ∀ record, Detached later record → Detached discards record) :
    Measured registry (Detached later) id :=
  h.fewer (fun record hrecord => hrecord.imp_right fun haway =>
    ⟨hfewer record haway.1, haway.2⟩) (.of_loops rfl)

theorem account_boot {snapshot : List SessionRecord}
    (hstored : ∀ stored ∈ snapshot, stored.sessionId = id → stored.continuationAnchor = false →
      Within stored) (nextId : Nat) : Account id (boot snapshot nextId) := by
  obtain ⟨hloops, hinFlight⟩ := boot_loops snapshot nextId
  refine ⟨?_, ?_, ?_⟩
  · intro record hrecord hanchor
    rcases hrecord with hget | ⟨⟨task, promise, pending, removed, htask, -⟩, -⟩
    · obtain ⟨stored, hmem, hid, objectId, rfl⟩ := get_load hget
      obtain ⟨hcommitted, htip⟩ := hstored stored hmem hid hanchor
      refine ⟨hcommitted, htip, ?_⟩
      intro promise loop request hloop
      rw [hloops] at hloop
      cases hloop
    · cases htask
  · intro promise hmap
    rw [hinFlight] at hmap
    cases hmap
  · intro record hget hflag
    obtain ⟨stored, -, -, objectId, rfl⟩ := get_load hget
    cases hflag

theorem Account.detach (h : Account id process) (hsound : Sound process) (task : Nat)
    (ids : List JsString) : Account id (process.detached task ids) := by
  have htaken := detach_taken hsound.tracked.keyed ids
  refine ⟨?_, ?_, ?_⟩
  · apply h.measured.later
    · intro record hrecord _
      rcases hrecord with hnow | ⟨⟨other, promise, pending, removed, hother, hmem⟩, hid⟩
      · have hnow : (World.detach process.registry ids).1.get id = some record := hnow
        rw [htaken.get] at hnow
        split at hnow
        · cases hnow
        · exact ⟨record, Or.inl hnow, .refl record⟩
      · change (process.discards.set task _).get? other = _ at hother
        rw [OrderedMap.get?_set] at hother
        split at hother
        · cases hother
          obtain ⟨-, kept, objectId, hkept, rfl⟩ := htaken.removed record hmem
          rw [hid] at hkept
          exact ⟨kept, Or.inl hkept, .of_eq rfl rfl rfl (Nat.le_refl _)⟩
        · exact ⟨record, Or.inr ⟨⟨other, _, _, _, hother, hmem⟩, hid⟩, .refl record⟩
    · intro _ promise loop _ _ hloop _ _
      have hloop : (World.detach process.registry ids).1.loops.get? promise = some loop := hloop
      rw [htaken.loops] at hloop
      exact Or.inl hloop
  · intro promise hmap
    have hkept := h.joined.mapped promise (htaken.fewer promise id hmap)
    rw [← htaken.loops] at hkept
    exact hkept
  · intro record hrecord hflag
    have hrecord : (World.detach process.registry ids).1.get id = some record := hrecord
    rw [htaken.get] at hrecord
    split at hrecord
    · cases hrecord
    · rename_i hout
      have hkept := h.joined.owned record hrecord hflag
      rw [← htaken.loops, ← htaken.inFlight id hout] at hkept
      exact hkept

theorem Account.restore (h : Account id process) (hsound : Sound process) {task promise : Nat}
    {pending : List (JsString × Option (List BufferMutation))} {removed : List SessionRecord}
    (htask : process.discards.get? task = some (.deleting promise pending removed))
    (hidle : ∀ record ∈ removed, record.sessionId = id →
      record.observation.inFlight = false) : Account id (process.restored task pending removed) := by
  have hback := hsound.putBack htask
  have hget : ∀ record,
      (removed.foldl (World.restoreOne pending) process.registry).get id = some record →
      (record ∈ removed ∧ record.sessionId = id) ∨ process.registry.get id = some record := by
    intro record hrecord
    by_cases hid : id ∈ removed.map SessionRecord.sessionId
    · obtain ⟨kept, hkept, rfl⟩ := List.mem_map.1 hid
      rw [hback.back kept hkept] at hrecord
      cases hrecord
      exact Or.inl ⟨hkept, rfl⟩
    · rw [hback.get id hid] at hrecord
      exact Or.inr hrecord
  refine ⟨?_, ?_⟩
  · apply h.measured.fewer
    · intro record hrecord
      rcases hrecord with hnow | haway
      · rcases hget record hnow with ⟨hmem, hid⟩ | hkept
        · exact Or.inr ⟨⟨task, _, _, _, htask, hmem⟩, hid⟩
        · exact Or.inl hkept
      · exact Or.inr ⟨detached_set (by nofun) haway.1, haway.2⟩
    · exact .of_loops hback.loops
  · apply h.joined.rewritten hback.inFlight hback.loops
    intro record hrecord hflag
    rcases hget record hrecord with ⟨hmem, hid⟩ | hkept
    · rw [hidle record hmem hid] at hflag
      cases hflag
    · exact ⟨record, hkept, hflag, rfl⟩

/-- A change of a registry that neither records nor activations take part in. -/
theorem Account.quiet (h : Account id process)
    (hsessions : next.registry.sessions = process.registry.sessions)
    (hinFlight : next.registry.inFlight = process.registry.inFlight)
    (hloops : next.registry.loops = process.registry.loops)
    (hdiscards : next.discards = process.discards) : Account id next := by
  have hget : next.registry.get id = process.registry.get id := by
    rw [Registry.get, hsessions]
    rfl
  refine ⟨?_, h.joined.rewritten hinFlight hloops ?_⟩
  · rw [hdiscards]
    exact h.measured.fewer (fun _ => (Known.same hget).1) (.of_loops hloops)
  · intro record hrecord hflag
    rw [hget] at hrecord
    exact ⟨record, hrecord, hflag, rfl⟩

/-- A round of a call of `flushObservation`. -/
theorem Account.round (h : Account id process) (hsound : Sound process)
    {flush : ObservationFlush} {result : Registry × Option ObservationFlush}
    {now : Int} {uuid : JsString} (hround : RoundOf process.registry flush now uuid result) :
    Account id { process with registry := result.1 } := by
  cases hround with
  | starts _ hget _ _ _ hstarted =>
      obtain ⟨written, stage, hkick⟩ := kickedBy_of_eq hstarted
      refine ⟨h.measured.kick hsound.tracked hget ?_ hkick, h.joined.kick hsound.tracked hkick⟩
      exact .of_eq rfl rfl rfl (Nat.le_refl _)
  | _ => exact h.quiet rfl rfl rfl rfl

theorem account_step (hsound : Sound process) (h : Account id process) {action : Action}
    (hfresh : process.Fresh action) (hechoes : Echoes id process action)
    (hidle : PutsBackIdle id process action)
    (hnext : process.step P options action = some next) : Account id next := by
  cases action with
  | call made clock uuid =>
      cases hnext
      obtain ⟨hmeasured, hjoined⟩ := touches_account hsound.tracked hfresh.unused
        (made.run_touches P options hsound.tracked.keyed hfresh.1 clock)
      exact ⟨hmeasured h.measured, hjoined h.joined⟩
  | persist =>
      cases hnext
      exact h.quiet rfl rfl rfl rfl
  | queue queues =>
      cases hnext
      exact h.quiet rfl rfl rfl rfl
  | settle waiters saved =>
      cases hnext
      exact h.quiet rfl rfl rfl rfl
  | discardPersisted ids =>
      cases hnext
      have hmeasured : Measured process.registry
          (Detached (process.discards.set process.registry.nextId
            (.settling process.registry.nextId ids))) id :=
        Measured.tasks h.measured fun _ => detached_set (by nofun)
      exact ⟨hmeasured.fewer (fun _ h => h) (.of_loops rfl), h.joined.rewritten rfl rfl
        fun record hget hflag => ⟨record, hget, hflag, rfl⟩⟩
  | resumeDiscard task =>
      rcases step_resumeDiscard hnext with ⟨promise, ids, -, rfl⟩ |
        ⟨promise, pending, removed, htask, hfailed, rfl⟩ | rfl
      · exact (h.detach hsound task ids).quiet rfl rfl rfl rfl
      · simp only [PutsBackIdle, htask] at hidle
        exact (h.restore hsound htask (hidle hfailed)).quiet rfl rfl rfl rfl
      · exact ⟨Measured.tasks h.measured fun _ => detached_delete, h.joined⟩
  | answerCheckpoint promise result =>
      obtain ⟨loop, request, hloop, hposting, hcases⟩ := step_answerCheckpoint hnext
      obtain ⟨stage, hround⟩ := checkpointAnswered_round process.registry promise hposting
        options result process.registry.nextId
      have hanswered : Account id { process with
          registry := (checkpointAnswered options process.registry promise loop result
            process.registry.nextId).1 } := by
        refine ⟨h.measured.answered hloop hposting options ?_ _,
          h.joined.round hloop hround ?_ ?_⟩
        · intro hid
          have hechoed := hechoes loop hloop hid
          rw [hposting] at hechoed
          exact hechoed
        · intro record hget
          obtain ⟨observation, hwritten, hset, -⟩ :=
            checkpointAnswered_get options promise result process.registry.nextId hget
          exact ⟨observation, hwritten, hset⟩
        · exact checkpointAnswered_none options promise result _
      rcases hcases with rfl | rfl
      · exact hanswered
      · exact hanswered.quiet rfl rfl rfl rfl
  | resumeLoop promise now uuid =>
      obtain ⟨loop, hloop, ⟨save, again, saved, hsaving, -, rfl⟩ | ⟨-, rfl⟩⟩ :=
        step_resumeLoop hnext
      · obtain ⟨stage, hround⟩ :=
          checkpointSaved_round process.registry promise hsaving saved now uuid
        have hnextRound : NextRound process.registry loop promise
            (checkpointSaved process.registry promise loop again saved now uuid) :=
          checkpointSaved_nextRound _ promise again saved now uuid
        refine ⟨h.measured.nextRound hsound.tracked.absent hnextRound hround.other,
          h.joined.round hloop hround ?_ hnextRound.absent⟩
        intro record hget
        obtain ⟨observation, hwritten, hset, -⟩ := hnextRound.get record hget
        exact ⟨observation, hwritten, hset⟩
      · obtain ⟨hmeasured, hjoined⟩ := finished_account
          (loopFinished_spec process.registry promise loop) hloop h.measured h.joined
        exact ⟨hmeasured, hjoined⟩
  | flushObservation flushed now uuid =>
      cases hnext
      cases hcheckpoint : options.checkpoint with
      | false =>
          rw [startFlush_unwired process hcheckpoint]
          exact h
      | true =>
          rw [startFlush_eq process hcheckpoint]
          have hbegun : Account id (process.begun flushed) := h.quiet rfl rfl rfl rfl
          exact (hbegun.round (hsound.begun flushed) (flushRound_spec _ ⟨flushed, 0, false, none⟩ now
            uuid)).quiet rfl rfl rfl rfl
  | resumeFlush task now uuid =>
      obtain ⟨flush, -, ⟨promise, -, -, rfl⟩ | ⟨-, rfl⟩⟩ := step_resumeFlush hnext
      · exact h.quiet rfl rfl rfl rfl
      · exact (h.round hsound (flushRound_spec process.registry flush now uuid)).quiet rfl rfl
          rfl rfl
  | crash snapshot =>
      cases hnext
      exact account_boot hechoes _

theorem account_run {first : Process} (hsound : Sound first) (h : Account id first)
    (run : Run (step P options) (fun process action => process.Fresh action ∧
      Echoes id process action ∧ PutsBackIdle id process action) first process) :
    Sound process ∧ Account id process := by
  refine run.invariant (I := fun process => Sound process ∧ Account id process) ?_ ⟨hsound, h⟩
  intro state action next hstate hcondition hnext
  exact ⟨(sound_step hstate.1 hcondition.1 hnext).1,
    account_step hstate.1 hstate.2 hcondition.1 hcondition.2.1 hcondition.2.2 hnext⟩

end Process

end Pmbah.Producer
