import Pmbah.Producer.Spared

/-!
# What `flushObservation` completes

A call for a session that is committed in part returns with the whole session committed, as
long as the requests that are out meanwhile are answered for what was sent and no rollback
of `discardPersisted` has put the session back in flight.
-/

namespace Pmbah.Producer

open Js Format Library

namespace Process

variable {P : Platform} {options : RegistryOptions} {process next : Process} {id : JsString}
  {task count : Nat} {flush : ObservationFlush}

/-- The record is kept, or it has been taken out and is not in flight. -/
def Standing (process : Process) (id : JsString) (record : SessionRecord) : Prop :=
  process.registry.get id = some record ∨
    (Detached process.discards record ∧ record.sessionId = id ∧
      record.observation.inFlight = false)

/-- While a call is under way the session gets no edit, its requests succeed, and the
process lives on. -/
def LeavesAlone (id : JsString) (process : Process) : Action → Prop
  | .call made clock uuid => uuid ≠ id ∧ made.Spares id process.registry clock
  | .answerCheckpoint promise result =>
      ∀ loop ∈ process.registry.loops.get? promise, loop.sessionId = id → result.isOk = true
  | .crash _ => False
  | _ => True

/-- The session later on, with the same events and no less of them committed. -/
structure Onward (record later : SessionRecord) : Prop where
  eventCount : sessionEventCount later = sessionEventCount record
  committed : record.observation.lastCommittedEventCount ≤
    later.observation.lastCommittedEventCount
  state : record.observation.state ≠ .diverged → later.observation.state ≠ .diverged
  anchor : later.continuationAnchor = record.continuationAnchor

theorem Onward.refl (record : SessionRecord) : Onward record record :=
  ⟨rfl, Nat.le_refl _, fun h => h, rfl⟩

/-- An object that a checkpoint has written to. -/
theorem Onward.observed {record : SessionRecord} {observation : SessionObservation}
    (hcommitted : record.observation.lastCommittedEventCount ≤
      observation.lastCommittedEventCount)
    (hstate : record.observation.state ≠ .diverged → observation.state ≠ .diverged) :
    Onward record { record with observation } :=
  ⟨rfl, hcommitted, hstate, rfl⟩

/-- A session that had `count` events when the call under way as `task` began. -/
structure Poised (id : JsString) (task count : Nat) (process : Process) : Prop where
  steady : ∀ record, Standing process id record → sessionEventCount record = count ∧
    record.observation.lastCommittedEventCount ≠ 0 ∧
    record.observation.state ≠ .diverged ∧ record.continuationAnchor = false
  /-- Whatever has been started meanwhile asks for all of the events. -/
  sent : ∀ record, Standing process id record →
    record.observation.lastCommittedEventCount < count → ∀ promise loop, task ≤ promise →
      process.registry.loops.get? promise = some loop → loop.sessionId = id →
      ∃ request, loop.stage = .posting request ∧ request.eventCount = count

/-- What the call knows about the activation that it waits for. -/
structure Underway (id : JsString) (task count : Nat) (process : Process)
    (flush : ObservationFlush) : Prop extends Poised id task count process where
  session : flush.sessionId = id
  /-- What was in flight before is what the call waits for. -/
  older : ∀ promise, process.registry.inFlight.get? id = some promise → promise < task →
    flush.awaiting = some promise
  /-- What the call started, or joined in its second round, is still out. -/
  last : ∀ record, Standing process id record →
    record.observation.lastCommittedEventCount < count →
    flush.kicked = true ∨ 2 ≤ flush.round → ∃ promise loop, task ≤ promise ∧
      flush.awaiting = some promise ∧ process.registry.loops.get? promise = some loop ∧
      loop.sessionId = id

/-- What a step of others has to leave for a call to go on. -/
structure Carries (id : JsString) (task count : Nat) (process next : Process) : Prop where
  record : ∀ later, Standing next id later →
    ∃ record, Standing process id record ∧ Onward record later
  sent : ∀ later, Standing next id later →
    later.observation.lastCommittedEventCount < count → ∀ promise loop, task ≤ promise →
      next.registry.loops.get? promise = some loop → loop.sessionId = id →
      process.registry.loops.get? promise = some loop ∨
        ∃ request, loop.stage = .posting request ∧ request.eventCount = count
  older : ∀ promise, next.registry.inFlight.get? id = some promise → promise < task →
    process.registry.inFlight.get? id = some promise
  kept : ∀ later, Standing next id later →
    later.observation.lastCommittedEventCount < count → ∀ promise loop, task ≤ promise →
      process.registry.loops.get? promise = some loop → loop.sessionId = id →
      ∃ after, next.registry.loops.get? promise = some after ∧ after.sessionId = id

theorem Poised.carried (h : Poised id task count process)
    (hcarries : Carries id task count process next) : Poised id task count next where
  steady later hlater := by
    obtain ⟨record, hrecord, honward⟩ := hcarries.record later hlater
    obtain ⟨hcount, hcommitted, hstate, hanchor⟩ := h.steady record hrecord
    refine ⟨honward.eventCount.trans hcount, ?_, honward.state hstate,
      honward.anchor.trans hanchor⟩
    have := honward.committed
    omega
  sent later hlater hbehind promise loop hnew hloop hid := by
    obtain ⟨record, hrecord, honward⟩ := hcarries.record later hlater
    rcases hcarries.sent later hlater hbehind promise loop hnew hloop hid with hbefore | hnow
    · exact h.sent record hrecord (honward.committed.trans_lt hbehind) promise loop hnew hbefore
        hid
    · exact hnow

theorem Underway.carried (h : Underway id task count process flush)
    (hcarries : Carries id task count process next) : Underway id task count next flush where
  toPoised := h.toPoised.carried hcarries
  session := h.session
  older promise hmap hold := h.older promise (hcarries.older promise hmap hold) hold
  last later hlater hbehind hround := by
    obtain ⟨record, hrecord, honward⟩ := hcarries.record later hlater
    obtain ⟨promise, loop, hnew, hawaiting, hloop, hid⟩ :=
      h.last record hrecord (honward.committed.trans_lt hbehind) hround
    obtain ⟨after, hafter, hsame⟩ :=
      hcarries.kept later hlater hbehind promise loop hnew hloop hid
    exact ⟨promise, after, hnew, hawaiting, hafter, hsame⟩

/-- A step that leaves the activations alone and no record that was not standing. -/
theorem Carries.quiet (hloops : next.registry.loops = process.registry.loops)
    (hinFlight : ∀ promise, next.registry.inFlight.get? id = some promise →
      process.registry.inFlight.get? id = some promise)
    (hrecord : ∀ later, Standing next id later →
      ∃ record, Standing process id record ∧ Onward record later) :
    Carries id task count process next where
  record := hrecord
  sent _ _ _ promise loop _ hloop _ := Or.inl (by rwa [hloops] at hloop)
  older promise hmap _ := hinFlight promise hmap
  kept _ _ _ promise loop _ hloop hid := ⟨loop, by rwa [hloops], hid⟩

/-! ## Steps of others -/

/-- A change of the registry that spares the session. -/
theorem Carries.aside (haside : Aside process.registry next.registry id)
    (hdiscards : next.discards = process.discards) : Carries id task count process next := by
  refine ⟨?_, ?_, fun promise hmap _ => haside.inFlight promise hmap, ?_⟩
  · intro later hlater
    rcases hlater with hnow | haway
    · obtain ⟨record, hrecord, hsame⟩ := haside.get later hnow
      refine ⟨record, Or.inl hrecord, hsame.eventCount, ?_, ?_, hsame.anchor⟩
      · rw [hsame.observation]
      · rw [hsame.observation]
        exact fun h => h
    · rw [hdiscards] at haway
      exact ⟨later, Or.inr haway, .refl later⟩
  · exact fun _ _ _ promise loop _ hloop hid => Or.inl ((haside.loops promise loop hid).1 hloop)
  · exact fun _ _ _ promise loop _ hloop hid =>
      ⟨loop, (haside.loops promise loop hid).2 hloop, hid⟩

/-- A step that neither records nor activations take part in. -/
theorem Carries.still (hsessions : next.registry.sessions = process.registry.sessions)
    (hloops : next.registry.loops = process.registry.loops)
    (hinFlight : next.registry.inFlight = process.registry.inFlight)
    (hdiscards : next.discards = process.discards) : Carries id task count process next := by
  apply Carries.aside (.of_get _ hloops hinFlight) hdiscards
  rw [Registry.get, hsessions]
  rfl

theorem Carries.trans {last : Process} (h : Carries id task count process next)
    (h' : Carries id task count next last) : Carries id task count process last where
  record later hlater := by
    obtain ⟨between, hbetween, honward⟩ := h'.record later hlater
    obtain ⟨record, hrecord, hbefore⟩ := h.record between hbetween
    exact ⟨record, hrecord, honward.eventCount.trans hbefore.eventCount,
      hbefore.committed.trans honward.committed, fun hopen => honward.state (hbefore.state hopen),
      honward.anchor.trans hbefore.anchor⟩
  sent later hlater hbehind promise loop hnew hloop hid := by
    obtain ⟨between, hbetween, honward⟩ := h'.record later hlater
    rcases h'.sent later hlater hbehind promise loop hnew hloop hid with hbefore | hnow
    · exact h.sent between hbetween (honward.committed.trans_lt hbehind) promise loop hnew hbefore
        hid
    · exact Or.inr hnow
  older promise hmap hold := h.older promise (h'.older promise hmap hold) hold
  kept later hlater hbehind promise loop hnew hloop hid := by
    obtain ⟨between, hbetween, honward⟩ := h'.record later hlater
    obtain ⟨after, hafter, hsame⟩ := h.kept between hbetween
      (honward.committed.trans_lt hbehind) promise loop hnew hloop hid
    exact h'.kept later hlater hbehind promise after hnew hafter hsame

/-- A round of an activation of the session finds its record where it was, and standing. -/
theorem Poised.live (h : Poised id task count process) (hsound : Sound process)
    {promise : Nat} (hworks : Works process.registry promise id) {record : SessionRecord}
    (hrecord : Standing process id record) : process.registry.get id = some record := by
  rcases hrecord with hget | ⟨haway, hid, hidle⟩
  · exact hget
  · have hrecord : Standing process id record := Or.inr ⟨haway, hid, hidle⟩
    rw [← hid] at hworks
    rcases hsound.tracked.away promise record haway hworks with hflag | hsettled
    · rw [hidle] at hflag
      cases hflag
    · exact absurd hsettled.2.1 (h.steady record hrecord).2.1

theorem carries_answer (h : Poised id task count process) (hsound : Sound process)
    {promise : Nat} {loop : CheckpointLoop} {request : CheckpointRequest}
    (hloop : process.registry.loops.get? promise = some loop)
    (hposting : loop.stage = .posting request) {result : CheckpointResult}
    (hechoes : loop.sessionId = id → result.Echoes request.eventCount ∧ result.isOk = true)
    (save : Nat) :
    Carries id task count process { process with
      registry := (checkpointAnswered options process.registry promise loop result save).1 } := by
  obtain ⟨stage, hround⟩ :=
    checkpointAnswered_round process.registry promise hposting options result save
  have hloops : ∀ p, (checkpointAnswered options process.registry promise loop result
      save).1.loops.get? p =
      if p = promise then some { loop with stage } else process.registry.loops.get? p := by
    intro p
    rw [hround.loops, OrderedMap.get?_set]
  by_cases hid : loop.sessionId = id
  · subst hid
    obtain ⟨hecho, hok⟩ := hechoes rfl
    cases result with
    | failed kind status reason => cases hok
    | ok response =>
        have hworks : Works process.registry promise loop.sessionId :=
          ⟨loop, hloop, rfl, by rw [hposting]; rfl⟩
        have hrecord : ∀ later, Standing { process with
            registry := (checkpointAnswered options process.registry promise loop
              (.ok response) save).1 } loop.sessionId later →
            ∃ record, process.registry.get loop.sessionId = some record ∧ Onward record later ∧
              request.eventCount ≤ later.observation.lastCommittedEventCount := by
          intro later hlater
          cases hget : process.registry.get loop.sessionId with
          | none =>
              rcases hlater with hnow | haway
              · have hnone := checkpointAnswered_none options promise (.ok response) save hget
                rw [show (checkpointAnswered options process.registry promise loop
                  (.ok response) save).1.get loop.sessionId = some later from hnow] at hnone
                cases hnone
              · have hlive := h.live hsound hworks (Or.inr haway)
                rw [hget] at hlive
                cases hlive
          | some record =>
              rcases hlater with hnow | haway
              · obtain ⟨observation, hnext, -, hcommitted, hstate⟩ :=
                  checkpointAnswered_get options promise (.ok response) save hget
                rw [show (checkpointAnswered options process.registry promise loop
                  (.ok response) save).1.get loop.sessionId = some later from hnow] at hnext
                cases hnext
                have happlied : (applyCheckpointResult options record
                    (.ok response)).observation.lastCommittedEventCount =
                    max record.observation.lastCommittedEventCount response.eventCount := rfl
                have hecho : response.eventCount = request.eventCount := hecho
                rw [happlied, hecho] at hcommitted
                refine ⟨record, rfl, .observed ?_ fun _ => ?_, ?_⟩
                · rw [hcommitted]
                  exact Nat.le_max_left _ _
                · rw [hstate]
                  show coverage _ _ ≠ _
                  unfold coverage
                  split
                  · nofun
                  · nofun
                · show request.eventCount ≤ observation.lastCommittedEventCount
                  rw [hcommitted]
                  exact Nat.le_max_right _ _
              · have hlive := h.live hsound hworks (Or.inr haway)
                rw [hget] at hlive
                cases hlive
                have habsent := hsound.tracked.absent _ haway.1
                rw [haway.2.1, hget] at habsent
                cases habsent
        refine ⟨?_, ?_, ?_, ?_⟩
        · intro later hlater
          obtain ⟨record, hget, honward, -⟩ := hrecord later hlater
          exact ⟨record, Or.inl hget, honward⟩
        · -- An answer to what was started meanwhile commits everything.
          intro later hlater hbehind p found hnew hfound hsame
          have hfound : (checkpointAnswered options process.registry promise loop
            (.ok response) save).1.loops.get? p = some found := hfound
          rw [hloops] at hfound
          split at hfound
          · rename_i hp
            obtain ⟨record, hget, honward, hsent⟩ := hrecord later hlater
            obtain ⟨posted, hposted, hall⟩ := h.sent record (Or.inl hget)
              (honward.committed.trans_lt hbehind) p loop hnew (hp ▸ hloop) rfl
            rw [hposting] at hposted
            cases hposted
            omega
          · exact Or.inl hfound
        · intro p hmap _
          have hmap : (checkpointAnswered options process.registry promise loop
            (.ok response) save).1.inFlight.get? loop.sessionId = some p := hmap
          rwa [hround.inFlight] at hmap
        · intro later _ _ p found _ hfound hsame
          show ∃ after, (checkpointAnswered options process.registry promise loop
            (.ok response) save).1.loops.get? p = some after ∧ _
          rw [hloops]
          split
          · exact ⟨_, rfl, rfl⟩
          · exact ⟨found, hfound, hsame⟩
  · exact .aside (hround.aside hid hloop) rfl

theorem carries_save (h : Poised id task count process)
    {promise : Nat} {loop : CheckpointLoop} {save : Nat} {again : Option Nat}
    (hloop : process.registry.loops.get? promise = some loop)
    (hsaving : loop.stage = .saving save again) (saved : Bool) (now : Int) (uuid : JsString) :
    Carries id task count process { process with
      registry := checkpointSaved process.registry promise loop again saved now uuid } := by
  obtain ⟨stage, hround⟩ := checkpointSaved_round process.registry promise hsaving saved now uuid
  have hnext : NextRound process.registry loop promise
      (checkpointSaved process.registry promise loop again saved now uuid) :=
    checkpointSaved_nextRound _ promise again saved now uuid
  generalize checkpointSaved process.registry promise loop again saved now uuid = registry
    at hround hnext
  by_cases hid : loop.sessionId = id
  · subst hid
    have hrecord : ∀ later, Standing { process with registry } loop.sessionId later →
        ∃ record, Standing process loop.sessionId record ∧ Onward record later := by
      intro later hlater
      rcases hlater with hnow | haway
      · cases hget : process.registry.get loop.sessionId with
        | none =>
            have hnone := hnext.absent hget
            rw [show registry.get loop.sessionId = some later from hnow] at hnone
            cases hnone
        | some record =>
            obtain ⟨observation, hwritten, -, hcommitted, hstate⟩ := hnext.get record hget
            rw [show registry.get loop.sessionId = some later from hnow] at hwritten
            cases hwritten
            exact ⟨record, Or.inl hget, .observed hcommitted.ge fun h => hstate ▸ h⟩
      · exact ⟨later, Or.inr haway, .refl later⟩
    refine ⟨hrecord, ?_, ?_, ?_⟩
    · -- Nothing started meanwhile waits for a save while events are left to commit.
      intro later hlater hbehind p found hnew hfound _
      have hfound : registry.loops.get? p = some found := hfound
      rw [hround.loops, OrderedMap.get?_set] at hfound
      split at hfound
      · rename_i hp
        obtain ⟨record, hstanding, honward⟩ := hrecord later hlater
        obtain ⟨posted, hposted, -⟩ := h.sent record hstanding
          (honward.committed.trans_lt hbehind) p loop hnew (hp ▸ hloop) rfl
        rw [hsaving] at hposted
        cases hposted
      · exact Or.inl hfound
    · intro p hmap _
      have hmap : registry.inFlight.get? loop.sessionId = some p := hmap
      rwa [hround.inFlight] at hmap
    · intro later _ _ p found _ hfound hsame
      show ∃ after, registry.loops.get? p = some after ∧ _
      rw [hround.loops, OrderedMap.get?_set]
      split
      · exact ⟨_, rfl, rfl⟩
      · exact ⟨found, hfound, hsame⟩
  · exact .aside (hround.aside hid hloop) rfl

theorem carries_finish (h : Poised id task count process)
    {promise : Nat} {loop : CheckpointLoop}
    (hloop : process.registry.loops.get? promise = some loop) (hended : loop.stage = .ended)
    {registry : Registry} (hfinished : FinishedBy process.registry promise loop registry) :
    Carries id task count process { process with registry } := by
  by_cases hid : loop.sessionId = id
  · subst hid
    have hrecord : ∀ later, Standing { process with registry } loop.sessionId later →
        ∃ record, Standing process loop.sessionId record ∧ Onward record later := by
      intro later hlater
      rcases hlater with hnow | haway
      · have hnow : registry.get loop.sessionId = some later := hnow
        rcases hfinished.record with hsame | ⟨-, kept, hkept, hcleared⟩
        · exact ⟨later, Or.inl (hsame ▸ hnow), .refl later⟩
        · rw [hcleared] at hnow
          cases hnow
          exact ⟨kept, Or.inl hkept, .observed (Nat.le_refl _) fun h => h⟩
      · exact ⟨later, Or.inr haway, .refl later⟩
    refine ⟨hrecord, ?_, ?_, ?_⟩
    · intro _ _ _ p found _ hfound _
      have hfound : registry.loops.get? p = some found := hfound
      rw [hfinished.loops, OrderedMap.get?_delete] at hfound
      split at hfound
      · cases hfound
      · exact Or.inl hfound
    · intro p hmap _
      have hmap : registry.inFlight.get? loop.sessionId = some p := hmap
      rw [hfinished.inFlight] at hmap
      split at hmap
      · cases hmap
      · exact hmap
    · -- Nothing started meanwhile is over while events are left to commit.
      intro later hlater hbehind p found hnew hfound hsame
      refine ⟨found, ?_, hsame⟩
      show registry.loops.get? p = some found
      rw [hfinished.loops, OrderedMap.get?_delete_ne]
      · exact hfound
      · rintro rfl
        obtain ⟨record, hstanding, honward⟩ := hrecord later hlater
        obtain ⟨posted, hposted, -⟩ := h.sent record hstanding
          (honward.committed.trans_lt hbehind) p loop hnew hloop rfl
        rw [hended] at hposted
        cases hposted
  · exact .aside (hfinished.aside hid hloop) rfl

/-- An activation that is started for the session asks for all of its events. -/
theorem Poised.stage (h : Poised id task count process) (haccount : Account id process)
    {record kept written : SessionRecord} {stage : LoopStage} {started : Registry}
    (hget : process.registry.get id = some record)
    (hkept : kept = { record with
      observation := { record.observation with nextBackoffMs := 0 } })
    (hkick : KickedBy process.registry id kept written stage started) :
    ∃ request, stage = .posting request ∧ request.eventCount = count := by
  obtain ⟨hcount, hcommitted, -, hanchor⟩ := h.steady record (Or.inl hget)
  have hcovers := haccount.measured record (Or.inl hget) hanchor
  have htip := hcovers.tip (Nat.pos_of_ne_zero hcommitted)
  rcases hkick.stage with ⟨-, hnone⟩ | ⟨request, hposting, hsent, -⟩
  · rw [hkept] at hnone
    rw [show record.lastEventChainTip = none from hnone] at htip
    cases htip
  · refine ⟨request, hposting, hsent.trans ?_⟩
    rw [hkept]
    exact hcount

/-- A round of a call that starts an activation for the session. -/
theorem carries_start (h : Poised id task count process) (hsound : Sound process)
    (haccount : Account id process) (hbegun : task ≤ process.registry.nextId)
    {record kept written : SessionRecord} {stage : LoopStage} {started : Registry}
    (hget : process.registry.get id = some record)
    (hkept : kept = { record with
      observation := { record.observation with nextBackoffMs := 0 } })
    (hkick : KickedBy process.registry id kept written stage started) :
    Carries id task count process { process with registry := started } := by
  have hold : ∀ {p found}, process.registry.loops.get? p = some found →
      started.loops.get? p = some found := by
    intro p found hfound
    rw [hkick.loops, OrderedMap.get?_set_ne]
    · exact hfound
    · exact (hsound.tracked.numbered p found hfound).ne
  refine ⟨?_, ?_, ?_, fun _ _ _ p found _ hfound hsame => ⟨found, hold hfound, hsame⟩⟩
  · intro later hlater
    rcases hlater with hnow | haway
    · have hnow : started.get id = some later := hnow
      rw [hkick.get, if_pos rfl] at hnow
      cases hnow
      obtain ⟨observation, hwritten, hcommitted, hstate⟩ := hkick.observed
      refine ⟨record, Or.inl hget, ?_⟩
      rw [hkept] at hwritten hcommitted hstate
      rw [hwritten]
      exact .observed hcommitted.ge fun hopen => hstate ▸ hopen
    · exact ⟨later, Or.inr haway, .refl later⟩
  · intro _ _ _ p found _ hfound hsame
    have hfound : started.loops.get? p = some found := hfound
    rw [hkick.loops, OrderedMap.get?_set] at hfound
    split at hfound
    · cases hfound
      exact Or.inr (h.stage haccount hget hkept hkick)
    · exact Or.inl hfound
  · intro p hmap hp
    have hmap : started.inFlight.get? id = some p := hmap
    rw [hkick.inFlight, OrderedMap.get?_set_self] at hmap
    cases hmap
    omega

/-- A round of any call. -/
theorem carries_round (h : Poised id task count process) (hsound : Sound process)
    (haccount : Account id process) (hbegun : task ≤ process.registry.nextId)
    {other : ObservationFlush} {result : Registry × Option ObservationFlush}
    {now : Int} {uuid : JsString} (hround : RoundOf process.registry other now uuid result) :
    Carries id task count process { process with registry := result.1 } := by
  cases hround with
  | starts _ hget _ _ _ hstarted =>
      obtain ⟨written, stage, hkick⟩ := kickedBy_of_eq hstarted
      by_cases hid : other.sessionId = id
      · subst hid
        exact carries_start h hsound haccount hbegun hget rfl hkick
      · exact .aside (.kick hsound.tracked.numbered hkick hid) rfl
  | _ => exact .still rfl rfl rfl rfl

/-! ### Taking out and putting back -/

theorem carries_tasks {discards : OrderedMap Nat DiscardTask}
    (hfewer : ∀ record, Detached discards record → Detached process.discards record) :
    Carries id task count process { process with discards } := by
  refine .quiet rfl (fun _ hmap => hmap) ?_
  intro later hlater
  exact ⟨later, hlater.imp_right fun haway => ⟨hfewer later haway.1, haway.2⟩, .refl later⟩

theorem carries_detach (hsound : Sound process) (discarding : Nat) (ids : List JsString) :
    Carries id task count process (process.detached discarding ids) := by
  have htaken := detach_taken hsound.tracked.keyed ids
  refine .quiet htaken.loops (fun promise => htaken.fewer promise id) ?_
  intro later hlater
  rcases hlater with hnow | ⟨⟨other, promise, pending, removed, hother, hmem⟩, hid, hidle⟩
  · have hnow : (World.detach process.registry ids).1.get id = some later := hnow
    rw [htaken.get] at hnow
    split at hnow
    · cases hnow
    · exact ⟨later, Or.inl hnow, .refl later⟩
  · change (process.discards.set discarding _).get? other = _ at hother
    rw [OrderedMap.get?_set] at hother
    split at hother
    · cases hother
      obtain ⟨-, kept, objectId, hkept, rfl⟩ := htaken.removed later hmem
      rw [hid] at hkept
      exact ⟨kept, Or.inl hkept, rfl, Nat.le_refl _, fun h => h, rfl⟩
    · exact ⟨later, Or.inr ⟨⟨other, _, _, _, hother, hmem⟩, hid, hidle⟩, .refl later⟩

theorem carries_restore (hsound : Sound process) {discarding promise : Nat}
    {pending : List (JsString × Option (List BufferMutation))} {removed : List SessionRecord}
    (htask : process.discards.get? discarding = some (.deleting promise pending removed))
    (hidle : ∀ record ∈ removed, record.sessionId = id →
      record.observation.inFlight = false) :
    Carries id task count process (process.restored discarding pending removed) := by
  have hback := hsound.putBack htask
  refine .quiet hback.loops ?_ ?_
  · intro p hmap
    change (removed.foldl (World.restoreOne pending) process.registry).inFlight.get? id =
      some p at hmap
    rwa [hback.inFlight] at hmap
  · intro later hlater
    rcases hlater with hnow | haway
    · have hnow : (removed.foldl (World.restoreOne pending) process.registry).get id =
          some later := hnow
      by_cases hid : id ∈ removed.map SessionRecord.sessionId
      · obtain ⟨kept, hkept, rfl⟩ := List.mem_map.1 hid
        rw [hback.back kept hkept] at hnow
        obtain rfl := Option.some.inj hnow
        exact ⟨kept, Or.inr ⟨⟨discarding, _, _, _, htask, hkept⟩, rfl, hidle kept hkept rfl⟩,
          .refl kept⟩
      · rw [hback.get id hid] at hnow
        exact ⟨later, Or.inl hnow, .refl later⟩
    · exact ⟨later, Or.inr ⟨detached_set (by nofun) haway.1, haway.2⟩, .refl later⟩

/-! ### Every step of others -/

/-- The conditions on a step while the call is under way. -/
structure Undisturbing (id : JsString) (process : Process) (action : Action) : Prop where
  fresh : process.Fresh action
  echoes : Echoes id process action
  idle : PutsBackIdle id process action
  alone : LeavesAlone id process action

theorem carries_step (h : Poised id task count process) (hsound : Sound process)
    (haccount : Account id process) (hbegun : task ≤ process.registry.nextId)
    {action : Action} (hcalm : Undisturbing id process action)
    (hnext : process.step P options action = some next) :
    Carries id task count process next := by
  cases action with
  | call made clock uuid =>
      cases hnext
      exact .aside (made.run_aside P options hsound.tracked clock hcalm.alone.1 hcalm.alone.2) rfl
  | persist =>
      cases hnext
      exact .still rfl rfl rfl rfl
  | queue queues =>
      cases hnext
      exact .still rfl rfl rfl rfl
  | settle waiters saved =>
      cases hnext
      exact .still rfl rfl rfl rfl
  | discardPersisted ids =>
      cases hnext
      have htasks : Carries id task count process { process with
          discards := process.discards.set process.registry.nextId
            (.settling process.registry.nextId ids) } :=
        carries_tasks fun _ => detached_set (by nofun)
      exact htasks.trans (.still rfl rfl rfl rfl)
  | resumeDiscard discarding =>
      rcases step_resumeDiscard hnext with ⟨promise, ids, -, rfl⟩ |
        ⟨promise, pending, removed, htask, hfailed, rfl⟩ | rfl
      · exact (carries_detach hsound discarding ids).trans (.still rfl rfl rfl rfl)
      · have hidle := hcalm.idle
        simp only [PutsBackIdle, htask] at hidle
        exact (carries_restore hsound htask (hidle hfailed)).trans (.still rfl rfl rfl rfl)
      · exact carries_tasks fun _ => detached_delete
  | answerCheckpoint promise result =>
      obtain ⟨loop, request, hloop, hposting, hcases⟩ := step_answerCheckpoint hnext
      have hanswered : Carries id task count process { process with
          registry := (checkpointAnswered options process.registry promise loop result
            process.registry.nextId).1 } := by
        apply carries_answer h hsound hloop hposting
        intro hid
        have hechoed := hcalm.echoes loop hloop hid
        rw [hposting] at hechoed
        exact ⟨hechoed, hcalm.alone loop hloop hid⟩
      rcases hcases with rfl | rfl
      · exact hanswered
      · exact hanswered.trans (.still rfl rfl rfl rfl)
  | resumeLoop promise now uuid =>
      obtain ⟨loop, hloop, ⟨save, again, saved, hsaving, -, rfl⟩ | ⟨hended, rfl⟩⟩ :=
        step_resumeLoop hnext
      · exact carries_save h hloop hsaving saved now uuid
      · exact carries_finish h hloop hended (loopFinished_spec process.registry promise loop)
  | flushObservation flushed now uuid =>
      cases hnext
      cases hcheckpoint : options.checkpoint with
      | false =>
          rw [startFlush_unwired process hcheckpoint]
          exact .still rfl rfl rfl rfl
      | true =>
          rw [startFlush_eq process hcheckpoint]
          have hpoised : Poised id task count (process.begun flushed) :=
            h.carried (.still rfl rfl rfl rfl)
          have hrounds := carries_round hpoised (hsound.begun flushed)
            (haccount.quiet rfl rfl rfl rfl) (hbegun.trans (Nat.le_succ _))
            (flushRound_spec (process.begun flushed).registry ⟨flushed, 0, false, none⟩ now uuid)
          have hbegins : Carries id task count process (process.begun flushed) :=
            .still rfl rfl rfl rfl
          exact (hbegins.trans hrounds).trans (.still rfl rfl rfl rfl)
  | resumeFlush resumed now uuid =>
      obtain ⟨other, -, ⟨promise, -, -, rfl⟩ | ⟨-, rfl⟩⟩ := step_resumeFlush hnext
      · exact .still rfl rfl rfl rfl
      · exact (carries_round h hsound haccount hbegun
          (flushRound_spec process.registry other now uuid)).trans (.still rfl rfl rfl rfl)
  | crash snapshot => exact hcalm.alone.elim

/-! ## Steps of the call -/

/-- The session, if it is kept, is committed to its end. -/
def Complete (registry : Registry) (id : JsString) : Prop :=
  ∀ record, registry.get id = some record →
    record.observation.lastCommittedEventCount = sessionEventCount record

theorem Poised.complete (h : Poised id task count process) (haccount : Account id process)
    (hdone : ∀ record, process.registry.get id = some record →
      ¬ record.observation.lastCommittedEventCount < count) : Complete process.registry id := by
  intro record hget
  obtain ⟨hcount, -, -, hanchor⟩ := h.steady record (Or.inl hget)
  have hcommitted := (haccount.measured record (Or.inl hget) hanchor).committed
  have := hdone record hget
  omega

/-- Nothing is left to commit once the call has nothing to wait for. -/
theorem Underway.caughtUp (h : Underway id task count process flush)
    (hover : ∀ promise ∈ flush.awaiting, process.registry.loops.get? promise = none)
    (hround : flush.kicked = true ∨ 2 ≤ flush.round) (record : SessionRecord)
    (hrecord : Standing process id record) :
    ¬ record.observation.lastCommittedEventCount < count := by
  intro hbehind
  obtain ⟨promise, loop, -, hawaiting, hloop, -⟩ := h.last record hrecord hbehind hround
  rw [hover promise hawaiting] at hloop
  cases hloop

/-- A look at what is in flight, once the activation that the call waited for is over. -/
theorem Underway.again (h : Underway id task count process flush)
    (haccount : Account id process)
    (hover : ∀ promise ∈ flush.awaiting, process.registry.loops.get? promise = none) :
    Underway id task count process (awaitObservationIdle process.registry flush) where
  toPoised := h.toPoised
  session := h.session
  older promise hmap hold := by
    obtain ⟨loop, hloop, -⟩ := haccount.joined.mapped promise hmap
    rw [hover promise (h.older promise hmap hold)] at hloop
    cases hloop
  last record hrecord hbehind hround := absurd hbehind (h.caughtUp hover hround record hrecord)

/-- The call waits for the activation that it starts. -/
theorem underway_starts (h : Poised id task count process) (hsound : Sound process)
    (haccount : Account id process) (hbegun : task ≤ process.registry.nextId)
    (flush : ObservationFlush) (hsession : flush.sessionId = id)
    {record kept written : SessionRecord} {stage : LoopStage} {started : Registry}
    (hget : process.registry.get id = some record)
    (hkept : kept = { record with
      observation := { record.observation with nextBackoffMs := 0 } })
    (hkick : KickedBy process.registry id kept written stage started) :
    Underway id task count { process with registry := started }
      (awaitObservationIdle started flush) where
  toPoised := h.carried (carries_start h hsound haccount hbegun hget hkept hkick)
  session := hsession
  older promise hmap _ := by
    show started.inFlight.get? flush.sessionId = some promise
    rw [hsession]
    exact hmap
  last _ _ _ _ := by
    refine ⟨process.registry.nextId, ⟨id, kept.objectId, stage⟩, hbegun, ?_, ?_, rfl⟩
    · show started.inFlight.get? flush.sessionId = _
      rw [hsession, hkick.inFlight, OrderedMap.get?_set_self]
    · show started.loops.get? _ = _
      rw [hkick.loops, OrderedMap.get?_set_self]

/-- A round that the call has waited for. -/
theorem underway_round (h : Underway id task count process flush) (hsound : Sound process)
    (haccount : Account id process) (hbegun : task ≤ process.registry.nextId)
    (hready : flush.awaiting = none) {result : Registry × Option ObservationFlush}
    {now : Int} {uuid : JsString} (hround : RoundOf process.registry flush now uuid result) :
    (∀ later, result.2 = some later →
      Underway id task count { process with registry := result.1 } later) ∧
      (result.2 = none → Complete result.1 id) := by
  have hover : ∀ promise ∈ flush.awaiting, process.registry.loops.get? promise = none := by
    rw [hready]
    nofun
  have hcomplete : (flush.kicked = true ∨ 2 ≤ flush.round) → Complete process.registry id := by
    intro hround
    exact h.complete haccount fun record hget => h.caughtUp hover hround record (Or.inl hget)
  have hsession := h.session
  subst hsession
  cases hround with
  | spent hspent => exact ⟨by nofun, fun _ => hcomplete (Or.inr hspent)⟩
  | gone hget =>
      refine ⟨by nofun, fun _ record hrecord => ?_⟩
      rw [show (endFlush process.registry flush.sessionId).get flush.sessionId =
        process.registry.get flush.sessionId from rfl, hget] at hrecord
      cases hrecord
  | diverged hget hstate => exact absurd hstate (h.steady _ (Or.inl hget)).2.2.1
  | failed _ hkicked => exact ⟨by nofun, fun _ => hcomplete (Or.inl hkicked)⟩
  | @covered record hget hcovered =>
      refine ⟨by nofun, fun _ => ?_⟩
      obtain ⟨hcount, hcommitted, -⟩ := h.steady record (Or.inl hget)
      have hdone : Complete process.registry flush.sessionId := by
        apply h.complete haccount
        intro found hfound
        rw [hget] at hfound
        obtain rfl := Option.some.inj hfound
        omega
      exact hdone
  | @joins record _ hget hflight =>
      refine ⟨fun later hlater => ?_, by nofun⟩
      cases hlater
      obtain ⟨promise, loop, hmap, hloop, -⟩ := haccount.joined.owned record hget hflight
      have hnew : task ≤ promise := by
        by_contra hold
        have hawaiting := h.older promise hmap (Nat.lt_of_not_le hold)
        rw [hready] at hawaiting
        cases hawaiting
      obtain ⟨owner, howner, hid⟩ := haccount.joined.mapped promise hmap
      exact ⟨h.toPoised, rfl, fun other hother _ => hother,
        fun _ _ _ _ => ⟨promise, owner, hnew, hmap, howner, hid⟩⟩
  | starts _ hget _ _ _ hstarted =>
      obtain ⟨written, stage, hkick⟩ := kickedBy_of_eq hstarted
      refine ⟨fun later hlater => ?_, by nofun⟩
      cases hlater
      exact underway_starts h.toPoised hsound haccount hbegun
        { flush with round := flush.round + 1, kicked := true } rfl hget rfl hkick

/-- The state of a session as the call begins. -/
theorem poised_begins (hsound : Sound process) {record : SessionRecord}
    (hget : process.registry.get id = some record)
    (hcommitted : record.observation.lastCommittedEventCount ≠ 0)
    (hopen : record.observation.state ≠ .diverged) (hanchor : record.continuationAnchor = false)
    (hcount : sessionEventCount record = count) :
    Poised id process.registry.nextId count process where
  steady found hfound := by
    rcases hfound with hsame | ⟨haway, hid, -⟩
    · rw [hget] at hsame
      obtain rfl := Option.some.inj hsame
      exact ⟨hcount, hcommitted, hopen, hanchor⟩
    · have habsent := hsound.tracked.absent found haway
      rw [hid, hget] at habsent
      cases habsent
  sent _ _ _ promise loop hnew hloop _ := by
    have := hsound.tracked.numbered promise loop hloop
    omega

/-- The first round of the call. -/
theorem underway_begins (hsound : Sound process) (haccount : Account id process)
    {record : SessionRecord} (hget : process.registry.get id = some record)
    (hcommitted : record.observation.lastCommittedEventCount ≠ 0)
    (hopen : record.observation.state ≠ .diverged) (hanchor : record.continuationAnchor = false)
    {result : Registry × Option ObservationFlush}
    {now : Int} {uuid : JsString}
    (hround : RoundOf (process.begun id).registry ⟨id, 0, false, none⟩ now uuid result) :
    (∀ later, result.2 = some later →
      Underway id process.registry.nextId (sessionEventCount record)
        { process with registry := result.1 } later) ∧
      (result.2 = none → Complete result.1 id) := by
  have hpoised := poised_begins hsound hget hcommitted hopen hanchor rfl
  have hbegins : Poised id process.registry.nextId (sessionEventCount record)
      (process.begun id) := hpoised.carried (.still rfl rfl rfl rfl)
  have hbegunAccount : Account id (process.begun id) := haccount.quiet rfl rfl rfl rfl
  have hfound : (process.begun id).registry.get id = some record := hget
  cases hround with
  | spent hspent =>
      have hspent : 2 ≤ 0 := hspent
      omega
  | gone hnone =>
      rw [hfound] at hnone
      cases hnone
  | diverged hsame hstate =>
      rw [hfound] at hsame
      cases hsame
      exact absurd hstate hopen
  | failed _ hkicked => cases hkicked
  | covered hsame hcovered =>
      refine ⟨by nofun, fun _ => ?_⟩
      rw [hfound] at hsame
      obtain rfl := Option.some.inj hsame
      have hdone : Complete (process.begun id).registry id := by
        apply hbegins.complete hbegunAccount
        intro other hother
        rw [hfound] at hother
        obtain rfl := Option.some.inj hother
        omega
      exact hdone
  | joins =>
      refine ⟨fun later hlater => ?_, by nofun⟩
      cases hlater
      refine ⟨hpoised.carried (.still rfl rfl rfl rfl), rfl, fun promise hmap _ => hmap, ?_⟩
      intro _ _ _ hround
      rcases hround with hkicked | hspent
      · cases hkicked
      · have hspent : 2 ≤ 1 := hspent
        omega
  | starts _ hsame _ _ _ hstarted =>
      obtain ⟨written, stage, hkick⟩ := kickedBy_of_eq hstarted
      refine ⟨fun later hlater => ?_, by nofun⟩
      cases hlater
      exact underway_starts hbegins (hsound.begun id) hbegunAccount (Nat.le_succ _)
        ⟨id, 1, true, none⟩ rfl hsame rfl hkick

/-! ## Runs -/

/-- What holds from the moment the call begins. -/
structure Watched (id : JsString) (task count : Nat) (process : Process) : Prop where
  sound : Sound process
  account : Account id process
  begun : task < process.registry.nextId
  poised : Poised id task count process
  underway : ∀ flush, process.flushes.get? task = some flush →
    Underway id task count process flush

theorem watched_step (h : Watched id task count process) {action : Action}
    (hcalm : Undisturbing id process action)
    (hnext : process.step P options action = some next) : Watched id task count next := by
  have hcarries := carries_step h.poised h.sound h.account h.begun.le hcalm hnext
  refine ⟨(sound_step h.sound hcalm.fresh hnext).1,
    account_step h.sound h.account hcalm.fresh hcalm.echoes hcalm.idle hnext,
    h.begun.trans_le (nextId_le_step h.sound hcalm.fresh hnext), h.poised.carried hcarries, ?_⟩
  intro flush hflush
  by_cases hours : ∃ now uuid, action = .resumeFlush task now uuid
  · obtain ⟨now, uuid, rfl⟩ := hours
    obtain ⟨before, hbefore, ⟨promise, hawaiting, hover, rfl⟩ | ⟨hready, rfl⟩⟩ :=
      step_resumeFlush hnext
    · change (process.flushes.set task _).get? task = some flush at hflush
      rw [OrderedMap.get?_set_self] at hflush
      cases hflush
      have hagain : Underway id task count process
          (awaitObservationIdle process.registry before) := by
        apply (h.underway before hbefore).again h.account
        intro awaited hawaited
        rw [hawaiting] at hawaited
        cases hawaited
        exact hover
      exact hagain.carried (.still rfl rfl rfl rfl)
    · rw [continueFlush_flushes, if_pos rfl] at hflush
      have hround := underway_round (h.underway before hbefore) h.sound h.account h.begun.le
        hready (flushRound_spec process.registry before now uuid)
      exact (hround.1 flush hflush).carried (.still rfl rfl rfl rfl)
  · have hother : ∀ now uuid, action ≠ .resumeFlush task now uuid :=
      fun now uuid heq => hours ⟨now, uuid, heq⟩
    exact (h.underway flush (flushes_step h.begun hother hnext flush hflush)).carried hcarries

theorem watched_returns (h : Watched id task count process) {now : Int} {uuid : JsString}
    (hnext : process.step P options (.resumeFlush task now uuid) = some next)
    (hreturned : next.flushes.get? task = none) : Complete next.registry id := by
  obtain ⟨flush, hflush, ⟨promise, -, -, rfl⟩ | ⟨hready, rfl⟩⟩ := step_resumeFlush hnext
  · change (process.flushes.set task _).get? task = none at hreturned
    rw [OrderedMap.get?_set_self] at hreturned
    cases hreturned
  · rw [continueFlush_flushes, if_pos rfl] at hreturned
    exact (underway_round (h.underway flush hflush) h.sound h.account h.begun.le hready
      (flushRound_spec process.registry flush now uuid)).2 hreturned

theorem watched_begins (hcheckpoint : options.checkpoint = true) (hsound : Sound process)
    (haccount : Account id process) {record : SessionRecord}
    (hget : process.registry.get id = some record)
    (hcommitted : record.observation.lastCommittedEventCount ≠ 0)
    (hopen : record.observation.state ≠ .diverged) (hanchor : record.continuationAnchor = false)
    {now : Int} {uuid : JsString}
    (hnext : process.step P options (.flushObservation id now uuid) = some next) :
    Watched id process.registry.nextId (sessionEventCount record) next ∧
      (next.flushes.get? process.registry.nextId = none → Complete next.registry id) := by
  have hround := underway_begins hsound haccount hget hcommitted hopen hanchor
    (flushRound_spec (process.begun id).registry ⟨id, 0, false, none⟩ now uuid)
  have hpoised := poised_begins hsound hget hcommitted hopen hanchor rfl
  have hcalm : Undisturbing id process (.flushObservation id now uuid) :=
    ⟨trivial, trivial, trivial, trivial⟩
  have hcarries := carries_step hpoised hsound haccount (Nat.le_refl _) hcalm hnext
  have hnextSound := (sound_step hsound hcalm.fresh hnext).1
  have hnextAccount := account_step hsound haccount hcalm.fresh hcalm.echoes hcalm.idle hnext
  have hbegun := flushRound_nextId (process.begun id).registry ⟨id, 0, false, none⟩ now uuid
  cases hnext
  rw [startFlush_eq process hcheckpoint] at hcarries hnextSound hnextAccount ⊢
  refine ⟨⟨hnextSound, hnextAccount, (Nat.lt_succ_self _).trans_le hbegun,
    hpoised.carried hcarries, ?_⟩, ?_⟩
  · intro flush hflush
    rw [continueFlush_flushes, if_pos rfl] at hflush
    exact (hround.1 flush hflush).carried (.still rfl rfl rfl rfl)
  · intro hreturned
    rw [continueFlush_flushes, if_pos rfl] at hreturned
    exact hround.2 hreturned

/-- What a call for a session that is committed in part, and gets no edit meanwhile, returns
with, on runs whose steps meet a condition about the session. -/
def CommitsEnd (P : Platform) (options : RegistryOptions)
    (condition : JsString → Process → Action → Prop) : Prop :=
  ∀ id snapshot nextId first record now uuid called,
    (∀ stored ∈ snapshot, stored.sessionId = id → stored.continuationAnchor = false →
      Within stored) →
    Run (step P options) (fun process action => process.Fresh action ∧
      Echoes id process action ∧ condition id process action) (boot snapshot nextId) first →
    first.registry.get id = some record → record.observation.lastCommittedEventCount ≠ 0 →
    record.observation.state ≠ .diverged → record.continuationAnchor = false →
    first.step P options (.flushObservation id now uuid) = some called →
    (called.flushes.get? first.registry.nextId = none → Complete called.registry id) ∧
      ∀ last now uuid next,
        Run (step P options) (fun process action => process.Fresh action ∧
          Echoes id process action ∧ condition id process action ∧
          LeavesAlone id process action) called last →
        last.step P options (.resumeFlush first.registry.nextId now uuid) = some next →
        next.flushes.get? first.registry.nextId = none → Complete next.registry id

theorem commitsEnd (P : Platform) {options : RegistryOptions}
    (hcheckpoint : options.checkpoint = true) : CommitsEnd P options PutsBackIdle := by
  intro id snapshot nextId first record now uuid called hstored hrun hget hcommitted hopen
    hanchor hcalled
  obtain ⟨hsound, haccount⟩ :=
    account_run (sound_boot snapshot nextId) (account_boot hstored nextId) hrun
  obtain ⟨hwatched, hreturned⟩ :=
    watched_begins hcheckpoint hsound haccount hget hcommitted hopen hanchor hcalled
  refine ⟨hreturned, ?_⟩
  intro last now uuid next hrun hnext
  have hlast := hrun.invariant (I := Watched id first.registry.nextId
    (sessionEventCount record)) (fun _ _ _ h hcalm hstep => watched_step h
      ⟨hcalm.1, hcalm.2.1, hcalm.2.2.1, hcalm.2.2.2⟩ hstep) hwatched
  exact watched_returns hlast hnext

instance (id : JsString) (process : Process) :
    (action : Action) → Decidable (Echoes id process action)
  | .answerCheckpoint promise result =>
      have : ∀ loop : CheckpointLoop, Decidable (loop.sessionId = id →
          match loop.stage with
          | .posting request => result.Echoes request.eventCount
          | _ => True)
        | ⟨_, _, .posting request⟩ =>
            (inferInstance : Decidable (_ → result.Echoes request.eventCount))
        | ⟨_, _, .saving _ _⟩ => (inferInstance : Decidable (_ → True))
        | ⟨_, _, .ended⟩ => (inferInstance : Decidable (_ → True))
      (inferInstance : Decidable (∀ loop ∈ process.registry.loops.get? promise,
        loop.sessionId = id →
          match loop.stage with
          | .posting request => result.Echoes request.eventCount
          | _ => True))
  | .crash snapshot =>
      (inferInstance : Decidable (∀ stored ∈ snapshot, stored.sessionId = id →
        stored.continuationAnchor = false → Within stored))
  | .call .. | .persist | .queue .. | .settle .. | .discardPersisted .. | .resumeDiscard ..
  | .resumeLoop .. | .flushObservation .. | .resumeFlush .. => .isTrue trivial

instance (id : JsString) (process : Process) :
    (action : Action) → Decidable (PutsBackIdle id process action)
  | .resumeDiscard task =>
      have : ∀ stage : Option DiscardTask, Decidable (match stage with
          | some (.deleting promise _ removed) =>
              process.outcomes.get? promise = some false → ∀ record ∈ removed,
                record.sessionId = id → record.observation.inFlight = false
          | _ => True)
        | some (.deleting _ _ _) => (inferInstance : Decidable (_ → ∀ record ∈ _, _))
        | some (.settling _ _) => .isTrue trivial
        | some (.restoring _) => .isTrue trivial
        | none => .isTrue trivial
      this (process.discards.get? task)
  | .call .. | .persist | .queue .. | .settle .. | .discardPersisted .. | .answerCheckpoint ..
  | .resumeLoop .. | .flushObservation .. | .resumeFlush .. | .crash .. => .isTrue trivial

instance (id : JsString) (process : Process) :
    (action : Action) → Decidable (LeavesAlone id process action)
  | .call made clock uuid =>
      inferInstanceAs (Decidable (uuid ≠ id ∧ made.Spares id process.registry clock))
  | .answerCheckpoint promise result =>
      inferInstanceAs (Decidable (∀ loop ∈ process.registry.loops.get? promise,
        loop.sessionId = id → result.isOk = true))
  | .crash _ => inferInstanceAs (Decidable False)
  | .persist | .queue .. | .settle .. | .discardPersisted .. | .resumeDiscard ..
  | .resumeLoop .. | .flushObservation .. | .resumeFlush .. => inferInstanceAs (Decidable True)

end Process

namespace World

variable {P : Platform} {options : RegistryOptions}

/-- What the step is to the process meets a condition about the session, whose requests
are answered for what was sent. -/
def Meets (id : JsString) (condition : JsString → Process → Process.Action → Prop)
    (world : World) (action : Action) : Prop :=
  ∀ acted ∈ action.process world, world.process.Fresh acted ∧
    Process.Echoes id world.process acted ∧ condition id world.process acted

instance (id : JsString) (condition : JsString → Process → Process.Action → Prop)
    [∀ process action, Decidable (condition id process action)] (world : World)
    (action : Action) : Decidable (Meets id condition world action) :=
  inferInstanceAs (Decidable (∀ acted ∈ action.process world, _ ∧ _ ∧ _))

/-- What a call returns with, where the registry saves to its journal. -/
def CommitsEnd (P : Platform) (options : RegistryOptions)
    (condition : JsString → Process → Process.Action → Prop) : Prop :=
  ∀ id store nextId first record now uuid called,
    (∀ stored ∈ store.read, stored.sessionId = id → stored.continuationAnchor = false →
      Within stored) →
    Run P options (Meets id condition) (boot store nextId) first →
    first.registry.get id = some record → record.observation.lastCommittedEventCount ≠ 0 →
    record.observation.state ≠ .diverged → record.continuationAnchor = false →
    first.step P options (.flushObservation id now uuid) = some called →
    (called.flushes.get? first.registry.nextId = none → Process.Complete called.registry id) ∧
      ∀ last now uuid next,
        Run P options
          (Meets id fun id process action =>
            condition id process action ∧ Process.LeavesAlone id process action) called last →
        last.step P options (.resumeFlush first.registry.nextId now uuid) = some next →
        next.flushes.get? first.registry.nextId = none → Process.Complete next.registry id

/-- A run over the journal, as one of the process. -/
theorem follow_meets {id : JsString} {condition : JsString → Process → Process.Action → Prop}
    (hsaves : ∀ process (action : Process.Action), action.saves = true →
      condition id process action) {first last : World}
    (run : Run P options (Meets id condition) first last) :
    Library.Run (Process.step P options) (fun process action => process.Fresh action ∧
      Process.Echoes id process action ∧ condition id process action) first.process
      last.process := by
  apply follow_run _ _ run
  · intro process action hsaved
    have hcondition := hsaves process action hsaved
    cases action with
    | persist => exact ⟨trivial, trivial, hcondition⟩
    | queue => exact ⟨trivial, trivial, hcondition⟩
    | settle => exact ⟨trivial, trivial, hcondition⟩
    | _ => cases hsaved
  · exact fun _ _ acted h hacted => h acted hacted

theorem commitsEnd {condition : JsString → Process → Process.Action → Prop}
    (hsaves : ∀ id process (action : Process.Action), action.saves = true →
      condition id process action)
    (h : Process.CommitsEnd P options condition) : CommitsEnd P options condition := by
  intro id store nextId first record now uuid called hstored hrun hget hcommitted hopen hanchor
    hcalled
  have hcalled' : first.process.step P options (.flushObservation id now uuid) =
      some called.process := by
    cases hcalled
    exact congrArg some (process_startFlush first id now uuid)
  obtain ⟨hreturned, hlater⟩ := h id store.read nextId first.process record now uuid
    called.process hstored (follow_meets (hsaves id) hrun) hget hcommitted hopen hanchor hcalled'
  refine ⟨hreturned, ?_⟩
  intro last now uuid next hrun hnext
  apply hlater last.process now uuid next.process
  · have hcalm : ∀ process (action : Process.Action), action.saves = true →
        condition id process action ∧ Process.LeavesAlone id process action := by
      intro process action hsaved
      refine ⟨hsaves id process action hsaved, ?_⟩
      cases action with
      | persist => trivial
      | queue => trivial
      | settle => trivial
      | _ => cases hsaved
    exact follow_meets hcalm hrun
  · exact process_resumeFlush hnext

/-- A call starts nothing for a session of which nothing is committed, starts at most two
activations, returns when they are over, and returns with the whole session committed. -/
theorem flushObservation_run (P : Platform) {options : RegistryOptions}
    (hcheckpoint : options.checkpoint = true) :
    (∀ (process : Process) (task : Nat) (id : JsString) action next,
      process.Turns task id action →
      (∀ record, process.registry.get id = some record →
        record.observation.lastCommittedEventCount = 0) →
      process.step P options action = some next →
      next.registry.loops = process.registry.loops) ∧
    (∀ snapshot nextId first id now uuid called state,
      Library.Run (Process.step P options) Process.Fresh (Process.boot snapshot nextId) first →
      first.step P options (.flushObservation id now uuid) = some called →
      Library.Run (Process.countStarts P options first.registry.nextId)
        (fun state action => state.1.Fresh action) (called, Process.started first called) state →
      state.2 ≤ 2 ∧ ∀ flush, state.1.flushes.get? first.registry.nextId = some flush →
        flush.round ≤ 2) ∧
    (∀ (process : Process) (task : Nat) flush now uuid,
      process.flushes.get? task = some flush → flush.round = 2 →
      (∀ promise ∈ flush.awaiting, process.registry.loops.get? promise = none) →
      process.registry.inFlight.get? flush.sessionId = none →
      ∃ next, process.resumeFlush task now uuid = some next ∧
        (next.flushes.get? task = none ∨
          ∃ last, next.resumeFlush task now uuid = some last ∧
            last.flushes.get? task = none)) ∧
    Process.CommitsEnd P options Process.PutsBackIdle ∧
    CommitsEnd P options Process.PutsBackIdle := by
  have hcommits := Process.commitsEnd P hcheckpoint
  refine ⟨?_, ?_, ?_, hcommits, commitsEnd ?_ hcommits⟩
  · intro process task id action next hturns hnothing hnext
    exact Process.turns_loops hturns hnothing hnext
  · intro snapshot nextId first id now uuid called state hfirst hcalled hrun
    have hsound := Process.sound_run (Process.sound_boot snapshot nextId) hfirst
    have hbounded :=
      Process.bounded_run (Process.bounded_begins hsound hcheckpoint hcalled) hrun
    exact ⟨hbounded.starts, fun flush hflush => (hbounded.waiting flush hflush).2⟩
  · intro process task flush now uuid hflush hspent hover hidle
    exact Process.returns_spent hflush hspent hover hidle now uuid
  · intro id process action hsaved
    cases action with
    | persist => trivial
    | queue => trivial
    | settle => trivial
    | _ => cases hsaved

/-! ## A call that returns too early -/

def answerInFull (promise eventCount : Nat) : Action :=
  .answerCheckpoint promise (.ok
    { observedSessionId := spareUuid
      token := observedToken
      checkpointId := js "checkpoint"
      eventCount
      chainTip := ⟨List.replicate 32 0, B3Hash.zeros_length⟩
      serverT := js "2024-01-01T00:00:00.000Z"
      created := true })

/-- A minute after the first letter. -/
def laterClock : Int := 1700000060000

def typeLaterLetter : Action :=
  .call (.appendMutation exampleSession
    ⟨.insert, some (.ofNat 1), some (.ofNat 0), some (.ofNat 1), .typing⟩ none)
    (fun _ => laterClock) spareUuid

/-- One letter is committed, and the request for a second one is out. -/
def secondLetterOut : List Action :=
  [startWriting, typeLetter, answerInFull 1 1] ++ commitEnds true ++
    [.resumeLoop 1 laterClock spareUuid, .resumeLoop 1 laterClock spareUuid, typeLaterLetter]

/-- The second request is answered while its session is detached, and then the deletion
fails: the session comes back in flight, with nobody working for it. -/
def rolledBackInFlight : List Action :=
  secondLetterOut ++ [.discardPersisted [exampleSession]] ++ commitEnds true ++
    [.resumeDiscard 4, answerInFull 3 2, .resumeLoop 3 laterClock spareUuid] ++
    commitEnds false ++ [.resumeDiscard 4]

theorem read_empty : JournalStore.empty.read = [] := List.mergeSort_nil

theorem not_commitsEnd_rolledBackInFlight :
    ¬ CommitsEnd Platform.standard observedOptions fun _ _ _ => True := by
  intro h
  have hruns : (steps Platform.standard observedOptions
      (Meets exampleSession fun _ _ _ => True) (boot JournalStore.empty 0)
      rolledBackInFlight).any (fun first =>
        ((first.registry.get exampleSession).any fun record =>
          record.observation.lastCommittedEventCount ≠ 0 ∧
            record.observation.state ≠ .diverged ∧ record.continuationAnchor = false) ∧
        first.registry.nextId = 8 ∧
        (first.step Platform.standard observedOptions
          (.flushObservation exampleSession laterClock spareUuid)).any fun called =>
          (steps Platform.standard observedOptions
            (Meets exampleSession fun id process action =>
              True ∧ Process.LeavesAlone id process action) called
            [.resumeFlush 8 laterClock spareUuid]).any fun last =>
            (last.step Platform.standard observedOptions
              (.resumeFlush 8 laterClock spareUuid)).any fun next =>
              next.flushes.get? 8 = none ∧
                (next.registry.get exampleSession).any fun record =>
                  record.observation.lastCommittedEventCount ≠ sessionEventCount record) =
      true := by
    decide +kernel
  obtain ⟨first, hfirst, hcheck⟩ := (Option.any_eq_true _ _).1 hruns
  obtain ⟨hfound, hnextId, hcheck⟩ := of_decide_eq_true hcheck
  obtain ⟨record, hget, hrecord⟩ := (Option.any_eq_true _ _).1 hfound
  obtain ⟨hcommitted, hopen, hanchor⟩ := of_decide_eq_true hrecord
  obtain ⟨called, hcalled, hcheck⟩ := (Option.any_eq_true _ _).1 hcheck
  obtain ⟨last, hlast, hcheck⟩ := (Option.any_eq_true _ _).1 hcheck
  obtain ⟨next, hnext, hcheck⟩ := (Option.any_eq_true _ _).1 hcheck
  obtain ⟨hreturned, hcheck⟩ := of_decide_eq_true hcheck
  obtain ⟨left, hleft, hbehind⟩ := (Option.any_eq_true _ _).1 hcheck
  have hempty : ∀ stored ∈ JournalStore.empty.read, stored.sessionId = exampleSession →
      stored.continuationAnchor = false → Within stored := by
    intro stored hstored
    rw [read_empty] at hstored
    cases hstored
  have hcomplete := (h exampleSession JournalStore.empty 0 first record laterClock spareUuid
    called hempty ((Run.refl _).steps hfirst) hget hcommitted hopen hanchor hcalled).2 last
    laterClock spareUuid next ((Run.refl _).steps hlast) (by rwa [hnextId])
    (by rwa [hnextId])
  exact of_decide_eq_true hbehind (hcomplete left hleft)

/-- The request for the second letter is answered during the call, and its save fails. -/
theorem flushObservation_savesFail :
    ∃ first called last next,
      steps Platform.standard observedOptions (Meets exampleSession Process.PutsBackIdle)
        (boot JournalStore.empty 0) secondLetterOut = some first ∧
      first.step Platform.standard observedOptions
        (.flushObservation exampleSession laterClock spareUuid) = some called ∧
      steps Platform.standard observedOptions
        (Meets exampleSession fun id process action =>
          Process.PutsBackIdle id process action ∧ Process.LeavesAlone id process action) called
        ([answerInFull 3 2] ++ commitEnds false ++
          [.resumeLoop 3 laterClock spareUuid, .resumeLoop 3 laterClock spareUuid,
            .resumeFlush 4 laterClock spareUuid]) = some last ∧
      last.step Platform.standard observedOptions (.resumeFlush 4 laterClock spareUuid) =
        some next ∧
      next.flushes.get? 4 = none ∧ Process.Complete next.registry exampleSession := by
  have hruns : (steps Platform.standard observedOptions
      (Meets exampleSession Process.PutsBackIdle) (boot JournalStore.empty 0)
      secondLetterOut).any (fun first =>
        ((first.registry.get exampleSession).any fun record =>
          record.observation.lastCommittedEventCount ≠ 0 ∧
            record.observation.state ≠ .diverged ∧ record.continuationAnchor = false) ∧
        first.registry.nextId = 4 ∧
        (first.step Platform.standard observedOptions
          (.flushObservation exampleSession laterClock spareUuid)).any fun called =>
          (steps Platform.standard observedOptions
            (Meets exampleSession fun id process action =>
              Process.PutsBackIdle id process action ∧
                Process.LeavesAlone id process action) called
            ([answerInFull 3 2] ++ commitEnds false ++
              [.resumeLoop 3 laterClock spareUuid, .resumeLoop 3 laterClock spareUuid,
                .resumeFlush 4 laterClock spareUuid])).any fun last =>
            (last.step Platform.standard observedOptions
              (.resumeFlush 4 laterClock spareUuid)).any fun next =>
              next.flushes.get? 4 = none) = true := by
    decide +kernel
  obtain ⟨first, hfirst, hcheck⟩ := (Option.any_eq_true _ _).1 hruns
  obtain ⟨hfound, hnextId, hcheck⟩ := of_decide_eq_true hcheck
  obtain ⟨record, hget, hrecord⟩ := (Option.any_eq_true _ _).1 hfound
  obtain ⟨hcommitted, hopen, hanchor⟩ := of_decide_eq_true hrecord
  obtain ⟨called, hcalled, hcheck⟩ := (Option.any_eq_true _ _).1 hcheck
  obtain ⟨last, hlast, hcheck⟩ := (Option.any_eq_true _ _).1 hcheck
  obtain ⟨next, hnext, hcheck⟩ := (Option.any_eq_true _ _).1 hcheck
  have hreturned := of_decide_eq_true hcheck
  have hempty : ∀ stored ∈ JournalStore.empty.read, stored.sessionId = exampleSession →
      stored.continuationAnchor = false → Within stored := by
    intro stored hstored
    rw [read_empty] at hstored
    cases hstored
  have hcommits := (flushObservation_run Platform.standard
    (show observedOptions.checkpoint = true from rfl)).2.2.2.2
  have hcomplete := (hcommits exampleSession JournalStore.empty 0 first record laterClock
    spareUuid called hempty ((Run.refl _).steps hfirst) hget hcommitted hopen hanchor hcalled).2
    last laterClock spareUuid next ((Run.refl _).steps hlast) (by rwa [hnextId])
    (by rwa [hnextId])
  exact ⟨first, called, last, next, hfirst, hcalled, hlast, hnext, hreturned, hcomplete⟩

end World

end Pmbah.Producer
