import Pmbah.Producer.Discards
import Pmbah.Producer.Effects
import Pmbah.Producer.Process

/-!
# Checkpoint loops and the flags of their sessions

Which activations of `#runCheckpointLoop` still have requests to send, and what
the records of their sessions say about it.  The invariants are kept by every
method and by every round of a loop.
-/

namespace Pmbah.Producer

open Js Format Library

/-! ## Loops at work -/

/-- A request is out, or another round follows. -/
def LoopStage.working : LoopStage → Bool
  | .posting _ => true
  | .saving _ again => again.isSome
  | .ended => false

/-- The activation works for the session. -/
def Works (registry : Registry) (promise : Nat) (id : JsString) : Prop :=
  ∃ loop, registry.loops.get? promise = some loop ∧ loop.sessionId = id ∧
    loop.stage.working = true

/-- No method and no flush starts a checkpoint for the record. -/
def Settled (record : SessionRecord) : Prop :=
  record.state ≠ .active ∧ record.observation.lastCommittedEventCount = 0 ∧
    record.observation.queued = false

def Occupied (record : SessionRecord) : Prop :=
  record.observation.inFlight = true ∨ Settled record

/-- At most one activation works for a session, and the session's record shows it,
also where `discardPersisted` has detached it. -/
structure Tracked (registry : Registry) (detached : SessionRecord → Prop) : Prop where
  keyed : Keyed registry
  numbered : ∀ promise loop, registry.loops.get? promise = some loop →
    promise < registry.nextId
  single : ∀ p q id, Works registry p id → Works registry q id → p = q
  owner : ∀ p q id, registry.inFlight.get? id = some p → Works registry q id → q = p
  occupied : ∀ p id record, registry.get id = some record → Works registry p id →
    Occupied record
  away : ∀ p record, detached record → Works registry p record.sessionId → Occupied record
  absent : ∀ record, detached record → registry.get record.sessionId = none

/-- Somebody is going to clear the flag of the session's record object. -/
def Attended (registry : Registry) (id : JsString) (object : Nat) : Prop :=
  (∃ promise, Works registry promise id) ∨
    ∃ promise loop, registry.loops.get? promise = some loop ∧ loop.stage = .ended ∧
      loop.sessionId = id ∧ loop.kicked = object ∧ registry.inFlight.get? id = some promise

/-- No session waits for a checkpoint that nobody makes. -/
def Owned (registry : Registry) : Prop :=
  ∀ id record, registry.get id = some record → record.observation.inFlight = true →
    Attended registry id record.objectId

variable {P : Platform} {options : RegistryOptions} {registry next : Registry}
  {detached : SessionRecord → Prop} {promise : Nat} {loop : CheckpointLoop}

/-- A change after which no more activations work than before, and each record still
shows the activation that works for it. -/
theorem Tracked.mono (h : Tracked registry detached)
    (hnumbered : ∀ promise loop, next.loops.get? promise = some loop → promise < next.nextId)
    (hworks : ∀ p id, Works next p id → Works registry p id)
    (howner : ∀ p id, next.inFlight.get? id = some p → registry.inFlight.get? id = some p)
    (hget : ∀ id record, next.get id = some record → record.sessionId = id ∧
      ((∀ p, ¬ Works next p id) ∨
        ∃ kept, registry.get id = some kept ∧ (Occupied kept → Occupied record)))
    (habsent : ∀ record, detached record → next.get record.sessionId = none) :
    Tracked next detached where
  keyed id record hrecord := (hget id record hrecord).1
  numbered := hnumbered
  single p q id hp hq := h.single p q id (hworks p id hp) (hworks q id hq)
  owner p q id hp hq := h.owner p q id (howner p id hp) (hworks q id hq)
  occupied p id record hrecord hp := by
    rcases (hget id record hrecord).2 with hnone | ⟨kept, hkept, hshows⟩
    · exact absurd hp (hnone p)
    · exact hshows (h.occupied p id kept hkept (hworks p id hp))
  away p record hdetached hp := h.away p record hdetached (hworks p _ hp)
  absent := habsent

/-! ## The methods -/

theorem works_congr (hloops : next.loops = registry.loops) {p : Nat} {id : JsString} :
    Works next p id ↔ Works registry p id := by
  unfold Works
  rw [hloops]

theorem attended_congr (hloops : next.loops = registry.loops) {id : JsString}
    (hinFlight : next.inFlight.get? id = registry.inFlight.get? id) {object : Nat} :
    Attended next id object ↔ Attended registry id object := by
  unfold Attended
  simp only [works_congr hloops, hloops, hinFlight]

theorem get_put (registry : Registry) (id other : JsString) (record : SessionRecord) :
    (registry.put id record).get other = if other = id then some record else registry.get other :=
  OrderedMap.get?_set _ _ _ _

/-- A method's change of a record leaves it occupied. -/
theorem Rewritten.occupied {record written : SessionRecord} (h : Rewritten record written)
    (hoccupied : Occupied record) : Occupied written := by
  have hfrozen := h.frozen
  have hobservation := h.observation
  unfold Occupied Settled at *
  generalize written.observation = observation at hobservation ⊢
  cases hobservation with
  | kept => exact hoccupied.imp_right fun hsettled => ⟨hfrozen hsettled.1, hsettled.2⟩
  | recomputed state _ _ =>
      exact hoccupied.imp_right fun hsettled => ⟨hfrozen hsettled.1, hsettled.2⟩
  | queued _ hflight => exact Or.inl hflight
  | rejected code hstate =>
      cases code with
      | mismatch =>
          exact hoccupied.imp_right fun hsettled => ⟨hfrozen hsettled.1, hsettled.2⟩
      | unavailable => exact Or.inr ⟨hfrozen hstate, rfl, rfl⟩

/-- A method sets no flag but by starting an activation. -/
theorem Rewritten.flag {record written : SessionRecord} (h : Rewritten record written)
    (hflag : written.observation.inFlight = true) : record.observation.inFlight = true := by
  have hobservation := h.observation
  generalize written.observation = observation at hobservation hflag
  cases hobservation with
  | kept => exact hflag
  | recomputed state _ _ => exact hflag
  | queued _ hflight => exact hflight
  | rejected code _ =>
      cases code with
      | mismatch => exact hflag
      | unavailable => cases hflag

/-- What is detached has not the identifier of a record. -/
theorem Tracked.apart (h : Tracked registry detached) {id : JsString} {record : SessionRecord}
    (hget : registry.get id = some record) :
    ∀ away, detached away → away.sessionId ≠ id := by
  intro away haway heq
  have habsent := h.absent away haway
  rw [heq, hget] at habsent
  cases habsent

/-- What starting an activation does to a registry. -/
structure KickedBy (registry : Registry) (id : JsString) (record written : SessionRecord)
    (stage : LoopStage) (next : Registry) : Prop where
  get : ∀ other, next.get other = if other = id then some written else registry.get other
  loops : next.loops = registry.loops.set registry.nextId ⟨id, record.objectId, stage⟩
  inFlight : next.inFlight = registry.inFlight.set id registry.nextId
  nextId : next.nextId = registry.nextId + 1
  sessionId : written.sessionId = record.sessionId
  objectId : written.objectId = record.objectId
  flag : written.observation.inFlight = stage.working
  observed : ∃ observation, written = { record with observation } ∧
    observation.lastCommittedEventCount = record.observation.lastCommittedEventCount ∧
    observation.state = record.observation.state
  stage : (stage = .ended ∧ record.lastEventChainTip = none) ∨
    ∃ request, stage = .posting request ∧ request.eventCount = sessionEventCount record ∧
      record.lastEventChainTip.isSome = true

theorem kickCheckpoint_spec (registry : Registry) (id : JsString) (record : SessionRecord)
    (now : Int) (uuid : JsString) :
    ∃ written stage, KickedBy registry id record written stage
      (kickCheckpoint registry id record now uuid) := by
  unfold kickCheckpoint postRound
  simp only
  have hput : ∀ written : SessionRecord,
      Registry.get { (registry.touch id).put id written with
        nextId := ((registry.touch id).put id written).nextId + 1 } id = some written :=
    fun written => OrderedMap.get?_set_self _ _ _
  rw [hput]
  simp only
  split
  · rename_i htip
    refine ⟨{ record with
      observation :=
        { record.observation with
          inFlight := false, queued := false, lastAttemptAtWallMs := some now } }, .ended, ?_,
      rfl, rfl, rfl, rfl, rfl, rfl, ⟨_, rfl, rfl, rfl⟩, Or.inl ⟨rfl, htip⟩⟩
    intro other
    refine (get_put _ id other _).trans ?_
    split
    · rfl
    · rename_i hother
      exact OrderedMap.get?_set_ne _ _ hother
  · rename_i htip
    refine ⟨{ record with
      observation :=
        { record.observation with
          inFlight := true, queued := false, lastAttemptAtWallMs := some now } }, .posting _, ?_,
      rfl, rfl, rfl, rfl, rfl, rfl, ⟨_, rfl, rfl, rfl⟩, Or.inr ⟨_, rfl, rfl, ?_⟩⟩
    · exact fun other => OrderedMap.get?_set _ _ _ _
    · rw [htip]
      rfl

/-- An activation that a round of `flushObservation` starts. -/
theorem kickedBy_of_eq {id : JsString} {record : SessionRecord} {now : Int} {uuid : JsString}
    (h : next = kickCheckpoint registry id record now uuid) :
    ∃ written stage, KickedBy registry id record written stage next := by
  rw [h]
  exact kickCheckpoint_spec registry id record now uuid

section kicked

variable {id : JsString} {record written : SessionRecord} {stage : LoopStage}

theorem KickedBy.works (h : KickedBy registry id record written stage next)
    (hnumbered : ∀ promise loop, registry.loops.get? promise = some loop →
      promise < registry.nextId) {p : Nat} {other : JsString} :
    Works next p other ↔
      (p = registry.nextId ∧ other = id ∧ stage.working = true) ∨ Works registry p other := by
  unfold Works
  rw [h.loops, OrderedMap.get?_set]
  by_cases hp : p = registry.nextId
  · rw [if_pos hp]
    constructor
    · intro ⟨loop, hloop, hid, hworking⟩
      cases hloop
      exact Or.inl ⟨hp, hid.symm, hworking⟩
    · rintro (⟨-, rfl, hworking⟩ | ⟨loop, hloop, -⟩)
      · exact ⟨_, rfl, rfl, hworking⟩
      · exact absurd (hnumbered p loop hloop) (by omega)
  · rw [if_neg hp]
    constructor
    · exact Or.inr
    · rintro (⟨heq, -⟩ | hworks)
      · exact absurd heq hp
      · exact hworks

/-- An activation starts where none works for the session. -/
theorem Tracked.kick (h : Tracked registry detached) {kept : SessionRecord}
    (hget : registry.get id = some kept) (hid : record.sessionId = kept.sessionId)
    (hfree : ∀ p, ¬ Works registry p id)
    (hkick : KickedBy registry id record written stage next) : Tracked next detached := by
  have hworks : ∀ {p other}, Works next p other ↔
      (p = registry.nextId ∧ other = id ∧ stage.working = true) ∨ Works registry p other :=
    hkick.works h.numbered
  refine ⟨?_, ?_, ?_, ?_, ?_, ?_, ?_⟩
  · intro other found hfound
    rw [hkick.get] at hfound
    split at hfound
    · rename_i hother
      cases hfound
      rw [hkick.sessionId, hid, hother]
      exact h.keyed id kept hget
    · exact h.keyed other found hfound
  · intro p loop hloop
    rw [hkick.loops, OrderedMap.get?_set] at hloop
    rw [hkick.nextId]
    split at hloop
    · omega
    · have := h.numbered p loop hloop
      omega
  · intro p q other hp hq
    rcases hworks.1 hp with ⟨rfl, rfl, -⟩ | hp
    · rcases hworks.1 hq with ⟨rfl, -⟩ | hq
      · rfl
      · exact absurd hq (hfree q)
    · rcases hworks.1 hq with ⟨rfl, rfl, -⟩ | hq
      · exact absurd hp (hfree p)
      · exact h.single p q other hp hq
  · intro p q other hp hq
    rw [hkick.inFlight, OrderedMap.get?_set] at hp
    rcases hworks.1 hq with ⟨rfl, rfl, -⟩ | hq
    · rw [if_pos rfl] at hp
      exact Option.some.inj hp
    · by_cases hother : other = id
      · rw [hother] at hq
        exact absurd hq (hfree q)
      · rw [if_neg hother] at hp
        exact h.owner p q other hp hq
  · intro p other found hfound hp
    rw [hkick.get] at hfound
    by_cases hother : other = id
    · rw [if_pos hother] at hfound
      cases hfound
      rcases hworks.1 hp with ⟨-, -, hworking⟩ | hp
      · exact Or.inl (hkick.flag.trans hworking)
      · rw [hother] at hp
        exact absurd hp (hfree p)
    · rw [if_neg hother] at hfound
      rcases hworks.1 hp with ⟨-, heq, -⟩ | hp
      · exact absurd heq hother
      · exact h.occupied p other found hfound hp
  · intro p away haway hp
    rcases hworks.1 hp with ⟨-, heq, -⟩ | hp
    · exact absurd heq (h.apart hget away haway)
    · exact h.away p away haway hp
  · intro away haway
    rw [hkick.get, if_neg (h.apart hget away haway)]
    exact h.absent away haway

theorem Owned.kick (h : Owned registry)
    (hnumbered : ∀ promise loop, registry.loops.get? promise = some loop →
      promise < registry.nextId)
    (hkick : KickedBy registry id record written stage next) : Owned next := by
  intro other found hfound hflag
  rw [hkick.get] at hfound
  by_cases hother : other = id
  · rw [if_pos hother] at hfound
    cases hfound
    left
    refine ⟨registry.nextId, (hkick.works hnumbered).2 (Or.inl ⟨rfl, hother, ?_⟩)⟩
    rw [← hkick.flag]
    exact hflag
  · rw [if_neg hother] at hfound
    rcases h other found hfound hflag with ⟨p, hp⟩ | ⟨p, loop, hloop, hended, hid, hkicked, hmap⟩
    · exact Or.inl ⟨p, (hkick.works hnumbered).2 (Or.inr hp)⟩
    · right
      refine ⟨p, loop, ?_, hended, hid, hkicked, ?_⟩
      · rw [hkick.loops, OrderedMap.get?_set_ne]
        · exact hloop
        · exact (hnumbered p loop hloop).ne
      · rw [hkick.inFlight, OrderedMap.get?_set_ne _ _ hother]
        exact hmap

end kicked

/-- A new session's identifier names no activation and nothing detached. -/
def Unused (registry : Registry) (detached : SessionRecord → Prop) (id : JsString) : Prop :=
  (∀ p, ¬ Works registry p id) ∧ ∀ record, detached record → record.sessionId ≠ id

variable {drops : JsString → Prop} {uuid : JsString}

/-- A record is put under an id, and no activation starts or ends. -/
structure Placed (registry : Registry) (id : JsString) (written : SessionRecord)
    (next : Registry) : Prop where
  get : ∀ other, next.get other = if other = id then some written else registry.get other
  loops : next.loops = registry.loops
  inFlight : next.inFlight = registry.inFlight
  nextId : registry.nextId ≤ next.nextId

section placed

variable {id : JsString} {record written : SessionRecord}

theorem Tracked.placed (h : Tracked registry detached) (hplaced : Placed registry id written next)
    (hid : written.sessionId = id)
    (hshows : (∀ p, ¬ Works registry p id) ∨
      ∃ record, registry.get id = some record ∧ (Occupied record → Occupied written))
    (haway : ∀ away, detached away → away.sessionId ≠ id) : Tracked next detached := by
  have hworks {p : Nat} {other : JsString} : Works next p other ↔ Works registry p other :=
    works_congr hplaced.loops
  refine h.mono ?_ (fun _ _ => hworks.1) ?_ ?_ ?_
  · intro p loop hloop
    rw [hplaced.loops] at hloop
    exact (h.numbered p loop hloop).trans_le hplaced.nextId
  · intro p other hp
    rwa [hplaced.inFlight] at hp
  · intro other found hfound
    rw [hplaced.get] at hfound
    split at hfound
    · rename_i hother
      cases hfound
      rw [hother]
      exact ⟨hid, hshows.imp_left fun hfree p hp => hfree p (hworks.1 hp)⟩
    · exact ⟨h.keyed other found hfound, Or.inr ⟨found, hfound, fun h => h⟩⟩
  · intro away hdetached
    rw [hplaced.get, if_neg (haway away hdetached)]
    exact h.absent away hdetached

/-- A record that is put with a flag replaces one with a flag. -/
theorem Owned.placed (h : Owned registry) (hplaced : Placed registry id written next)
    (hflag : written.observation.inFlight = true → ∃ record, registry.get id = some record ∧
      record.observation.inFlight = true ∧ record.objectId = written.objectId) : Owned next := by
  intro other found hfound hset
  rw [attended_congr hplaced.loops (by rw [hplaced.inFlight])]
  rw [hplaced.get] at hfound
  split at hfound
  · rename_i hother
    cases hfound
    obtain ⟨record, hget, hold, hobject⟩ := hflag hset
    rw [hother, ← hobject]
    exact h id record hget hold
  · exact h other found hfound hset

end placed

/-- A change of neither the records nor the activations. -/
theorem Tracked.congr (h : Tracked registry detached) (hsessions : next.sessions = registry.sessions)
    (hinFlight : next.inFlight = registry.inFlight) (hloops : next.loops = registry.loops)
    (hnextId : registry.nextId ≤ next.nextId) :
    Tracked next detached := by
  have hget : ∀ id, next.get id = registry.get id := by
    intro id
    rw [Registry.get, hsessions]
    rfl
  apply h.mono
  · intro p found hfound
    rw [hloops] at hfound
    exact (h.numbered p found hfound).trans_le hnextId
  · exact fun p id => (works_congr hloops).1
  · intro p id hp
    rwa [hinFlight] at hp
  · intro id record hrecord
    rw [hget] at hrecord
    exact ⟨h.keyed id record hrecord, Or.inr ⟨record, hrecord, fun h => h⟩⟩
  · intro away haway
    rw [hget]
    exact h.absent away haway

theorem Owned.congr (h : Owned registry) (hsessions : next.sessions = registry.sessions)
    (hinFlight : next.inFlight = registry.inFlight) (hloops : next.loops = registry.loops) :
    Owned next := by
  intro id record hrecord hflag
  rw [Registry.get, hsessions] at hrecord
  exact (attended_congr hloops (by rw [hinFlight])).2 (h id record hrecord hflag)

theorem Tracked.removed (h : Tracked registry detached) (id : JsString) {nextId : Nat}
    (hnextId : registry.nextId ≤ nextId) :
    Tracked { removeSession registry id with nextId } detached := by
  have hget : ∀ other, Registry.get { removeSession registry id with nextId } other =
      if other = id then none else registry.get other := get_removeSession registry id
  refine h.mono ?_ (fun _ _ hp => hp) ?_ ?_ ?_
  · exact fun p loop hloop => (h.numbered p loop hloop).trans_le hnextId
  · intro p other hp
    change (registry.inFlight.delete id).get? other = _ at hp
    rw [OrderedMap.get?_delete] at hp
    split at hp
    · cases hp
    · exact hp
  · intro other found hfound
    rw [hget] at hfound
    split at hfound
    · cases hfound
    · exact ⟨h.keyed other found hfound, Or.inr ⟨found, hfound, fun h => h⟩⟩
  · intro away haway
    rw [hget]
    split
    · rfl
    · exact h.absent away haway

theorem Owned.removed (h : Owned registry) (id : JsString) (nextId : Nat) :
    Owned { removeSession registry id with nextId } := by
  intro other found hfound hflag
  have hget : Registry.get { removeSession registry id with nextId } other =
      if other = id then none else registry.get other := get_removeSession registry id other
  rw [hget] at hfound
  split at hfound
  · cases hfound
  · rename_i hother
    apply (attended_congr _ _).2 (h other found hfound hflag)
    · rfl
    · exact OrderedMap.get?_delete_ne _ hother

/-- No activation works for a session that is active and waits for no answer. -/
theorem Tracked.free (h : Tracked registry detached) {id : JsString} {record : SessionRecord}
    (hget : registry.get id = some record) (hactive : record.state = .active)
    (hidle : record.observation.inFlight = false) : ∀ p, ¬ Works registry p id := by
  intro p hp
  rcases h.occupied p id record hget hp with hflag | hsettled
  · rw [hidle] at hflag
    cases hflag
  · exact hsettled.1 hactive

theorem Tracked.touch (h : Tracked registry detached) (hunused : Unused registry detached uuid)
    (htouch : Touch options drops uuid registry next) :
    Tracked next detached ∧ Unused next detached uuid ∧ (Owned registry → Owned next) := by
  cases htouch with
  | quiet hsessions hinFlight hloops hnextId =>
      exact ⟨h.congr hsessions hinFlight hloops hnextId,
        ⟨fun p hp => hunused.1 p ((works_congr hloops).1 hp), hunused.2⟩,
        fun howned => howned.congr hsessions hinFlight hloops⟩
  | @write id record written hget hwritten =>
      have hplaced : Placed registry id written (registry.put id written) :=
        ⟨fun other => get_put registry id other written, rfl, rfl, le_rfl⟩
      have hid : written.sessionId = id := hwritten.sessionId.trans (h.keyed id record hget)
      refine ⟨h.placed hplaced hid (.inr ⟨record, hget, hwritten.occupied⟩) (h.apart hget),
        hunused, fun howned => howned.placed hplaced fun hflag => ?_⟩
      exact ⟨record, hget, hwritten.flag hflag, hwritten.objectId.symm⟩
  | @kick id drawn record now hget hactive _ _ hidle hne =>
      have hfree := h.free hget hactive hidle
      obtain ⟨written, stage, hkick⟩ := kickCheckpoint_spec registry id record now drawn
      refine ⟨h.kick hget rfl hfree hkick, ⟨?_, hunused.2⟩, fun howned =>
        howned.kick h.numbered hkick⟩
      intro p hp
      rcases (hkick.works h.numbered).1 hp with ⟨-, heq, -⟩ | hp
      · exact hne heq.symm
      · exact hunused.1 p hp
  | @insert record hid hobject hempty =>
      have hplaced : Placed registry record.sessionId record (insertNew registry record) :=
        ⟨fun other => OrderedMap.get?_set _ _ _ _, rfl, rfl, Nat.le_succ _⟩
      refine ⟨h.placed hplaced rfl (.inl ?_) ?_, hunused, fun howned => howned.placed hplaced ?_⟩
      · rw [hid]
        exact hunused.1
      · rw [hid]
        exact hunused.2
      · intro hflag
        rw [hempty] at hflag
        cases hflag
  | @remove id nextId _ hnextId =>
      exact ⟨h.removed id hnextId, hunused, fun howned => howned.removed id nextId⟩
  | @anchor id record kept nextId hget hid hfrozen _ hempty hnextId =>
      have hplaced : Placed registry id kept (anchored registry id kept nextId) :=
        ⟨fun other => OrderedMap.get?_set _ _ _ _, rfl, rfl, hnextId⟩
      have hkept : kept.sessionId = id := hid.trans (h.keyed id record hget)
      refine ⟨h.placed hplaced hkept (.inr ⟨record, hget, fun _ => Or.inr ⟨hfrozen, ?_⟩⟩)
        (h.apart hget), hunused, fun howned => howned.placed hplaced fun hflag => ?_⟩
      · rw [hempty]
        exact ⟨rfl, rfl⟩
      · rw [hempty] at hflag
        cases hflag

theorem Tracked.touches (h : Tracked registry detached) (hunused : Unused registry detached uuid)
    (htouches : Touches options drops uuid registry next) :
    Tracked next detached ∧ (Owned registry → Owned next) := by
  induction htouches with
  | nil => exact ⟨h, fun howned => howned⟩
  | cons head _ ih =>
      obtain ⟨hnext, hstill, howned⟩ := h.touch hunused head
      obtain ⟨hlast, hlater⟩ := ih hnext hstill
      exact ⟨hlast, fun h => hlater (howned h)⟩

/-! ## Rounds -/

/-- What a round leaves of the record of its session; `lost` says that the save between
two rounds has failed. -/
inductive RoundEnd (lost : Prop) (loop : CheckpointLoop) (stage : LoopStage) :
    Option SessionRecord → Option SessionRecord → Prop where
  | gone (hidle : stage.working = false) : RoundEnd lost loop stage none none
  | closed {kept written : SessionRecord} (hid : written.sessionId = kept.sessionId)
      (hworked : loop.stage.working = true) (hflag : written.observation.inFlight = false) (hidle : stage.working = false) :
      RoundEnd lost loop stage (some kept) (some written)
  | goesOn {kept written : SessionRecord} (hid : written.sessionId = kept.sessionId)
      (hworked : loop.stage.working = true) (hworks : stage.working = true)
      (hoccupied : Occupied kept → Occupied written) :
      RoundEnd lost loop stage (some kept) (some written)
  | resting {kept : SessionRecord} (hidle : loop.stage.working = false)
      (hrunning : loop.stage ≠ .ended) (hended : stage = .ended) :
      RoundEnd lost loop stage (some kept) (some kept)
  | failed {kept : SessionRecord} (hlost : lost) (hworked : loop.stage.working = true)
      (hended : stage = .ended) : RoundEnd lost loop stage (some kept) (some kept)

structure RoundBy (lost : Prop) (registry : Registry) (promise : Nat) (loop : CheckpointLoop)
    (stage : LoopStage) (next : Registry) : Prop where
  loops : next.loops = registry.loops.set promise { loop with stage }
  inFlight : next.inFlight = registry.inFlight
  nextId : next.nextId = registry.nextId
  other : ∀ id ≠ loop.sessionId, next.get id = registry.get id
  record : RoundEnd lost loop stage (registry.get loop.sessionId) (next.get loop.sessionId)

theorem setStage_round {lost : Prop} (hrecord : ∀ stage : LoopStage, stage = .ended →
      RoundEnd lost loop stage (registry.get loop.sessionId) (registry.get loop.sessionId)) :
    RoundBy lost registry promise loop .ended (setStage registry promise loop .ended) :=
  ⟨rfl, rfl, rfl, fun _ _ => rfl, hrecord .ended rfl⟩

theorem put_round {lost : Prop} (written : SessionRecord) (stage : LoopStage)
    (hloops : next.loops = registry.loops.set promise { loop with stage })
    (hinFlight : next.inFlight = registry.inFlight) (hnextId : next.nextId = registry.nextId)
    (hget : ∀ id, next.get id =
      if id = loop.sessionId then some written else registry.get id)
    (hrecord : RoundEnd lost loop stage (registry.get loop.sessionId) (some written)) :
    RoundBy lost registry promise loop stage next where
  loops := hloops
  inFlight := hinFlight
  nextId := hnextId
  other id hother := by
    rw [hget, if_neg hother]
  record := by
    rw [hget, if_pos rfl]
    exact hrecord

/-- A round on a record that is there, after what was written to it. -/
theorem postRound_round {lost : Prop} {kept : SessionRecord} (written : SessionRecord)
    (hworked : loop.stage.working = true) (hget : registry.get loop.sessionId = some kept) (hid : written.sessionId = kept.sessionId)
    (hoccupied : Occupied kept → Occupied written) (uuid : JsString) :
    ∃ stage, RoundBy lost registry promise loop stage
      (postRound (registry.put loop.sessionId written) promise loop uuid) := by
  unfold postRound
  simp only
  rw [get_put, if_pos rfl]
  simp only
  split
  · refine ⟨.ended, put_round { written with
      observation := { written.observation with inFlight := false } } .ended rfl rfl rfl ?_ ?_⟩
    · intro id
      refine (get_put _ _ id _).trans ?_
      split
      · rfl
      · rename_i hother
        rw [get_put, if_neg hother]
    · rw [hget]
      exact .closed hid hworked rfl rfl
  · refine ⟨.posting _, put_round written (.posting _) rfl rfl rfl ?_ ?_⟩
    · exact fun id => get_put _ _ id _
    · rw [hget]
      exact .goesOn hid hworked rfl hoccupied

theorem put_self {id : JsString} {record : SessionRecord} (hget : registry.get id = some record)
    (other : JsString) : (registry.put id record).get other = registry.get other := by
  rw [get_put]
  split
  · rename_i hother
    rw [hother, hget]
  · rfl

theorem checkpointSaved_round (registry : Registry) (promise : Nat) {save : Nat} {again : Option Nat}
    (hstage : loop.stage = .saving save again) (saved : Bool) (now : Int) (uuid : JsString) :
    ∃ stage, RoundBy (saved = false ∧ again.isSome = true) registry promise loop stage
      (checkpointSaved registry promise loop again saved now uuid) := by
  unfold checkpointSaved
  cases again with
  | none =>
      refine ⟨.ended, setStage_round ?_⟩
      intro stage hended
      cases registry.get loop.sessionId with
      | none => exact .gone (by rw [hended]; rfl)
      | some kept => exact .resting (by rw [hstage]; rfl) (by rw [hstage]; nofun) hended
  | some object =>
      have hworked : loop.stage.working = true := by
        rw [hstage]
        rfl
      simp only [Bool.not_eq_true']
      split
      · refine ⟨.ended, setStage_round ?_⟩
        intro stage hended
        cases registry.get loop.sessionId with
        | none => exact .gone (by rw [hended]; rfl)
        | some kept => exact .failed ⟨‹_›, rfl⟩ hworked hended
      · cases hget : registry.get loop.sessionId with
        | none =>
            refine ⟨.ended, ?_⟩
            unfold postRound
            simp only [hget]
            apply setStage_round
            intro stage hended
            rw [hget]
            exact .gone (by rw [hended]; rfl)
        | some kept =>
            simp only
            split
            · exact postRound_round { kept with
                observation :=
                  { kept.observation with
                    queued := false, lastAttemptAtWallMs := some now } } hworked hget rfl
                (fun h => h.imp_right fun hsettled => ⟨hsettled.1, hsettled.2.1, rfl⟩) uuid
            · unfold postRound
              simp only [hget]
              split
              · refine ⟨.ended, put_round { kept with
                  observation := { kept.observation with inFlight := false } } .ended rfl rfl rfl
                  (fun id => get_put _ _ id _) ?_⟩
                rw [hget]
                exact .closed rfl hworked rfl rfl
              · refine ⟨.posting _, put_round kept (.posting _) rfl rfl rfl ?_ ?_⟩
                · exact fun id => ((put_self hget id).symm.trans (get_put _ _ id _) : _)
                · rw [hget]
                  exact .goesOn rfl hworked rfl fun h => h

theorem applyCheckpointResult_ok (options : RegistryOptions) (record : SessionRecord)
    {result : CheckpointResult} (hok : result.isOk = true) :
    (applyCheckpointResult options record result).observation.inFlight =
        record.observation.inFlight ∧
      (applyCheckpointResult options record result).observation.queued =
        record.observation.queued := by
  cases result with
  | ok response => exact ⟨rfl, rfl⟩
  | failed => cases hok

theorem checkpointAnswered_round (registry : Registry) (promise : Nat)
    {request : CheckpointRequest}
    (hstage : loop.stage = .posting request) (options : RegistryOptions)
    (result : CheckpointResult) (save : Nat) :
    ∃ stage, RoundBy False registry promise loop stage
      (checkpointAnswered options registry promise loop result save).1 := by
  have hworked : loop.stage.working = true := by
    rw [hstage]
    rfl
  unfold checkpointAnswered
  cases hget : registry.get loop.sessionId with
  | none =>
      refine ⟨.ended, setStage_round ?_⟩
      intro stage hended
      rw [hget]
      exact .gone (by rw [hended]; rfl)
  | some kept =>
      simp only
      split
      · rename_i hgoes
        rw [Bool.and_eq_true] at hgoes
        obtain ⟨hflight, hqueued⟩ := applyCheckpointResult_ok options kept hgoes.1
        refine ⟨_, put_round _ (.saving save
          (some (applyCheckpointResult options kept result).objectId)) rfl rfl rfl
          (fun id => OrderedMap.get?_set _ _ _ _) ?_⟩
        rw [hget]
        refine .goesOn rfl hworked rfl ?_
        -- A settled record has nothing queued, and the loop would not go on.
        intro hoccupied
        rcases hoccupied with hflag | hsettled
        · exact Or.inl (hflight.trans hflag)
        · have hgoing := hgoes.2
          unfold goesOn at hgoing
          rw [hqueued, hsettled.2.2] at hgoing
          simp at hgoing
      · refine ⟨_, put_round _ (.saving save none) rfl rfl rfl
          (fun id => OrderedMap.get?_set _ _ _ _) ?_⟩
        rw [hget]
        exact .closed rfl hworked rfl rfl

theorem RoundBy.works {lost : Prop} {stage : LoopStage} (h : RoundBy lost registry promise loop stage next)
    (hloop : registry.loops.get? promise = some loop)
    (hkept : stage.working = true → loop.stage.working = true) (p : Nat) (id : JsString)
    (hworks : Works next p id) : Works registry p id := by
  obtain ⟨found, hfound, hid, hworking⟩ := hworks
  rw [h.loops, OrderedMap.get?_set] at hfound
  split at hfound
  · rename_i hp
    cases hfound
    rw [hp]
    exact ⟨loop, hloop, hid, hkept hworking⟩
  · exact ⟨found, hfound, hid, hworking⟩

theorem RoundEnd.worked {lost : Prop} {stage : LoopStage} {kept written : Option SessionRecord}
    (h : RoundEnd lost loop stage kept written) (hworks : stage.working = true) :
    loop.stage.working = true := by
  cases h with
  | gone hidle =>
      rw [hidle] at hworks
      cases hworks
  | closed _ hworked _ _ => exact hworked
  | goesOn _ hworked _ _ => exact hworked
  | resting _ _ hended =>
      rw [hended] at hworks
      cases hworks
  | failed _ hworked _ => exact hworked

theorem Tracked.round (h : Tracked registry detached) {lost : Prop} {stage : LoopStage}
    (hloop : registry.loops.get? promise = some loop)
    (hround : RoundBy lost registry promise loop stage next) : Tracked next detached := by
  have hworks := hround.works hloop hround.record.worked
  apply h.mono _ hworks
  · intro p id hp
    rwa [hround.inFlight] at hp
  · intro id record hrecord
    by_cases hother : id = loop.sessionId
    · subst hother
      have hend := hround.record
      rw [hrecord] at hend
      generalize hkept : registry.get loop.sessionId = kept at hend
      cases hend with
      | closed hid hworked _ hidle =>
          refine ⟨hid.trans (h.keyed _ _ hkept), Or.inl ?_⟩
          -- The only activation of the session is this one, and it works no longer.
          intro p hp
          have hpromise := h.single p promise _ (hworks p _ hp) ⟨loop, hloop, rfl, hworked⟩
          obtain ⟨found, hfound, -, hworking⟩ := hp
          rw [hround.loops, hpromise, OrderedMap.get?_set_self] at hfound
          cases hfound
          rw [show LoopStage.working _ = false from hidle] at hworking
          cases hworking
      | goesOn hid hworked _ hoccupied =>
          exact ⟨hid.trans (h.keyed _ _ hkept), Or.inr ⟨_, rfl, hoccupied⟩⟩
      | resting => exact ⟨h.keyed _ _ hkept, Or.inr ⟨_, rfl, fun h => h⟩⟩
      | failed => exact ⟨h.keyed _ _ hkept, Or.inr ⟨_, rfl, fun h => h⟩⟩
    · rw [hround.other id hother] at hrecord
      exact ⟨h.keyed id record hrecord, Or.inr ⟨record, hrecord, fun h => h⟩⟩
  · intro away haway
    by_cases hother : away.sessionId = loop.sessionId
    · have hend := hround.record
      rw [← hother, h.absent away haway] at hend
      generalize next.get away.sessionId = later at hend ⊢
      cases hend with
      | gone => rfl
    · rw [hround.other _ hother]
      exact h.absent away haway
  · intro p found hfound
    rw [hround.loops, OrderedMap.get?_set] at hfound
    rw [hround.nextId]
    split at hfound
    · rename_i hp
      rw [hp]
      exact h.numbered promise loop hloop
    · exact h.numbered p found hfound

/-- The save between two rounds may fail where the activation that ends is the one
that the session's record object waits for. -/
theorem Owned.round (h : Owned registry) {lost : Prop} {stage : LoopStage}
    (hloop : registry.loops.get? promise = some loop)
    (hround : RoundBy lost registry promise loop stage next)
    (hfailed : lost → ∀ record, registry.get loop.sessionId = some record →
      record.observation.inFlight = true →
      registry.inFlight.get? loop.sessionId = some promise ∧ loop.kicked = record.objectId) :
    Owned next := by
  have hother : ∀ id object,
      (loop.sessionId = id → loop.stage.working = false ∧ loop.stage ≠ .ended) →
      Attended registry id object → Attended next id object := by
    intro id object hself hattended
    have hkept : ∀ p found, registry.loops.get? p = some found → found.sessionId = id →
        (found.stage.working = true ∨ found.stage = .ended) → next.loops.get? p = some found := by
      intro p found hfound hid hstage
      rw [hround.loops, OrderedMap.get?_set_ne]
      · exact hfound
      · rintro rfl
        rw [hloop] at hfound
        cases hfound
        rcases hstage with hworking | hended
        · rw [(hself hid).1] at hworking
          cases hworking
        · exact (hself hid).2 hended
    rcases hattended with ⟨p, found, hfound, hid, hworking⟩ | ⟨p, found, hfound, hended, hid, hmap⟩
    · exact Or.inl ⟨p, found, hkept p found hfound hid (Or.inl hworking), hid, hworking⟩
    · right
      refine ⟨p, found, hkept p found hfound hid (Or.inr hended), hended, hid, hmap.1, ?_⟩
      rw [hround.inFlight]
      exact hmap.2
  intro id record hrecord hflag
  by_cases hid : id = loop.sessionId
  · subst hid
    have hself : next.loops.get? promise = some { loop with stage } := by
      rw [hround.loops, OrderedMap.get?_set_self]
    have hend := hround.record
    rw [hrecord] at hend
    generalize hkept : registry.get loop.sessionId = kept at hend
    cases hend with
    | closed _ _ hcleared _ =>
        rw [hcleared] at hflag
        cases hflag
    | goesOn _ _ hworks _ => exact Or.inl ⟨promise, _, hself, rfl, hworks⟩
    | resting hidle hrunning _ =>
        exact hother _ _ (fun _ => ⟨hidle, hrunning⟩) (h _ record hkept hflag)
    | failed hlost _ hended =>
        obtain ⟨hmap, hobject⟩ := hfailed hlost record hkept hflag
        right
        refine ⟨promise, _, hself, hended, rfl, hobject, ?_⟩
        rw [hround.inFlight]
        exact hmap
  · rw [hround.other id hid] at hrecord
    exact hother id _ (fun heq => absurd heq.symm hid) (h id record hrecord hflag)

/-! ## The end of an activation -/

/-- What the end of an activation leaves. -/
structure FinishedBy (registry : Registry) (promise : Nat) (loop : CheckpointLoop)
    (next : Registry) : Prop where
  loops : next.loops = registry.loops.delete promise
  nextId : next.nextId = registry.nextId
  inFlight : ∀ id, next.inFlight.get? id =
    if id = loop.sessionId ∧ registry.inFlight.get? id = some promise then none
    else registry.inFlight.get? id
  other : ∀ id ≠ loop.sessionId, next.get id = registry.get id
  record : next.get loop.sessionId = registry.get loop.sessionId ∨
    registry.inFlight.get? loop.sessionId = some promise ∧
      ∃ kept, registry.get loop.sessionId = some kept ∧
        next.get loop.sessionId = some { kept with
          observation := { kept.observation with inFlight := false } }
  cleared : ∀ kept, registry.get loop.sessionId = some kept →
    registry.inFlight.get? loop.sessionId = some promise → loop.kicked = kept.objectId →
    ∀ record, next.get loop.sessionId = some record → record.observation.inFlight = false

theorem loopFinished_spec (registry : Registry) (promise : Nat) (loop : CheckpointLoop) :
    FinishedBy registry promise loop (loopFinished registry promise loop) := by
  unfold loopFinished
  by_cases howner : registry.inFlight.get? loop.sessionId = some promise
  · simp only [howner, if_true]
    have hreleased : ∀ id, (registry.inFlight.delete loop.sessionId).get? id =
        if id = loop.sessionId ∧ registry.inFlight.get? id = some promise then none
        else registry.inFlight.get? id := by
      intro id
      rw [OrderedMap.get?_delete]
      by_cases hid : id = loop.sessionId
      · rw [if_pos hid, if_pos ⟨hid, hid ▸ howner⟩]
      · rw [if_neg hid, if_neg fun h => hid h.1]
    cases hget : registry.get loop.sessionId with
    | none =>
        refine ⟨rfl, rfl, hreleased, fun _ _ => rfl, Or.inl rfl, ?_⟩
        intro kept hkept
        rw [hget] at hkept
        cases hkept
    | some kept =>
        simp only
        by_cases hmine : kept.objectId = loop.kicked ∧ kept.observation.inFlight = true
        · rw [if_pos hmine]
          have hself : ∀ id, Registry.get ((Registry.put
              { registry with
                loops := registry.loops.delete promise
                inFlight := registry.inFlight.delete loop.sessionId } loop.sessionId
              { kept with observation := { kept.observation with inFlight := false } }).touch
              loop.sessionId) id =
              if id = loop.sessionId then
                some { kept with observation := { kept.observation with inFlight := false } }
              else registry.get id := fun id => get_put _ _ id _
          refine ⟨rfl, rfl, hreleased, ?_, ?_, ?_⟩
          · intro id hid
            rw [hself, if_neg hid]
          · refine Or.inr ⟨howner, kept, hget, ?_⟩
            rw [hself, if_pos rfl]
          · intro _ _ _ _ record hrecord
            rw [hself, if_pos rfl] at hrecord
            cases hrecord
            rfl
        · rw [if_neg hmine]
          refine ⟨rfl, rfl, hreleased, fun _ _ => rfl, Or.inl rfl, ?_⟩
          intro found hfound _ hkicked record hrecord
          have hsame : registry.get loop.sessionId = some record := hrecord
          rw [hget] at hsame hfound
          cases hsame
          cases hfound
          by_contra hflag
          exact hmine ⟨hkicked.symm, Bool.eq_true_of_not_eq_false hflag⟩
  · simp only [howner, if_false]
    refine ⟨rfl, rfl, ?_, fun _ _ => rfl, Or.inl rfl, ?_⟩
    · intro id
      rw [if_neg]
      rintro ⟨rfl, hmap⟩
      exact howner hmap
    · exact fun _ _ hmap => absurd hmap howner

theorem Tracked.finish (h : Tracked registry detached)
    (hfinished : FinishedBy registry promise loop next) : Tracked next detached := by
  have hloops : ∀ p found, next.loops.get? p = some found →
      p ≠ promise ∧ registry.loops.get? p = some found := by
    intro p found hfound
    rw [hfinished.loops, OrderedMap.get?_delete] at hfound
    split at hfound
    · cases hfound
    · exact ⟨‹_›, hfound⟩
  have hworks : ∀ p id, Works next p id → Works registry p id := by
    rintro p id ⟨found, hfound, hid, hworking⟩
    exact ⟨found, (hloops p found hfound).2, hid, hworking⟩
  apply h.mono _ hworks
  · intro p id hp
    rw [hfinished.inFlight] at hp
    split at hp
    · cases hp
    · exact hp
  · intro id record hrecord
    by_cases hid : id = loop.sessionId
    · subst hid
      rcases hfinished.record with hsame | ⟨hmap, kept, hkept, hnext⟩
      · rw [hsame] at hrecord
        exact ⟨h.keyed _ record hrecord, Or.inr ⟨record, hrecord, fun h => h⟩⟩
      · rw [hnext] at hrecord
        cases hrecord
        refine ⟨h.keyed _ kept hkept, Or.inl ?_⟩
        -- The session's only activation is the one that has ended.
        intro p hp
        obtain ⟨found, hfound, -, -⟩ := id hp
        exact (hloops p found hfound).1 (h.owner promise p _ hmap (hworks p _ hp))
    · rw [hfinished.other id hid] at hrecord
      exact ⟨h.keyed id record hrecord, Or.inr ⟨record, hrecord, fun h => h⟩⟩
  · intro away haway
    by_cases hid : away.sessionId = loop.sessionId
    · rcases hfinished.record with hsame | ⟨-, kept, hkept, -⟩
      · rw [hid, hsame, ← hid]
        exact h.absent away haway
      · rw [← hid, h.absent away haway] at hkept
        cases hkept
    · rw [hfinished.other _ hid]
      exact h.absent away haway
  · intro p found hfound
    rw [hfinished.nextId]
    exact h.numbered p found (hloops p found hfound).2

theorem Owned.finish (h : Owned registry) (hloop : registry.loops.get? promise = some loop)
    (hended : loop.stage = .ended) (hfinished : FinishedBy registry promise loop next) :
    Owned next := by
  intro id record hrecord hflag
  have hkept : ∃ kept, registry.get id = some kept ∧ kept.observation.inFlight = true ∧
      kept.objectId = record.objectId := by
    by_cases hid : id = loop.sessionId
    · subst hid
      rcases hfinished.record with hsame | ⟨-, kept, -, hnext⟩
      · exact ⟨record, hsame ▸ hrecord, hflag, rfl⟩
      · rw [hnext] at hrecord
        cases hrecord
        cases hflag
    · exact ⟨record, (hfinished.other id hid) ▸ hrecord, hflag, rfl⟩
  obtain ⟨kept, hget, hset, hobject⟩ := hkept
  have hloops : ∀ p, p ≠ promise → next.loops.get? p = registry.loops.get? p := by
    intro p hp
    rw [hfinished.loops, OrderedMap.get?_delete_ne _ hp]
  rcases h id kept hget hset with ⟨p, found, hfound, hid, hworking⟩ | ⟨p, found, hfound, hdone, hid, hkicked, hmap⟩
  · refine Or.inl ⟨p, found, ?_, hid, hworking⟩
    rw [hloops]
    · exact hfound
    · rintro rfl
      rw [hloop] at hfound
      cases hfound
      rw [hended] at hworking
      cases hworking
  · by_cases hp : p = promise
    · -- The activation that was to clear the flag has just done so.
      subst hp
      rw [hloop] at hfound
      cases hfound
      subst hid
      have := hfinished.cleared kept hget hmap hkicked record hrecord
      rw [this] at hflag
      cases hflag
    · right
      refine ⟨p, found, ?_, hdone, hid, hkicked.trans hobject, ?_⟩
      · rw [hloops p hp]
        exact hfound
      · rw [hfinished.inFlight, if_neg]
        · exact hmap
        · rintro ⟨-, hother⟩
          rw [hmap] at hother
          exact hp (Option.some.inj hother)

/-! ## Flushes -/

theorem Tracked.flush (h : Tracked registry detached) (flush : ObservationFlush) (now : Int)
    (uuid : JsString) :
    Tracked (flushRound registry flush now uuid).1 detached ∧
      (Owned registry → Owned (flushRound registry flush now uuid).1) := by
  have hround := flushRound_spec registry flush now uuid
  generalize flushRound registry flush now uuid = result at hround ⊢
  cases hround with
  | joins => exact ⟨h, fun howned => howned⟩
  | @starts record _ _ hget _ hidle hcommitted hstarted =>
      have hfree : ∀ p, ¬ Works registry p flush.sessionId := by
        intro p hp
        rcases h.occupied p _ record hget hp with hflag | hsettled
        · rw [hidle] at hflag
          cases hflag
        · exact hcommitted hsettled.2.1
      obtain ⟨written, stage, hkick⟩ := kickedBy_of_eq hstarted
      refine ⟨h.kick hget ?_ hfree hkick, fun howned => howned.kick h.numbered hkick⟩
      rfl
  | _ => exact ⟨h.congr rfl rfl rfl (Nat.le_refl _), fun howned => howned.congr rfl rfl rfl⟩

/-! ## Loading -/

/-- A loaded session is one of the snapshot, with nothing under way. -/
theorem get_load {snapshot : List SessionRecord} {id : JsString} {record : SessionRecord}
    (h : (load registry snapshot).get id = some record) :
    ∃ stored ∈ snapshot, stored.sessionId = id ∧
      ∃ objectId, record = normaliseLoadedRecord objectId stored := by
  unfold load at h
  have hstart : Registry.get { registry with
      sessions := ∅, pendingEvents := ∅, dirty := ∅, deleted := ∅, clearEvents := ∅ } id =
      none := rfl
  generalize { registry with
    sessions := ∅, pendingEvents := ∅, dirty := ∅, deleted := ∅, clearEvents := ∅ } =
    start at h hstart
  have hfold : start.get id = some record ∨ ∃ stored ∈ snapshot, stored.sessionId = id ∧
      ∃ objectId, record = normaliseLoadedRecord objectId stored := by
    clear hstart
    induction snapshot generalizing start with
    | nil => exact Or.inl h
    | cons first snapshot ih =>
        rcases ih (loadRecord start first) h with hget | ⟨stored, hstored, hid, hloaded⟩
        · have hput : (loadRecord start first).get id =
              if id = first.sessionId then some (normaliseLoadedRecord start.nextId first)
              else start.get id := OrderedMap.get?_set _ _ _ _
          rw [hput] at hget
          split at hget
          · rename_i hid
            cases hget
            exact Or.inr ⟨first, List.mem_cons_self, hid.symm, _, rfl⟩
          · exact Or.inl hget
        · exact Or.inr ⟨stored, List.mem_cons_of_mem _ hstored, hid, hloaded⟩
  rcases hfold with hget | hstored
  · rw [hstart] at hget
    cases hget
  · exact hstored

theorem loops_load (registry : Registry) (snapshot : List SessionRecord) :
    (load registry snapshot).loops = registry.loops ∧
      (load registry snapshot).inFlight = registry.inFlight := by
  unfold load
  generalize hstart : { registry with
    sessions := ∅, pendingEvents := ∅, dirty := ∅, deleted := ∅, clearEvents := ∅ } = start
  have hsame : start.loops = registry.loops ∧ start.inFlight = registry.inFlight := by
    rw [← hstart]
    exact ⟨rfl, rfl⟩
  rw [← hsame.1, ← hsame.2]
  clear hstart hsame
  induction snapshot generalizing start with
  | nil => exact ⟨rfl, rfl⟩
  | cons first snapshot ih => exact ih (loadRecord start first)

theorem boot_loops (snapshot : List SessionRecord) (nextId : Nat) :
    (Process.boot snapshot nextId).registry.loops = ∅ ∧
      (Process.boot snapshot nextId).registry.inFlight = ∅ :=
  loops_load { Registry.empty with nextId } snapshot

theorem tracked_boot (snapshot : List SessionRecord) (nextId : Nat) :
    Tracked (Process.boot snapshot nextId).registry fun _ => False := by
  have hidle : ∀ p id, ¬ Works (Process.boot snapshot nextId).registry p id := by
    rintro p id ⟨found, hfound, -⟩
    rw [(boot_loops snapshot nextId).1] at hfound
    cases hfound
  refine ⟨?_, ?_, ?_, ?_, ?_, ?_, ?_⟩
  · intro id record hrecord
    obtain ⟨stored, -, hid, objectId, rfl⟩ := get_load hrecord
    exact hid
  · intro p found hfound
    rw [(boot_loops snapshot nextId).1] at hfound
    cases hfound
  · exact fun p q id hp => absurd hp (hidle p id)
  · exact fun p q id _ hq => absurd hq (hidle q id)
  · exact fun p id record _ hp => absurd hp (hidle p id)
  · exact fun p record h => h.elim
  · exact fun record h => h.elim

theorem owned_boot (snapshot : List SessionRecord) (nextId : Nat) :
    Owned (Process.boot snapshot nextId).registry := by
  intro id record hrecord hflag
  obtain ⟨stored, -, -, objectId, rfl⟩ := get_load hrecord
  cases hflag

/-! ## Detaching and restoring -/

/-- What `discardPersisted` takes out: copies of the records, as new objects. -/
structure TakenOut (registry : Registry) (ids : List JsString)
    (result : Registry × List SessionRecord) : Prop where
  get : ∀ id, result.1.get id = if id ∈ ids then none else registry.get id
  loops : result.1.loops = registry.loops
  inFlight : ∀ id, id ∉ ids → result.1.inFlight.get? id = registry.inFlight.get? id
  fewer : ∀ p id, result.1.inFlight.get? id = some p → registry.inFlight.get? id = some p
  nextId : registry.nextId ≤ result.1.nextId
  removed : ∀ record ∈ result.2, record.sessionId ∈ ids ∧ ∃ kept objectId,
    registry.get record.sessionId = some kept ∧ record = { kept with objectId }
  distinct : (result.2.map SessionRecord.sessionId).Nodup

theorem TakenOut.concat (hkeyed : Keyed registry) {ids : List JsString}
    {result : Registry × List SessionRecord} (h : TakenOut registry ids result) (id : JsString) :
    TakenOut registry (ids ++ [id]) (World.detachOne result id) := by
  have hgone : result.1.get id = none → result.1.get id =
      if id ∈ ids ++ [id] then none else registry.get id := by
    intro hnone
    rw [hnone, if_pos (by simp)]
  unfold World.detachOne discard
  cases hget : result.1.get id with
  | none =>
      simp only
      refine ⟨?_, h.loops, ?_, h.fewer, h.nextId, ?_, h.distinct⟩
      · intro other
        by_cases hother : other = id
        · rw [hother]
          exact hgone hget
        · simp only [h.get, List.mem_append, List.mem_singleton, hother, or_false]
      · intro other hother
        exact h.inFlight other fun hmem => hother (List.mem_append_left _ hmem)
      · intro record hrecord
        obtain ⟨hmem, hkept⟩ := h.removed record hrecord
        exact ⟨List.mem_append_left _ hmem, hkept⟩
  | some existing =>
      have hnew : id ∉ ids := by
        intro hmem
        rw [h.get, if_pos hmem] at hget
        cases hget
      have hlive : registry.get id = some existing := by
        rw [← hget, h.get, if_neg hnew]
      have hid : existing.sessionId = id := hkeyed id existing hlive
      simp only
      refine ⟨?_, h.loops, ?_, ?_, h.nextId.trans (Nat.le_succ _), ?_, ?_⟩
      · intro other
        refine (get_removeSession result.1 id other).trans ?_
        by_cases hother : other = id
        · rw [if_pos hother, if_pos (by simp [hother])]
        · simp only [h.get, List.mem_append, List.mem_singleton, hother, or_false, if_false]
      · intro other hother
        rw [List.mem_append, List.mem_singleton, not_or] at hother
        refine (OrderedMap.get?_delete_ne _ hother.2).trans ?_
        exact h.inFlight other hother.1
      · intro p other hp
        change (result.1.inFlight.delete id).get? other = _ at hp
        rw [OrderedMap.get?_delete] at hp
        split at hp
        · cases hp
        · exact h.fewer p other hp
      · intro record hrecord
        rw [List.mem_append, List.mem_singleton] at hrecord
        rcases hrecord with hrecord | rfl
        · obtain ⟨hmem, hkept⟩ := h.removed record hrecord
          exact ⟨List.mem_append_left _ hmem, hkept⟩
        · refine ⟨?_, existing, result.1.nextId, ?_, rfl⟩
          · rw [hid]
            simp
          · rw [hid]
            exact hlive
      · rw [List.map_append, List.nodup_append]
        refine ⟨h.distinct, List.nodup_singleton _, ?_⟩
        intro first hfirst second hsecond heq
        obtain ⟨record, hrecord, rfl⟩ := List.mem_map.1 hfirst
        rw [List.map_singleton, List.mem_singleton] at hsecond
        apply hnew
        rw [← hid]
        have := (h.removed record hrecord).1
        rwa [heq, hsecond] at this

theorem detach_taken (hkeyed : Keyed registry) (ids : List JsString) :
    TakenOut registry ids (World.detach registry ids) := by
  induction ids using List.reverseRecOn with
  | nil =>
      exact ⟨by simp [World.detach], rfl, fun _ _ => rfl, fun _ _ h => h, Nat.le_refl _,
        by simp [World.detach], List.nodup_nil⟩
  | append_singleton ids id ih =>
      rw [World.detach, List.foldl_append]
      exact ih.concat hkeyed id

theorem restoreOne_loops (pending : List (JsString × Option (List BufferMutation)))
    (registry : Registry) (record : SessionRecord) :
    (World.restoreOne pending registry record).loops = registry.loops ∧
      (World.restoreOne pending registry record).inFlight = registry.inFlight ∧
      (World.restoreOne pending registry record).nextId = registry.nextId := by
  unfold World.restoreOne
  split
  · exact ⟨rfl, rfl, rfl⟩
  · simp only
    split
    · exact ⟨rfl, rfl, rfl⟩
    · exact ⟨rfl, rfl, rfl⟩

/-- What a rollback puts back: the copies as they were taken. -/
structure PutBack (registry : Registry) (removed : List SessionRecord) (next : Registry) :
    Prop where
  back : ∀ record ∈ removed, next.get record.sessionId = some record
  get : ∀ id ∉ removed.map SessionRecord.sessionId, next.get id = registry.get id
  loops : next.loops = registry.loops
  inFlight : next.inFlight = registry.inFlight
  nextId : next.nextId = registry.nextId

theorem restoreAll_back {pending : List (JsString × Option (List BufferMutation))}
    {removed : List SessionRecord} (hnodup : (removed.map SessionRecord.sessionId).Nodup)
    (hgone : ∀ record ∈ removed, registry.get record.sessionId = none) :
    PutBack registry removed (removed.foldl (World.restoreOne pending) registry) := by
  have hloops : ∀ (removed : List SessionRecord) (registry : Registry),
      (removed.foldl (World.restoreOne pending) registry).loops = registry.loops ∧
        (removed.foldl (World.restoreOne pending) registry).inFlight = registry.inFlight ∧
        (removed.foldl (World.restoreOne pending) registry).nextId = registry.nextId := by
    intro removed
    induction removed with
    | nil => exact fun registry => ⟨rfl, rfl, rfl⟩
    | cons record removed ih =>
        intro registry
        obtain ⟨hloops, hinFlight, hnextId⟩ := ih (World.restoreOne pending registry record)
        obtain ⟨hone, hmap, hid⟩ := restoreOne_loops pending registry record
        exact ⟨hloops.trans hone, hinFlight.trans hmap, hnextId.trans hid⟩
  have hspec := World.restore_spec pending hnodup registry hgone
  obtain ⟨hsame, hmap, hnextId⟩ := hloops removed registry
  exact ⟨hspec.back, hspec.get, hsame, hmap, hnextId⟩

end Pmbah.Producer
