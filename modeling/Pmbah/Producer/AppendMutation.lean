import Pmbah.Producer.CrashConsistency
import Pmbah.Producer.Loops

/-!
# One call of `appendMutation`

The call either throws and leaves the session alone, or extends a history that the
session describes by one event, in a registry that keeps histories in a journal and in
one that keeps them in its sessions.
-/

namespace Pmbah.Producer

open Js Format Library

variable {P : Platform} {options : RegistryOptions} {registry next : Registry}
  {id : JsString} {record later : SessionRecord} {rows log : List BufferMutation}

/-! ## Histories -/

/-- The whole history of a session: its stored rows and what waits in its queue, or the
events that it carries itself. -/
def fullHistory (options : RegistryOptions) (registry : Registry) (record : SessionRecord)
    (rows : List BufferMutation) : List BufferMutation :=
  if options.journal then rows ++ registry.pending record.sessionId else record.events

/-- The history of a session is a valid log, and the session says how long it is, when
it ends and where its hash chain ends. -/
structure Chained (P : Platform) (options : RegistryOptions) (record : SessionRecord)
    (log : List BufferMutation) : Prop where
  valid : ValidLog log
  eventCount : record.eventCount = if options.journal then some log.length else none
  lastEventT : record.lastEventT = if options.journal then some (lastTime log) else none
  tip : World.recomputedTip P record log = .ok record.lastEventChainTip
  uuid : log ≠ [] → isUuid record.sessionId = true

structure Keeps (P : Platform) (options : RegistryOptions) (registry : Registry) (id : JsString)
    (rows log : List BufferMutation) : Prop where
  held : ∃ record, registry.get id = some record ∧ record.sessionId = id ∧
    fullHistory options registry record rows = log ∧ Chained P options record log

/-- What tells two views of a session's history apart has not changed. -/
structure SameHistory (record later : SessionRecord) : Prop where
  log : SameLog record later
  events : later.events = record.events

theorem SameHistory.refl (record : SessionRecord) : SameHistory record record :=
  ⟨.refl record, rfl⟩

theorem recomputedTip_eq (hvalid : ValidLog log)
    (huuid : log ≠ [] → isUuid record.sessionId = true) :
    World.recomputedTip P record log =
      .ok (eventTip P record.sessionId record.formatVersion log) := by
  rw [World.recomputedTip]
  by_cases hempty : log = []
  · rw [if_pos hempty, hempty]
    rfl
  · rw [if_neg hempty,
      computeEventHashChain_eq (huuid hempty) (readsAsLog_toJson log) hvalid hempty]
    show Except.ok _ = _
    rw [eventTip, eventChain, ChainScheme.getLast?_chain]

namespace Chained

theorem tip_eq (h : Chained P options record log) :
    record.lastEventChainTip = eventTip P record.sessionId record.formatVersion log := by
  have htip := h.tip
  rw [recomputedTip_eq h.valid h.uuid] at htip
  exact (Except.ok.inj htip).symm

theorem sameHistory (h : Chained P options record log) (hsame : SameHistory record later) :
    Chained P options later log where
  valid := h.valid
  eventCount := hsame.log.eventCount.trans h.eventCount
  lastEventT := hsame.log.lastEventT.trans h.lastEventT
  tip := by
    have huuid : log ≠ [] → isUuid later.sessionId = true := by
      rw [hsame.log.sessionId]
      exact h.uuid
    rw [recomputedTip_eq h.valid huuid, hsame.log.tip, h.tip_eq, hsame.log.sessionId]
    exact congrArg Except.ok (eventTip_congr hsame.log.chain log)
  uuid := by
    rw [hsame.log.sessionId]
    exact h.uuid

/-- The count and the time that the next event is built from. -/
theorem place (h : Chained P options record log) (hevents : options.journal = false →
    record.events = log) :
    sessionEventCount record = log.length ∧ sessionLastEventTime record = lastTime log := by
  rw [sessionEventCount, sessionLastEventTime, h.eventCount, h.lastEventT]
  cases hjournal : options.journal with
  | true => exact ⟨rfl, rfl⟩
  | false =>
      rw [hevents hjournal]
      exact ⟨rfl, rfl⟩

theorem recomputeObservationState_same (options : RegistryOptions) (record : SessionRecord) :
    SameHistory record (recomputeObservationState options record) := by
  rw [recomputeObservationState]
  split
  · exact .refl record
  · exact ⟨sameLog_observation record _, rfl⟩

/-- What `recordEvent` writes. -/
theorem recordEvent_fields (options : RegistryOptions) (record : SessionRecord)
    (event : BufferMutation) (tip : B3Hash) (now : Int) :
    SameHistory { record with
      eventCount := if options.journal then some (event.seq + 1) else record.eventCount
      lastEventT := if options.journal then some event.t else record.lastEventT
      events := if options.journal then record.events else record.events ++ [event]
      lastEventChainTip := some tip } (recordEvent options record event tip now) := by
  rw [recordEvent]
  obtain ⟨hlog, hevents⟩ := recomputeObservationState_same options { record with
    eventCount := if options.journal then some (event.seq + 1) else record.eventCount
    lastEventT := if options.journal then some event.t else record.lastEventT
    events := if options.journal then record.events else record.events ++ [event]
    lastEventChainTip := some tip
    pendingObservationGap := false
    lastEditWallMs := max record.lastEditWallMs now }
  exact ⟨⟨hlog.sessionId, hlog.eventCount, hlog.lastEventT, hlog.tip, hlog.anchor, hlog.chain⟩,
    hevents⟩

/-- An accepted event continues the history that a record describes. -/
theorem accept (h : Chained P options record log)
    (hevents : options.journal = false → record.events = log) {queue : List BufferMutation}
    {mutation : PendingMutation} {now : Int} {event : BufferMutation} {tip : B3Hash}
    (hnext : nextEvent P options queue record mutation now = .ok (event, tip)) :
    Chained P options (recordEvent options record event tip now) (log ++ [event]) := by
  obtain ⟨hcount, htime⟩ := h.place hevents
  obtain ⟨hvalid, hseq, hle, hadvance⟩ := nextEvent_ok hnext
  rw [hcount] at hseq
  rw [htime] at hle
  rw [h.tip_eq] at hadvance
  obtain ⟨huuid, htip⟩ := advanceChain_ok hvalid hadvance
  have hlog : ValidLog (log ++ [event]) := by
    rw [validLog_concat]
    refine ⟨h.valid, hvalid, hseq, ?_⟩
    intro last hlast
    rw [lastTime, Option.mem_def.1 hlast] at hle
    exact hle
  apply sameHistory _ (recordEvent_fields options record event tip now)
  refine ⟨hlog, ?_, ?_, ?_, fun _ => huuid⟩
  · show (if options.journal then some (event.seq + 1) else record.eventCount) = _
    rw [h.eventCount, hseq, List.length_append, List.length_singleton]
    split <;> rfl
  · show (if options.journal then some event.t else record.lastEventT) = _
    have hlast : lastTime (log ++ [event]) = event.t := by
      rw [lastTime, List.getLast?_concat]
      rfl
    rw [h.lastEventT, hlast]
    split <;> rfl
  · have htip' : World.recomputedTip P record (log ++ [event]) = .ok (some tip) := by
      rw [recomputedTip_eq hlog fun _ => huuid, htip]
    exact htip'

end Chained

/-! ## The checkpoint that an edit may start -/

/-- The session keeps its queue, and at most what checkpoints write of it changes. -/
def Observed (registry next : Registry) (id : JsString) : Prop :=
  next.pendingEvents = registry.pendingEvents ∧ ∀ record, registry.get id = some record →
    ∃ observation, next.get id = some { record with observation }

theorem Observed.of_eq (hpending : next.pendingEvents = registry.pendingEvents)
    (hsessions : next.sessions = registry.sessions) : Observed registry next id := by
  refine ⟨hpending, fun record hget => ⟨record.observation, ?_⟩⟩
  rw [Registry.get, hsessions]
  exact hget

theorem Observed.trans {third : Registry} (h : Observed registry next id)
    (h' : Observed next third id) : Observed registry third id := by
  refine ⟨h'.1.trans h.1, fun record hget => ?_⟩
  obtain ⟨observation, hnext⟩ := h.2 record hget
  obtain ⟨observation', hthird⟩ := h'.2 _ hnext
  exact ⟨observation', hthird⟩

theorem Observed.put (hget : registry.get id = some record) (observation : SessionObservation) :
    Observed registry (registry.put id { record with observation }) id := by
  refine ⟨rfl, fun found hfound => ⟨observation, ?_⟩⟩
  rw [hget] at hfound
  obtain rfl := Option.some.inj hfound
  exact OrderedMap.get?_set_self _ _ _

theorem postRound_observed (registry : Registry) (promise : Nat) (loop : CheckpointLoop)
    (uuid : JsString) :
    Observed registry (postRound registry promise loop uuid) loop.sessionId := by
  simp only [postRound]
  split
  · exact .of_eq rfl rfl
  · rename_i record hget
    split
    · exact (Observed.put hget _).trans (.of_eq rfl rfl)
    · exact .of_eq rfl rfl

theorem maybeTriggerCheckpoint_observed (options : RegistryOptions) (clock : Nat → Int)
    (uuid : JsString) (hget : registry.get id = some record) :
    Observed registry (maybeTriggerCheckpoint options registry id record clock uuid) id := by
  rw [maybeTriggerCheckpoint]
  split
  · exact .of_eq rfl rfl
  split
  · exact .of_eq rfl rfl
  split
  · exact .put hget _
  · simp only [kickCheckpoint]
    have hkicked : Observed registry ((registry.touch id).put id { record with
        observation := { record.observation with
          inFlight := true, queued := false, lastAttemptAtWallMs := some (clock 2) } }) id :=
      @Observed.put (registry.touch id) id record hget _
    generalize (registry.touch id).put id _ = kicked at hkicked ⊢
    have hrenamed : Observed kicked { kicked with nextId := kicked.nextId + 1 } id :=
      .of_eq rfl rfl
    have hposted := postRound_observed { kicked with nextId := kicked.nextId + 1 } kicked.nextId
      { sessionId := id, kicked := record.objectId, stage := .ended } uuid
    exact ((hkicked.trans hrenamed).trans hposted).trans (.of_eq rfl rfl)

theorem Keeps.observed (h : Keeps P options registry id rows log)
    (hobserved : Observed registry next id) :
    Keeps P options next id rows log := by
  obtain ⟨record, hget, hid, hwhole, hchained⟩ := h.held
  obtain ⟨observation, hnext⟩ := hobserved.2 record hget
  have hsame : SameHistory record { record with observation } :=
    ⟨sameLog_observation record observation, rfl⟩
  refine ⟨_, hnext, hid, ?_, hchained.sameHistory hsame⟩
  rw [← hwhole, fullHistory, fullHistory, Registry.pending, Registry.pending, hobserved.1]

/-! ## The call -/

/-- Nothing but the mark for the next save is different. -/
def Unchanged (registry next : Registry) : Prop := { next with dirty := registry.dirty } = registry

theorem Unchanged.refl (registry : Registry) : Unchanged registry registry := rfl

theorem Unchanged.touch (registry : Registry) (id : JsString) :
    Unchanged registry (registry.touch id) := rfl

theorem Unchanged.trans {third : Registry} (h : Unchanged registry next)
    (h' : Unchanged next third) : Unchanged registry third := by
  rw [Unchanged] at h h' ⊢
  rw [← h'] at h
  exact h

theorem Unchanged.keeps (h : Unchanged registry next)
    (hkeeps : Keeps P options registry id rows log) : Keeps P options next id rows log := by
  rw [Unchanged] at h
  rw [← h] at hkeeps
  apply hkeeps.observed
  exact .of_eq rfl rfl

theorem requireMutable_unchanged (registry : Registry) (id : JsString) :
    Unchanged registry (requireMutable registry id).1 := by
  rw [requireMutable, requireInState]
  split
  · exact .refl registry
  · split
    · exact .touch registry id
    · exact .touch registry id

/-- A call that throws has changed nothing. -/
theorem appendMutation_error {mutation : PendingMutation} {capturedAtWallMs : Option Int}
    {clock : Nat → Int} {uuid : JsString} {thrown : JsError}
    (h : (appendMutation P options registry id mutation capturedAtWallMs clock uuid).2 =
      .error thrown) :
    Unchanged registry
      (appendMutation P options registry id mutation capturedAtWallMs clock uuid).1 := by
  rw [appendMutation] at h ⊢
  split
  · exact .refl registry
  · rename_i hallowed
    rw [if_neg hallowed] at h
    have hrequired := requireMutable_unchanged registry id
    generalize requireMutable registry id = required at h hrequired
    obtain ⟨next, result⟩ := required
    cases result with
    | error _ => exact hrequired
    | ok record =>
        simp only at h ⊢
        split at h
        · exact hrequired
        · cases h

theorem Keeps.accept (h : Keeps P options registry id rows log)
    (hget : registry.get id = some record) {mutation : PendingMutation} {now : Int}
    {event : BufferMutation} {tip : B3Hash}
    (hnext : nextEvent P options (registry.pending id) record mutation now = .ok (event, tip)) :
    Keeps P options (acceptEvent options registry id record event tip now) id rows
      (log ++ [event]) := by
  obtain ⟨found, hfound, hid, hwhole, hchained⟩ := h.held
  rw [hget] at hfound
  obtain rfl := Option.some.inj hfound
  have hfields := Chained.recordEvent_fields options record event tip now
  have hid' : (recordEvent options record event tip now).sessionId = id :=
    hfields.log.sessionId.trans hid
  rw [fullHistory] at hwhole
  refine ⟨_, get_acceptEvent options registry id record event tip now, hid', ?_, ?_⟩
  · rw [fullHistory, acceptEvent]
    cases hjournal : options.journal with
    | true =>
        rw [hjournal, hid] at hwhole
        simp only [↓reduceIte, Registry.pending, Registry.put, hid',
          OrderedMap.get?_set_self, Option.getD_some] at hwhole ⊢
        rw [← hwhole, List.append_assoc]
    | false =>
        have hevents : (recordEvent options record event tip now).events =
            record.events ++ [event] := by
          rw [hfields.events, hjournal]
          rfl
        rw [hjournal] at hwhole
        show (recordEvent options record event tip now).events = log ++ [event]
        rw [hevents]
        exact congrArg (· ++ [event]) hwhole
  · apply hchained.accept _ hnext
    intro hjournal
    rw [hjournal] at hwhole
    exact hwhole

/-- A call that succeeds extends the history by its event. -/
theorem appendMutation_keeps {mutation : PendingMutation} {capturedAtWallMs : Option Int}
    {clock : Nat → Int} {uuid : JsString} {event : BufferMutation}
    (hkeeps : Keeps P options registry id rows log)
    (h : (appendMutation P options registry id mutation capturedAtWallMs clock uuid).2 =
      .ok event) :
    Keeps P options (appendMutation P options registry id mutation capturedAtWallMs clock uuid).1
      id rows (log ++ [event]) := by
  rw [appendMutation] at h ⊢
  split
  · rename_i hnot
    rw [if_pos hnot] at h
    cases h
  rename_i hallowed
  rw [if_neg hallowed] at h
  cases hrequired : requireMutable registry id with
  | mk next result =>
      rw [hrequired] at h
      cases result with
      | error thrown => cases h
      | ok record =>
          obtain ⟨rfl, hget, -⟩ := requireInState_ok hrequired
          simp only at h ⊢
          split at h
          · cases h
          rename_i built tip hnext
          obtain rfl := Except.ok.inj h
          have htouched : Keeps P options (registry.touch id) id rows log :=
            hkeeps.observed (.of_eq rfl rfl)
          apply (htouched.accept hget hnext).observed
          apply maybeTriggerCheckpoint_observed
          exact get_acceptEvent options (registry.touch id) id record _ tip _

theorem recordUnrecordedChange_error {clock : Nat → Int} {uuid : JsString} {thrown : JsError}
    (h : (recordUnrecordedChange P options registry id clock uuid).2 = .error thrown) :
    Unchanged registry (recordUnrecordedChange P options registry id clock uuid).1 := by
  rw [recordUnrecordedChange] at h ⊢
  have hrequired := requireMutable_unchanged registry id
  generalize requireMutable registry id = required at h hrequired
  obtain ⟨next, result⟩ := required
  cases result with
  | error _ => exact hrequired
  | ok record => exact hrequired.trans (appendMutation_error h)

theorem recordUnrecordedChange_keeps {clock : Nat → Int} {uuid : JsString}
    {event : BufferMutation} (hkeeps : Keeps P options registry id rows log)
    (h : (recordUnrecordedChange P options registry id clock uuid).2 = .ok event) :
    Keeps P options (recordUnrecordedChange P options registry id clock uuid).1 id rows
      (log ++ [event]) := by
  rw [recordUnrecordedChange] at h ⊢
  cases hrequired : requireMutable registry id with
  | mk next result =>
      rw [hrequired] at h
      cases result with
      | error thrown => cases h
      | ok record =>
          obtain ⟨rfl, -, -⟩ := requireInState_ok hrequired
          exact appendMutation_keeps (hkeeps.observed (.of_eq rfl rfl)) h

/-! ## The life of a session -/

/-- A registry over the life of one of its sessions, with the rows that are stored of it,
its history and its last saved metadata.  A process that ends loses what is not saved. -/
inductive Lifetime (P : Platform) (options : RegistryOptions) (id : JsString) :
    Registry → List BufferMutation → List BufferMutation → Option SessionRecord → Prop where
  | start {registry : Registry} {rows log : List BufferMutation}
      (keeps : Keeps P options registry id rows log) : Lifetime P options id registry rows log none
  | appended {registry : Registry} {rows log : List BufferMutation} {stored : Option SessionRecord}
      (before : Lifetime P options id registry rows log stored) (mutation : PendingMutation)
      (capturedAtWallMs : Option Int) (clock : Nat → Int) (uuid : JsString)
      {event : BufferMutation} {next : Registry}
      (call : appendMutation P options registry id mutation capturedAtWallMs clock uuid =
        (next, .ok event)) : Lifetime P options id next rows (log ++ [event]) stored
  | thrown {registry : Registry} {rows log : List BufferMutation} {stored : Option SessionRecord}
      (before : Lifetime P options id registry rows log stored) (mutation : PendingMutation)
      (capturedAtWallMs : Option Int) (clock : Nat → Int) (uuid : JsString)
      {reason : JsError} {next : Registry}
      (call : appendMutation P options registry id mutation capturedAtWallMs clock uuid =
        (next, .error reason)) : Lifetime P options id next rows log stored
  /-- Any other call: `sign`, `resume`, a checkpoint and its answer. -/
  | left {registry next : Registry} {rows log : List BufferMutation}
      {stored : Option SessionRecord} {record later : SessionRecord}
      (before : Lifetime P options id registry rows log stored)
      (held : registry.get id = some record) (holds : next.get id = some later)
      (same : SameHistory record later) (queued : next.pending id = registry.pending id) :
      Lifetime P options id next rows log stored
  | saved {registry next : Registry} {rows log : List BufferMutation}
      {stored : Option SessionRecord} {record later : SessionRecord}
      (before : Lifetime P options id registry rows log stored)
      (held : registry.get id = some record) (holds : next.get id = some later)
      (same : SameHistory record later) (emptied : next.pending id = []) :
      Lifetime P options id next log log (some record)
  | reloaded {registry empty : Registry} {rows log : List BufferMutation}
      {session loaded : SessionRecord}
      (before : Lifetime P options id registry rows log (some session))
      (snapshot : List SessionRecord)
      (only : ∀ stored ∈ snapshot, stored.sessionId = id → stored = session)
      (holds : (load empty snapshot).get id = some loaded) :
      Lifetime P options id (load empty snapshot) rows rows (some session)

theorem normaliseLoadedRecord_sameHistory (objectId : Nat) (record : SessionRecord) :
    SameHistory record (normaliseLoadedRecord objectId record) :=
  ⟨World.normaliseLoadedRecord_sameLog objectId record, rfl⟩

/-- Over its whole life a session describes its history, and its last save describes the
stored rows. -/
theorem Lifetime.keeps {stored : Option SessionRecord}
    (h : Lifetime P options id registry rows log stored) :
    Keeps P options registry id rows log ∧ ∀ session ∈ stored, session.sessionId = id ∧
      Chained P options session rows ∧ (options.journal = false → session.events = rows) := by
  induction h with
  | start hkeeps =>
      refine ⟨hkeeps, ?_⟩
      intro session hsession
      cases hsession
  | appended _ mutation capturedAtWallMs clock uuid call ih =>
      refine ⟨?_, ih.2⟩
      have happended := @appendMutation_keeps _ _ _ _ _ _ mutation capturedAtWallMs clock uuid _
        ih.1 (congrArg Prod.snd call)
      rwa [call] at happended
  | thrown _ mutation capturedAtWallMs clock uuid call ih =>
      refine ⟨?_, ih.2⟩
      have hthrown := appendMutation_error (congrArg Prod.snd call)
      rw [call] at hthrown
      exact hthrown.keeps ih.1
  | left _ held holds same queued ih =>
      refine ⟨?_, ih.2⟩
      obtain ⟨record, hget, hid, hwhole, hchained⟩ := ih.1.held
      rw [held] at hget
      obtain rfl := Option.some.inj hget
      refine ⟨_, holds, same.log.sessionId.trans hid, ?_, hchained.sameHistory same⟩
      rw [← hwhole, fullHistory, fullHistory, same.log.sessionId, same.events, hid, queued]
  | saved _ held holds same emptied ih =>
      obtain ⟨record, hget, hid, hwhole, hchained⟩ := ih.1.held
      rw [held] at hget
      obtain rfl := Option.some.inj hget
      rw [fullHistory] at hwhole
      refine ⟨⟨_, holds, same.log.sessionId.trans hid, ?_, hchained.sameHistory same⟩, ?_⟩
      · rw [fullHistory, same.log.sessionId, same.events, hid, emptied]
        cases hjournal : options.journal with
        | true => exact List.append_nil _
        | false =>
            rw [hjournal] at hwhole
            exact hwhole
      · rintro session ⟨⟩
        refine ⟨hid, hchained, ?_⟩
        intro hjournal
        rw [hjournal] at hwhole
        exact hwhole
  | @reloaded registry empty rows log session loaded _ snapshot only holds ih =>
      obtain ⟨hid, hchained, hevents⟩ := ih.2 session rfl
      refine ⟨?_, ih.2⟩
      obtain ⟨stored, hstored, hkey, objectId, rfl⟩ := get_load holds
      obtain rfl := only stored hstored hkey
      have hsame := normaliseLoadedRecord_sameHistory objectId stored
      refine ⟨_, holds, hid, ?_, hchained.sameHistory hsame⟩
      rw [fullHistory]
      cases hjournal : options.journal with
      | true =>
          have hpending : (load empty snapshot).pendingEvents = ∅ := (World.loadAll_eq _ _).1
          rw [if_pos rfl, Registry.pending, hpending]
          exact List.append_nil _
      | false => exact hevents hjournal

/-- A call that throws changes nothing but the mark for the next save, and a call that
succeeds extends a history that is a valid log with its hash chain, which sessions keep
over their whole life. -/
theorem appendMutation_atomic (P : Platform) (options : RegistryOptions) (id : JsString) :
    (∀ registry mutation capturedAtWallMs clock uuid,
      (∀ thrown, (appendMutation P options registry id mutation capturedAtWallMs clock uuid).2 =
          .error thrown →
        Unchanged registry
          (appendMutation P options registry id mutation capturedAtWallMs clock uuid).1) ∧
      ∀ event rows log,
        (appendMutation P options registry id mutation capturedAtWallMs clock uuid).2 = .ok event →
        Keeps P options registry id rows log →
        Keeps P options
          (appendMutation P options registry id mutation capturedAtWallMs clock uuid).1 id rows
          (log ++ [event])) ∧
    (∀ registry clock uuid,
      (∀ thrown, (recordUnrecordedChange P options registry id clock uuid).2 = .error thrown →
        Unchanged registry (recordUnrecordedChange P options registry id clock uuid).1) ∧
      ∀ event rows log,
        (recordUnrecordedChange P options registry id clock uuid).2 = .ok event →
        Keeps P options registry id rows log →
        Keeps P options (recordUnrecordedChange P options registry id clock uuid).1 id rows
          (log ++ [event])) ∧
    ∀ registry rows log stored, Lifetime P options id registry rows log stored →
      Keeps P options registry id rows log := by
  refine ⟨?_, ?_, fun registry rows log stored h => h.keeps.1⟩
  · intro registry mutation capturedAtWallMs clock uuid
    exact ⟨fun thrown h => appendMutation_error h,
      fun event rows log h hkeeps => appendMutation_keeps hkeeps h⟩
  · intro registry clock uuid
    exact ⟨fun thrown h => recordUnrecordedChange_error h,
      fun event rows log h hkeeps => recordUnrecordedChange_keeps hkeeps h⟩

/-- A session without events, over a journal. -/
def openedRegistry : Registry :=
  insertNew .empty (newRecord World.exampleOptions 0 World.exampleSession
    ⟨js "https://example.test", js "/", 1, 0⟩
    ⟨.textarea, js "textarea", none, none, none, none, js "body", 0⟩ (js "textarea") .fresh
    1700000000000 1700000000000 false none)

def typedMutation : PendingMutation :=
  ⟨.insert, some (.ofNat 0), some (.ofNat 0), some (.ofNat 1), .typing⟩

/-- A letter is typed although the clock has gone back since the session was opened. -/
def typedInto (registry : Registry) (mutation : PendingMutation) :
    Registry × Except JsError BufferMutation :=
  appendMutation .standard World.exampleOptions registry World.exampleSession mutation none
    (fun _ => 1600000000000) World.spareUuid

/-- The session after one event that has been saved and one that is still queued. -/
def queuedRegistry : Registry :=
  (typedInto { (typedInto openedRegistry typedMutation).1 with pendingEvents := ∅ }
    typedMutation).1

theorem queuedRegistry_lifetime : ∃ first second stored,
    Lifetime .standard World.exampleOptions World.exampleSession queuedRegistry [first]
      [first, second] stored := by
  have hopened :
      Keeps .standard World.exampleOptions openedRegistry World.exampleSession [] [] := by
    refine ⟨_, rfl, rfl, rfl, ⟨validLog_nil, rfl, rfl, rfl, fun hne => absurd rfl hne⟩⟩
  have haccepted : ((typedInto openedRegistry typedMutation).2.toOption.isSome &&
      (typedInto { (typedInto openedRegistry typedMutation).1 with pendingEvents := ∅ }
        typedMutation).2.toOption.isSome) = true := by
    decide +kernel
  rw [Bool.and_eq_true] at haccepted
  cases hfirst : typedInto openedRegistry typedMutation with
  | mk registry result =>
      rw [hfirst] at haccepted
      cases result with
      | error thrown => cases haccepted.1
      | ok first =>
          have hone : Lifetime .standard World.exampleOptions World.exampleSession registry []
              ([] ++ [first]) none := .appended (.start hopened) _ _ _ _ hfirst
          obtain ⟨record, hget, -⟩ := hone.keeps.1.held
          have hsaved : Lifetime .standard World.exampleOptions World.exampleSession
              { registry with pendingEvents := ∅ } [first] [first] (some record) :=
            .saved hone hget hget (.refl record) rfl
          cases hsecond : typedInto { registry with pendingEvents := ∅ } typedMutation with
          | mk next result =>
              rw [hsecond] at haccepted
              cases result with
              | error thrown => cases haccepted.2
              | ok second =>
                  refine ⟨first, second, some record, ?_⟩
                  rw [queuedRegistry, hfirst, hsecond]
                  exact .appended hsaved _ _ _ _ hsecond

/-- A third letter joins a stored and a queued one, and an insertion that inserts nothing
leaves all as it is. -/
theorem appendMutation_atomic_typed : ∃ first second third,
    (queuedRegistry.pending World.exampleSession).length = 1 ∧
    (typedInto queuedRegistry typedMutation).2 = .ok third ∧
    Keeps .standard World.exampleOptions (typedInto queuedRegistry typedMutation).1
      World.exampleSession [first] [first, second, third] ∧
    Unchanged queuedRegistry
      (typedInto queuedRegistry { typedMutation with insLen := some (.ofNat 0) }).1 := by
  obtain ⟨first, second, stored, hlifetime⟩ := queuedRegistry_lifetime
  have hkeeps := (appendMutation_atomic .standard World.exampleOptions
    World.exampleSession).2.2 queuedRegistry [first] [first, second] stored hlifetime
  have haccepted : ((typedInto queuedRegistry typedMutation).2.toOption.isSome &&
      !(typedInto queuedRegistry
        { typedMutation with insLen := some (.ofNat 0) }).2.toOption.isSome) = true := by
    decide +kernel
  rw [Bool.and_eq_true] at haccepted
  have hcalls := fun mutation => (appendMutation_atomic .standard World.exampleOptions
    World.exampleSession).1 queuedRegistry mutation none (fun _ => 1600000000000) World.spareUuid
  cases hthird : (typedInto queuedRegistry typedMutation).2 with
  | error thrown =>
      rw [hthird] at haccepted
      cases haccepted.1
  | ok third =>
      cases hrefused : (typedInto queuedRegistry
          { typedMutation with insLen := some (.ofNat 0) }).2 with
      | error thrown =>
          exact ⟨first, second, third, by decide +kernel, rfl,
            (hcalls typedMutation).2 third [first] [first, second] hthird hkeeps,
            (hcalls _).1 thrown hrefused⟩
      | ok event =>
          rw [hrefused] at haccepted
          cases haccepted.2

end Pmbah.Producer
