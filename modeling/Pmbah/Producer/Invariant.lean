import Pmbah.Producer.Durable

/-!
# The invariant of a registry over its journal

Which rows storage has of a session, which events still wait in a queue and what
the session says its log is agree at every `await`: for the sessions in the
registry and for those that a `discardPersisted` may still restore.
-/

namespace Pmbah.Producer

open Js Format Library

namespace World

variable {P : Platform} {options : RegistryOptions} {world next : World}

/-! ## Definitions -/

/-- The commit that the registry waits for appends these events. -/
def InFlight (world : World) (change : JournalAppend) : Prop :=
  ∃ save ∈ world.drain.save?, change ∈ save.batch.appends

/-- The events are stored, and `#persistJournal` has not gone on yet. -/
def Landed (world : World) (change : JournalAppend) : Prop :=
  ∃ save, world.drain = .settled save true ∧ change ∈ save.batch.appends

/-- The commit that the registry waits for deletes the session. -/
def Deleting (world : World) (id : JsString) : Prop :=
  ∃ save ∈ world.drain.save?, id ∈ save.batch.deleted

/-- The commit that the registry waits for clears the events of the session. -/
def Clearing (world : World) (id : JsString) : Prop :=
  ∃ save ∈ world.drain.save?, id ∈ save.batch.clearEvents

/-- No commit has taken the deletion of the session to storage. -/
def Recoverable (world : World) (id : JsString) : Prop :=
  id ∈ world.registry.deleted ∨
    (world.Deleting id ∧ ∀ save, world.drain ≠ .settled save true)

/-- A session that the registry keeps, or that a `discardPersisted` may restore,
with its queue. -/
inductive Held (world : World) : SessionRecord → List BufferMutation → Prop where
  | live {id : JsString} {record : SessionRecord} (hget : world.registry.get id = some record) :
      Held world record (world.registry.pending id)
  | detached {task promise : Nat} {pending : List (JsString × Option (List BufferMutation))}
      {removed : List SessionRecord} {record : SessionRecord}
      (htask : world.discards.get? task = some (.deleting promise pending removed))
      (hrecord : record ∈ removed) (hback : world.Recoverable record.sessionId) :
      Held world record ((captured pending record.sessionId).getD [])

/-- The stored rows begin the log of the session, its queue ends it, no event is in
neither, and none is in both unless storage has taken it since. -/
structure Placed (P : Platform) (world : World) (record : SessionRecord)
    (queue : List BufferMutation) : Prop where
  describes : Describes P record (world.accepted record.sessionId)
  rows : world.store.events record.sessionId <+: world.accepted record.sessionId
  ends : queue <:+ world.accepted record.sessionId
  covers : (world.accepted record.sessionId).length ≤
    (world.store.events record.sessionId).length + queue.length
  balanced : record.sessionId ∉ world.landed →
    (world.store.events record.sessionId).length + queue.length =
      (world.accepted record.sessionId).length
  landed : ∀ change, world.Landed change → change.sessionId = record.sessionId →
    (world.store.events record.sessionId).length + queue.length =
      (world.accepted record.sessionId).length + change.events.length
  inFlight : ∀ change, world.InFlight change → change.sessionId = record.sessionId →
    change.events <+: queue

/-- What a save under way relies on. -/
structure SaveSound (P : Platform) (world : World) (save : Save) : Prop where
  distinct : save.batch.Distinct
  durable : world.drain = .committing save →
    ∀ store, world.store.Committed save.batch store → Durable P store
  appends : ∀ change ∈ save.batch.appends,
    change.events ≠ [] ∧ change.sessionId ∉ save.batch.deleted ∧
      change.sessionId ∈ save.batch.sessions.map SessionRecord.sessionId
  cleared : ∀ id ∈ save.batch.clearEvents, id ∈ save.batch.deleted ∨
    (id ∈ save.ids ∧ ((world.registry.get id).isSome = true ∨ id ∈ world.registry.deleted))

/-- What a `discardPersisted` has detached. -/
structure Detached (world : World) (removed : List SessionRecord) : Prop where
  distinct : (removed.map SessionRecord.sessionId).Nodup
  gone : ∀ record ∈ removed, world.registry.get record.sessionId = none
  once : ∀ record ∈ removed, record.sessionId ∈ world.registry.deleted →
    ¬ world.Deleting record.sessionId

structure Inv (P : Platform) (world : World) : Prop where
  keyed : Keyed world.registry
  queued : ∀ id, world.registry.get id = none → world.registry.pendingEvents.get? id = none
  durable : Durable P world.store
  kept : ∀ id record, world.registry.get id = some record →
    id ∉ world.registry.deleted ∧ ¬ world.Deleting id
  placed : ∀ record queue, world.Held record queue → record.continuationAnchor = false →
    Placed P world record queue
  anchored : ∀ record queue, world.Held record queue →
    record.sessionId ∈ world.registry.clearEvents ∨ world.Clearing record.sessionId →
      record.continuationAnchor = true
  clear : ∀ id ∈ world.registry.clearEvents, id ∈ world.registry.deleted ∨
    (id ∈ world.registry.dirty ∧ (world.registry.get id).isSome = true)
  save : ∀ save ∈ world.drain.save?, SaveSound P world save
  detached : ∀ task promise pending removed,
    world.discards.get? task = some (.deleting promise pending removed) →
      Detached world removed
  apart : ∀ task promise pending removed task' promise' pending' removed',
    world.discards.get? task = some (.deleting promise pending removed) →
    world.discards.get? task' = some (.deleting promise' pending' removed') → task ≠ task' →
      ∀ record ∈ removed, ∀ record' ∈ removed', record.sessionId ≠ record'.sessionId

/-! ## Changes that the journal does not notice -/

/-- The worlds differ in what the invariant does not look at. -/
structure Frame (world next : World) : Prop where
  registry : SameJournal world.registry next.registry
  store : next.store = world.store
  drain : next.drain = world.drain
  accepted : next.accepted = world.accepted
  landedIds : next.landed = world.landed
  discards : ∀ task promise pending removed,
    next.discards.get? task = some (.deleting promise pending removed) →
      world.discards.get? task = some (.deleting promise pending removed)

namespace Frame

theorem inFlight (h : Frame world next) : next.InFlight = world.InFlight := by
  funext change
  rw [InFlight, InFlight, h.drain]

theorem landed (h : Frame world next) : next.Landed = world.Landed := by
  funext change
  rw [Landed, Landed, h.drain]

theorem deleting (h : Frame world next) : next.Deleting = world.Deleting := by
  funext id
  rw [Deleting, Deleting, h.drain]

theorem clearing (h : Frame world next) : next.Clearing = world.Clearing := by
  funext id
  rw [Clearing, Clearing, h.drain]

theorem recoverable (h : Frame world next) : next.Recoverable = world.Recoverable := by
  funext id
  rw [Recoverable, Recoverable, h.deleting, h.drain, h.registry.deleted]

theorem pending (h : Frame world next) (id : JsString) :
    next.registry.pending id = world.registry.pending id := by
  rw [Registry.pending, Registry.pending, h.registry.pendingEvents]

theorem held (h : Frame world next) {record : SessionRecord} {queue : List BufferMutation}
    (hheld : next.Held record queue) :
    ∃ earlier, world.Held earlier queue ∧ SameLog earlier record := by
  cases hheld with
  | @live id record hget =>
      obtain ⟨earlier, hearlier, hsame⟩ := h.registry.get_some' hget
      rw [h.pending]
      exact ⟨earlier, .live hearlier, hsame⟩
  | detached htask hrecord hback =>
      rw [h.recoverable] at hback
      exact ⟨record, .detached (h.discards _ _ _ _ htask) hrecord hback, .refl record⟩

theorem isSome_get (h : Frame world next) (id : JsString) :
    (next.registry.get id).isSome = (world.registry.get id).isSome := by
  have hrel := h.registry.get id
  revert hrel
  generalize next.registry.get id = later
  generalize world.registry.get id = earlier
  intro hrel
  cases hrel with
  | none => rfl
  | some _ => rfl

theorem placed (h : Frame world next) {earlier record : SessionRecord}
    {queue : List BufferMutation} (hsame : SameLog earlier record)
    (hplaced : Placed P world earlier queue) : Placed P next record queue := by
  have hid := hsame.sessionId
  refine ⟨?_, ?_, ?_, ?_, ?_, ?_, ?_⟩
  · rw [h.accepted, hid]
    exact hplaced.describes.sameLog hsame
  · rw [h.accepted, h.store, hid]
    exact hplaced.rows
  · rw [h.accepted, hid]
    exact hplaced.ends
  · rw [h.accepted, h.store, hid]
    exact hplaced.covers
  · rw [h.accepted, h.store, h.landedIds, hid]
    exact hplaced.balanced
  · rw [h.accepted, h.store, h.landed, hid]
    exact hplaced.landed
  · rw [h.inFlight, hid]
    exact hplaced.inFlight

theorem get_none (h : Frame world next) {id : JsString} :
    next.registry.get id = none ↔ world.registry.get id = none := by
  rw [← Option.isNone_iff_eq_none, ← Option.isNone_iff_eq_none, ← Option.not_isSome,
    ← Option.not_isSome, h.isSome_get]

theorem inv (h : Frame world next) (hinv : Inv P world) : Inv P next where
  keyed id record hget := by
    obtain ⟨earlier, hearlier, hsame⟩ := h.registry.get_some' hget
    rw [hsame.sessionId]
    exact hinv.keyed id earlier hearlier
  queued id hget := by
    rw [h.registry.pendingEvents]
    exact hinv.queued id (h.get_none.1 hget)
  durable := by
    rw [h.store]
    exact hinv.durable
  kept id record hget := by
    obtain ⟨earlier, hearlier, -⟩ := h.registry.get_some' hget
    rw [h.registry.deleted, h.deleting]
    exact hinv.kept id earlier hearlier
  placed record queue hheld hanchor := by
    obtain ⟨earlier, hearlier, hsame⟩ := h.held hheld
    exact h.placed hsame (hinv.placed earlier queue hearlier (hsame.anchor ▸ hanchor))
  anchored record queue hheld hclear := by
    obtain ⟨earlier, hearlier, hsame⟩ := h.held hheld
    rw [hsame.sessionId, h.registry.clearEvents, h.clearing] at hclear
    exact hsame.anchor.trans (hinv.anchored earlier queue hearlier hclear)
  clear id hid := by
    rw [h.registry.clearEvents] at hid
    rw [h.registry.deleted, h.isSome_get]
    exact (hinv.clear id hid).imp_right (And.imp_left (h.registry.dirty id))
  save save hsave := by
    rw [h.drain] at hsave
    have hsound := hinv.save save hsave
    refine ⟨hsound.distinct, ?_, hsound.appends, ?_⟩
    · rw [h.drain, h.store]
      exact hsound.durable
    · intro id hid
      rw [h.isSome_get, h.registry.deleted]
      exact hsound.cleared id hid
  detached task promise pending removed htask := by
    have hdetached := hinv.detached task promise pending removed (h.discards _ _ _ _ htask)
    refine ⟨hdetached.distinct, ?_, ?_⟩
    · exact fun record hrecord => h.get_none.2 (hdetached.gone record hrecord)
    · rw [h.registry.deleted, h.deleting]
      exact hdetached.once
  apart task promise pending removed task' promise' pending' removed' htask htask' :=
    hinv.apart task promise pending removed task' promise' pending' removed'
      (h.discards _ _ _ _ htask) (h.discards _ _ _ _ htask')

end Frame

/-! ## Edits -/

def recordAll (accepted : JsString → List BufferMutation)
    (events : List (JsString × BufferMutation)) : JsString → List BufferMutation :=
  events.foldl (fun accepted event => record accepted (some event)) accepted

/-- The world after a change of the registry that accepts some events. -/
def edited (world : World) (registry : Registry) (events : List (JsString × BufferMutation)) :
    World :=
  { world with registry, accepted := recordAll world.accepted events }

theorem acceptEvent_journal (hjournal : options.journal = true) (registry : Registry)
    (id : JsString) (record : SessionRecord) (event : BufferMutation) (tip : B3Hash)
    (now : Int) :
    acceptEvent options registry id record event tip now =
      { registry with
        sessions := registry.sessions.set id (recordEvent options record event tip now)
        pendingEvents :=
          registry.pendingEvents.set id (registry.pending id ++ [event]) } := by
  unfold acceptEvent
  simp only [hjournal, if_true]
  rfl

theorem recordEvent_sessionId (options : RegistryOptions) (record : SessionRecord)
    (event : BufferMutation) (tip : B3Hash) (now : Int) :
    (recordEvent options record event tip now).sessionId = record.sessionId := by
  unfold recordEvent recomputeObservationState
  simp only
  split
  · rfl
  · rfl

theorem recordEvent_continuationAnchor (options : RegistryOptions) (record : SessionRecord)
    (event : BufferMutation) (tip : B3Hash) (now : Int) :
    (recordEvent options record event tip now).continuationAnchor =
      record.continuationAnchor := by
  unfold recordEvent recomputeObservationState
  simp only
  split
  · rfl
  · rfl

/-- The session that an event is accepted for, and the others. -/
theorem get_accepted (hjournal : options.journal = true) (registry : Registry)
    (id other : JsString) (record : SessionRecord) (event : BufferMutation) (tip : B3Hash)
    (now : Int) :
    (acceptEvent options registry id record event tip now).get other =
      if other = id then some (recordEvent options record event tip now)
      else registry.get other := by
  rw [acceptEvent_journal hjournal, Registry.get]
  exact OrderedMap.get?_set _ _ _ _

theorem pending_accepted (hjournal : options.journal = true) (registry : Registry)
    (id other : JsString) (record : SessionRecord) (event : BufferMutation) (tip : B3Hash)
    (now : Int) :
    (acceptEvent options registry id record event tip now).pending other =
      if other = id then registry.pending id ++ [event] else registry.pending other := by
  rw [acceptEvent_journal hjournal, Registry.pending]
  simp only [OrderedMap.get?_set]
  split
  · rfl
  · rfl

theorem isSome_get_accepted (hjournal : options.journal = true) {registry : Registry}
    {id : JsString} (other : JsString) {record : SessionRecord} (event : BufferMutation)
    (tip : B3Hash) (now : Int) (hget : registry.get id = some record) :
    ((acceptEvent options registry id record event tip now).get other).isSome =
      (registry.get other).isSome := by
  rw [get_accepted hjournal]
  split
  · rename_i heq
    rw [heq, hget]
    rfl
  · rfl

/-- An accepted event extends the log and the queue of its session. -/
theorem Placed.accept (hjournal : options.journal = true) {record : SessionRecord}
    {queue : List BufferMutation} (h : Placed P world record queue)
    {mutation : PendingMutation} {now : Int} {event : BufferMutation} {tip : B3Hash}
    (hnext : nextEvent P options queue record mutation now = .ok (event, tip))
    {registry : Registry} :
    Placed P (world.edited registry [(record.sessionId, event)])
      (recordEvent options record event tip now) (queue ++ [event]) := by
  have hlog : (world.edited registry [(record.sessionId, event)]).accepted record.sessionId =
      world.accepted record.sessionId ++ [event] := Function.update_self _ _ _
  have hid := recordEvent_sessionId options record event tip now
  refine ⟨?_, ?_, ?_, ?_, ?_, ?_, ?_⟩
  · rw [hid, hlog]
    exact h.describes.accept hjournal hnext
  · rw [hid, hlog]
    exact h.rows.trans (List.prefix_append _ _)
  · rw [hid, hlog]
    obtain ⟨front, hfront⟩ := h.ends
    exact ⟨front, by rw [← List.append_assoc, hfront]⟩
  · rw [hid, hlog, List.length_append, List.length_append, ← Nat.add_assoc]
    exact Nat.add_le_add_right h.covers _
  · intro hlanded
    rw [hid] at hlanded
    rw [hid, hlog, List.length_append, List.length_append, ← Nat.add_assoc]
    exact congrArg (· + 1) (h.balanced hlanded)
  · intro change hchange hsession
    rw [hid] at hsession
    have := h.landed change hchange hsession
    rw [hid, hlog, List.length_append, List.length_append]
    show (world.store.events record.sessionId).length + _ = _
    omega
  · intro change hchange hsession
    rw [hid] at hsession
    exact (h.inFlight change hchange hsession).trans (List.prefix_append _ _)

/-- A session whose log and place are left alone stays placed. -/
theorem Placed.elsewhere {record : SessionRecord} {queue : List BufferMutation}
    (h : Placed P world record queue) (hstore : next.store = world.store)
    (hdrain : next.drain = world.drain)
    (haccepted : next.accepted record.sessionId = world.accepted record.sessionId)
    (hids : record.sessionId ∉ next.landed → record.sessionId ∉ world.landed) :
    Placed P next record queue := by
  have hlanded : next.Landed = world.Landed := by
    funext change
    rw [Landed, Landed, hdrain]
  have hflight : next.InFlight = world.InFlight := by
    funext change
    rw [InFlight, InFlight, hdrain]
  refine ⟨?_, ?_, ?_, ?_, ?_, ?_, ?_⟩
  · rw [haccepted]
    exact h.describes
  · rw [haccepted, hstore]
    exact h.rows
  · rw [haccepted]
    exact h.ends
  · rw [haccepted, hstore]
    exact h.covers
  · rw [haccepted, hstore]
    exact fun hmem => h.balanced (hids hmem)
  · rw [haccepted, hstore, hlanded]
    exact h.landed
  · rw [hflight]
    exact h.inFlight

/-- A change of the registry and of the logs that leaves alone what storage and
the calls under way have. -/
structure Change (P : Platform) (world : World) (registry : Registry)
    (accepted : JsString → List BufferMutation) : Prop where
  keyed : Keyed registry
  queued : ∀ id, registry.get id = none → registry.pendingEvents.get? id = none
  kept : ∀ id record, registry.get id = some record →
    id ∉ registry.deleted ∧ ¬ world.Deleting id
  placed : ∀ id record, registry.get id = some record → record.continuationAnchor = false →
    Placed P { world with registry, accepted } record (registry.pending id)
  anchored : ∀ id record, registry.get id = some record →
    id ∈ registry.clearEvents ∨ world.Clearing id → record.continuationAnchor = true
  clear : ∀ id ∈ registry.clearEvents, id ∈ registry.deleted ∨
    (id ∈ registry.dirty ∧ (registry.get id).isSome = true)
  deleted : ∀ id ∈ registry.deleted, id ∈ world.registry.deleted ∨
    (world.registry.get id).isSome = true
  still : ∀ id, (world.registry.get id).isSome = true ∨ id ∈ world.registry.deleted →
    (registry.get id).isSome = true ∨ id ∈ registry.deleted
  detached : ∀ task promise pending removed,
    world.discards.get? task = some (.deleting promise pending removed) →
      ∀ record ∈ removed, registry.get record.sessionId = none ∧
        accepted record.sessionId = world.accepted record.sessionId ∧
        (record.sessionId ∈ registry.clearEvents →
          record.sessionId ∈ world.registry.clearEvents)

namespace Change

variable {registry : Registry} {accepted : JsString → List BufferMutation}

theorem recoverable (h : Change P world registry accepted) (hinv : Inv P world)
    {task promise : Nat} {pending : List (JsString × Option (List BufferMutation))}
    {removed : List SessionRecord} {record : SessionRecord}
    (htask : world.discards.get? task = some (.deleting promise pending removed))
    (hrecord : record ∈ removed)
    (hback : World.Recoverable { world with registry, accepted } record.sessionId) :
    world.Recoverable record.sessionId := by
  rcases hback with hdeleted | htaken
  · rcases h.deleted _ hdeleted with hold | hlive
    · exact Or.inl hold
    · rw [(hinv.detached _ _ _ _ htask).gone record hrecord] at hlive
      cases hlive
  · exact Or.inr htaken

theorem inv (h : Change P world registry accepted) (hinv : Inv P world) :
    Inv P { world with registry, accepted } where
  keyed := h.keyed
  queued := h.queued
  durable := hinv.durable
  kept := h.kept
  placed record queue hheld hanchor := by
    cases hheld with
    | live hget => exact h.placed _ record hget hanchor
    | detached htask hrecord hback =>
        have hold := hinv.placed record _
          (.detached htask hrecord (h.recoverable hinv htask hrecord hback)) hanchor
        refine hold.elsewhere rfl rfl ?_ fun h => h
        exact (h.detached _ _ _ _ htask record hrecord).2.1
  anchored record queue hheld hclear := by
    cases hheld with
    | @live id record hget =>
        have hid : record.sessionId = id := h.keyed id record hget
        rw [hid] at hclear
        exact h.anchored id record hget hclear
    | detached htask hrecord hback =>
        apply hinv.anchored record _
          (.detached htask hrecord (h.recoverable hinv htask hrecord hback))
        exact hclear.imp_left (h.detached _ _ _ _ htask record hrecord).2.2
  clear := h.clear
  save save hsave := by
    have hsound := hinv.save save hsave
    refine ⟨hsound.distinct, hsound.durable, hsound.appends, ?_⟩
    intro id hid
    exact (hsound.cleared id hid).imp_right (And.imp_right (h.still id))
  detached task promise pending removed htask := by
    have hdetached := hinv.detached task promise pending removed htask
    refine ⟨hdetached.distinct, ?_, ?_⟩
    · exact fun record hrecord => (h.detached _ _ _ _ htask record hrecord).1
    · intro record hrecord hmem
      apply hdetached.once record hrecord
      rcases h.deleted _ hmem with hold | hlive
      · exact hold
      · rw [hdetached.gone record hrecord] at hlive
        cases hlive
  apart := hinv.apart

end Change

theorem inv_accept (hjournal : options.journal = true) (hinv : Inv P world) {id : JsString}
    {record : SessionRecord} {mutation : PendingMutation} {now : Int} {event : BufferMutation}
    {tip : B3Hash} (hget : world.registry.get id = some record)
    (hnext : nextEvent P options (world.registry.pending id) record mutation now =
      .ok (event, tip)) :
    Inv P (world.edited (acceptEvent options world.registry id record event tip now)
      [(id, event)]) := by
  have hid : record.sessionId = id := hinv.keyed id record hget
  have hacceptEvent := acceptEvent_journal hjournal world.registry id record event tip now
  have hsome := fun other => isSome_get_accepted hjournal other event tip now hget
  -- The session of the event is kept as it was, and no other session changes.
  have hget' : ∀ {other later},
      (acceptEvent options world.registry id record event tip now).get other = some later →
      (other = id ∧ later = recordEvent options record event tip now) ∨
        (other ≠ id ∧ world.registry.get other = some later) := by
    intro other later h
    rw [get_accepted hjournal] at h
    split at h
    · exact Or.inl ⟨‹_›, (Option.some.inj h).symm⟩
    · exact Or.inr ⟨‹_›, h⟩
  apply Change.inv _ hinv
  refine ⟨?_, ?_, ?_, ?_, ?_, ?_, ?_, ?_, ?_⟩
  · intro other later hlater
    rcases hget' hlater with ⟨rfl, rfl⟩ | ⟨-, hold⟩
    · rw [recordEvent_sessionId, hid]
    · exact hinv.keyed other later hold
  · intro other hnone
    rw [get_accepted hjournal] at hnone
    split at hnone
    · cases hnone
    · rename_i hne
      rw [hacceptEvent]
      simp only
      rw [OrderedMap.get?_set_ne _ _ hne]
      exact hinv.queued other hnone
  · intro other later hlater
    rw [hacceptEvent]
    rcases hget' hlater with ⟨rfl, -⟩ | ⟨-, hold⟩
    · exact hinv.kept other record hget
    · exact hinv.kept other later hold
  · intro other later hlater hanchor
    rw [pending_accepted hjournal]
    rcases hget' hlater with ⟨rfl, rfl⟩ | ⟨hne, hold⟩
    · rw [if_pos rfl]
      rw [recordEvent_continuationAnchor] at hanchor
      have hplaced : Placed P
          (world.edited (acceptEvent options world.registry other record event tip now)
            [(record.sessionId, event)]) _ _ :=
        (hinv.placed record _ (.live hget) hanchor).accept hjournal hnext
      rwa [hid] at hplaced
    · rw [if_neg hne]
      refine (hinv.placed later _ (.live hold) hanchor).elsewhere rfl rfl ?_ fun h => h
      rw [hinv.keyed other later hold]
      exact Function.update_of_ne hne _ _
  · intro other later hlater hclear
    rw [hacceptEvent] at hclear
    rcases hget' hlater with ⟨rfl, rfl⟩ | ⟨-, hold⟩
    · rw [recordEvent_continuationAnchor]
      apply hinv.anchored record _ (.live hget)
      rwa [hid]
    · apply hinv.anchored later _ (.live hold)
      rwa [hinv.keyed other later hold]
  · intro other hother
    rw [hsome]
    rw [hacceptEvent] at hother ⊢
    exact hinv.clear other hother
  · intro other hother
    rw [hacceptEvent] at hother
    exact Or.inl hother
  · intro other hother
    rw [hsome, hacceptEvent]
    exact hother
  · intro task promise pending removed htask held hheld
    have hgone := (hinv.detached _ _ _ _ htask).gone held hheld
    have hne : held.sessionId ≠ id := by
      intro heq
      rw [heq, hget] at hgone
      cases hgone
    refine ⟨?_, Function.update_of_ne hne _ _, ?_⟩
    · rw [get_accepted hjournal, if_neg hne]
      exact hgone
    · rw [hacceptEvent]
      exact fun h => h

theorem pending_removeSession (registry : Registry) (id other : JsString) :
    (removeSession registry id).pending other =
      if other = id then [] else registry.pending other := by
  unfold Registry.pending removeSession
  simp only [OrderedMap.get?_delete]
  split
  · rfl
  · rfl

theorem inv_remove (hinv : Inv P world) {id : JsString} {record : SessionRecord} {nextId : Nat}
    (hget : world.registry.get id = some record) :
    Inv P (world.edited { removeSession world.registry id with nextId } []) := by
  have hget' : ∀ other, Registry.get { removeSession world.registry id with nextId } other =
      if other = id then none else world.registry.get other :=
    fun other => get_removeSession world.registry id other
  have hsome : ∀ {other later},
      Registry.get { removeSession world.registry id with nextId } other = some later →
        other ≠ id ∧ world.registry.get other = some later := by
    intro other later h
    rw [hget'] at h
    split at h
    · cases h
    · exact ⟨‹_›, h⟩
  apply Change.inv _ hinv
  refine ⟨?_, ?_, ?_, ?_, ?_, ?_, ?_, ?_, ?_⟩
  · intro other later hlater
    exact hinv.keyed other later (hsome hlater).2
  · intro other hnone
    rw [hget'] at hnone
    show (world.registry.pendingEvents.delete id).get? other = none
    rw [OrderedMap.get?_delete]
    split
    · rfl
    · rename_i hne
      rw [if_neg hne] at hnone
      exact hinv.queued other hnone
  · intro other later hlater
    obtain ⟨hne, hold⟩ := hsome hlater
    have hkept := hinv.kept other later hold
    refine ⟨?_, hkept.2⟩
    intro hmem
    rcases OrderedSet.mem_add.1 hmem with heq | hmem
    · exact hne heq
    · exact hkept.1 hmem
  · intro other later hlater hanchor
    obtain ⟨hne, hold⟩ := hsome hlater
    have hpending : Registry.pending { removeSession world.registry id with nextId } other =
        world.registry.pending other := by
      have := pending_removeSession world.registry id other
      rwa [if_neg hne] at this
    rw [hpending]
    exact (hinv.placed later _ (.live hold) hanchor).elsewhere rfl rfl rfl fun h => h
  · intro other later hlater hclear
    obtain ⟨-, hold⟩ := hsome hlater
    apply hinv.anchored later _ (.live hold)
    rwa [hinv.keyed other later hold]
  · intro other hother
    by_cases heq : other = id
    · exact Or.inl (OrderedSet.mem_add.2 (Or.inl heq))
    · rcases hinv.clear other hother with hmem | ⟨hdirty, hlive⟩
      · exact Or.inl (OrderedSet.mem_add.2 (Or.inr hmem))
      · refine Or.inr ⟨OrderedSet.mem_delete.2 ⟨heq, hdirty⟩, ?_⟩
        rw [hget', if_neg heq]
        exact hlive
  · intro other hother
    rcases OrderedSet.mem_add.1 hother with rfl | hmem
    · right
      rw [hget]
      rfl
    · exact Or.inl hmem
  · intro other hother
    by_cases heq : other = id
    · exact Or.inr (OrderedSet.mem_add.2 (Or.inl heq))
    · rw [hget', if_neg heq]
      exact hother.imp_right fun hmem => OrderedSet.mem_add.2 (Or.inr hmem)
  · intro task promise pending removed htask held hheld
    have hgone := (hinv.detached _ _ _ _ htask).gone held hheld
    refine ⟨?_, rfl, fun h => h⟩
    rw [hget']
    split
    · rfl
    · exact hgone

theorem inv_anchor (hinv : Inv P world) {id : JsString} {record kept : SessionRecord}
    {nextId : Nat} (hget : world.registry.get id = some record)
    (hid : kept.sessionId = record.sessionId) (hkept : kept.continuationAnchor = true) :
    Inv P (world.edited (Producer.anchored world.registry id kept nextId) []) := by
  have hget' : ∀ other, (Producer.anchored world.registry id kept nextId).get other =
      if other = id then some kept else world.registry.get other :=
    fun other => OrderedMap.get?_set _ _ _ _
  have hsome : ∀ {other later},
      (Producer.anchored world.registry id kept nextId).get other = some later →
        (other = id ∧ later = kept) ∨ (other ≠ id ∧ world.registry.get other = some later) := by
    intro other later h
    rw [hget'] at h
    split at h
    · exact Or.inl ⟨‹_›, (Option.some.inj h).symm⟩
    · exact Or.inr ⟨‹_›, h⟩
  have hlive : ∀ other, (world.registry.get other).isSome = true →
      ((Producer.anchored world.registry id kept nextId).get other).isSome = true := by
    intro other hother
    rw [hget']
    split
    · rfl
    · exact hother
  apply Change.inv _ hinv
  refine ⟨?_, ?_, ?_, ?_, ?_, ?_, ?_, ?_, ?_⟩
  · intro other later hlater
    rcases hsome hlater with ⟨rfl, rfl⟩ | ⟨-, hold⟩
    · rw [hid]
      exact hinv.keyed other record hget
    · exact hinv.keyed other later hold
  · intro other hnone
    rw [hget'] at hnone
    split at hnone
    · cases hnone
    · exact hinv.queued other hnone
  · intro other later hlater
    rcases hsome hlater with ⟨rfl, -⟩ | ⟨-, hold⟩
    · exact hinv.kept other record hget
    · exact hinv.kept other later hold
  · intro other later hlater hanchor
    rcases hsome hlater with ⟨-, rfl⟩ | ⟨-, hold⟩
    · rw [hkept] at hanchor
      cases hanchor
    · exact (hinv.placed later _ (.live hold) hanchor).elsewhere rfl rfl rfl fun h => h
  · intro other later hlater hclear
    rcases hsome hlater with ⟨-, rfl⟩ | ⟨hne, hold⟩
    · exact hkept
    · apply hinv.anchored later _ (.live hold)
      rw [hinv.keyed other later hold]
      exact hclear.imp_left fun hmem => (OrderedSet.mem_add.1 hmem).resolve_left hne
  · intro other hother
    rcases OrderedSet.mem_add.1 hother with rfl | hmem
    · refine Or.inr ⟨OrderedSet.mem_add.2 (Or.inl rfl), ?_⟩
      rw [hget', if_pos rfl]
      rfl
    · exact (hinv.clear other hmem).imp_right fun h =>
        ⟨OrderedSet.mem_add.2 (Or.inr h.1), hlive other h.2⟩
  · exact fun other hother => Or.inl hother
  · exact fun other hother => hother.imp_left (hlive other)
  · intro task promise pending removed htask held hheld
    have hgone := (hinv.detached _ _ _ _ htask).gone held hheld
    have hne : held.sessionId ≠ id := by
      intro heq
      rw [heq, hget] at hgone
      cases hgone
    refine ⟨?_, rfl, fun hmem => (OrderedSet.mem_add.1 hmem).resolve_left hne⟩
    rw [hget', if_neg hne]
    exact hgone

theorem inv_registry (hinv : Inv P world) {registry : Registry}
    (h : SameJournal world.registry registry) : Inv P { world with registry } :=
  Frame.inv ⟨h, rfl, rfl, rfl, rfl, fun _ _ _ _ h => h⟩ hinv

theorem inv_edit (hjournal : options.journal = true) (hinv : Inv P world) {sweeps : Bool}
    {registry : Registry} {events : List (JsString × BufferMutation)}
    (h : Edit P options sweeps world.registry events registry) :
    Inv P (world.edited registry events) := by
  cases h with
  | same h => exact inv_registry hinv h
  | accept hget hnext => exact inv_accept hjournal hinv hget hnext
  | remove hget => exact inv_remove hinv hget
  | anchor hget hid hkept _ => exact inv_anchor hinv hget hid hkept

theorem inv_edits (hjournal : options.journal = true) {sweeps : Bool}
    {before registry : Registry}
    {events : List (JsString × BufferMutation)} (h : Edits P options sweeps before events registry)
    {world : World} (hinv : Inv P world) (hbefore : world.registry = before) :
    Inv P (world.edited registry events) := by
  induction h generalizing world with
  | nil registry =>
      subst hbefore
      exact hinv
  | cons head tail ih =>
      subst hbefore
      have hnext := ih (inv_edit hjournal hinv head) rfl
      simpa [edited, recordAll] using hnext

/-! ## Calls -/

theorem not_detached_of_not_inUse {id : JsString} (hfree : ¬ world.InUse id)
    {task promise : Nat} {pending : List (JsString × Option (List BufferMutation))}
    {removed : List SessionRecord}
    (htask : world.discards.get? task = some (.deleting promise pending removed))
    {record : SessionRecord} (hrecord : record ∈ removed) : record.sessionId ≠ id := by
  rintro rfl
  apply hfree
  iterate 5 right
  exact ⟨_, OrderedMap.mem_values_iff.2 ⟨task, htask⟩,
    List.mem_map.2 ⟨record, hrecord, rfl⟩⟩

theorem get_eq_none_of_not_inUse {id : JsString} (hfree : ¬ world.InUse id) :
    world.registry.get id = none := by
  rw [← Option.not_isSome_iff_eq_none]
  exact fun hsome => hfree (Or.inl hsome)

/-- What is held does not have an identifier that is not in use. -/
theorem Held.sessionId_ne (hinv : Inv P world) {id : JsString} (hfree : ¬ world.InUse id)
    {record : SessionRecord} {queue : List BufferMutation} (h : world.Held record queue) :
    record.sessionId ≠ id := by
  cases h with
  | @live other record hget =>
      rintro rfl
      rw [← hinv.keyed other record hget, get_eq_none_of_not_inUse hfree] at hget
      cases hget
  | detached htask hrecord _ => exact not_detached_of_not_inUse hfree htask hrecord

/-- The log of an identifier that is not in use may be forgotten. -/
theorem inv_forget (hinv : Inv P world) {id : JsString} (hfree : ¬ world.InUse id) :
    Inv P { world with
      accepted := Function.update world.accepted id [], landed := world.landed.delete id } := by
  let after : World :=
    { world with
      accepted := Function.update world.accepted id [], landed := world.landed.delete id }
  show Inv P after
  have hheld : ∀ {record queue}, after.Held record queue → world.Held record queue := by
    intro record queue h
    cases h with
    | live hget => exact .live hget
    | detached htask hrecord hback => exact .detached htask hrecord hback
  refine ⟨hinv.keyed, hinv.queued, hinv.durable, hinv.kept, ?_, ?_, hinv.clear, ?_, ?_,
    hinv.apart⟩
  · intro record queue h hanchor
    have hne := (hheld h).sessionId_ne hinv hfree
    refine (hinv.placed record queue (hheld h) hanchor).elsewhere rfl rfl
      (Function.update_of_ne hne _ _) ?_
    exact fun hmem hold => hmem (OrderedSet.mem_delete.2 ⟨hne, hold⟩)
  · exact fun record queue h hclear => hinv.anchored record queue (hheld h) hclear
  · intro save hsave
    have hsound := hinv.save save hsave
    exact ⟨hsound.distinct, hsound.durable, hsound.appends, hsound.cleared⟩
  · intro task promise pending removed htask
    have hdetached := hinv.detached task promise pending removed htask
    exact ⟨hdetached.distinct, hdetached.gone, hdetached.once⟩

theorem inv_create (hinv : Inv P world) {record : SessionRecord} (hnew : IsNew record)
    (hfree : ¬ world.InUse record.sessionId)
    (haccepted : world.accepted record.sessionId = []) :
    Inv P { world with registry := insertNew world.registry record } := by
  have hnone := get_eq_none_of_not_inUse hfree
  have hget' : ∀ other, (insertNew world.registry record).get other =
      if other = record.sessionId then some record else world.registry.get other :=
    fun other => OrderedMap.get?_set _ _ _ _
  have hsome : ∀ {other later}, (insertNew world.registry record).get other = some later →
      (other = record.sessionId ∧ later = record) ∨
        (other ≠ record.sessionId ∧ world.registry.get other = some later) := by
    intro other later h
    rw [hget'] at h
    split at h
    · exact Or.inl ⟨‹_›, (Option.some.inj h).symm⟩
    · exact Or.inr ⟨‹_›, h⟩
  have hlive : ∀ other, (world.registry.get other).isSome = true →
      ((insertNew world.registry record).get other).isSome = true := by
    intro other hother
    rw [hget']
    split
    · rfl
    · exact hother
  have hflight : ¬ world.Deleting record.sessionId ∧ ¬ world.Clearing record.sessionId := by
    constructor
    · rintro ⟨save, hsave, hmem⟩
      exact hfree (Or.inr (Or.inr (Or.inr (Or.inr (Or.inl
        ⟨save, hsave, Or.inr (Or.inl hmem)⟩)))))
    · rintro ⟨save, hsave, hmem⟩
      exact hfree (Or.inr (Or.inr (Or.inr (Or.inr (Or.inl
        ⟨save, hsave, Or.inr (Or.inr hmem)⟩)))))
  -- No rows, queue or commit under way belong to the new session.
  have hrows : world.store.events record.sessionId = [] := by
    by_contra hne
    exact hfree (Or.inr (Or.inl (hinv.durable.owned _ hne)))
  have hempty : world.registry.pending record.sessionId = [] := by
    rw [Registry.pending, hinv.queued _ hnone]
    rfl
  have hchange : Change P world (insertNew world.registry record) world.accepted := by
    refine ⟨?_, ?_, ?_, ?_, ?_, ?_, fun other hother => Or.inl hother, ?_, ?_⟩
    · intro other later hlater
      rcases hsome hlater with ⟨rfl, rfl⟩ | ⟨-, hold⟩
      · rfl
      · exact hinv.keyed other later hold
    · intro other hother
      rw [hget'] at hother
      split at hother
      · cases hother
      · exact hinv.queued other hother
    · intro other later hlater
      rcases hsome hlater with ⟨rfl, -⟩ | ⟨-, hold⟩
      · exact ⟨fun hmem => hfree (Or.inr (Or.inr (Or.inl hmem))), hflight.1⟩
      · exact hinv.kept other later hold
    · intro other later hlater hanchor
      rcases hsome hlater with ⟨rfl, rfl⟩ | ⟨-, hold⟩
      · show Placed P _ _ (world.registry.pending later.sessionId)
        have hnot : ∀ change, world.InFlight change → change.sessionId ≠ later.sessionId := by
          rintro change ⟨save, hsave, hmem⟩ heq
          have hsession := ((hinv.save save hsave).appends change hmem).2.2
          rw [heq] at hsession
          exact hfree (Or.inr (Or.inr (Or.inr (Or.inr (Or.inl ⟨save, hsave, Or.inl hsession⟩)))))
        rw [hempty]
        refine ⟨?_, ?_, ?_, ?_, ?_, ?_, ?_⟩
        · rw [haccepted]
          exact .of_isNew hnew
        · show world.store.events _ <+: _
          rw [hrows]
          exact List.nil_prefix
        · exact List.nil_suffix
        · rw [haccepted]
          exact Nat.zero_le _
        · intro _
          show (world.store.events later.sessionId).length + _ = _
          rw [hrows, haccepted]
          rfl
        · rintro change ⟨save, hdrain, hmem⟩ hsession
          refine absurd hsession (hnot change ⟨save, ?_, hmem⟩)
          change world.drain = _ at hdrain
          rw [hdrain]
          rfl
        · intro change hchange hsession
          exact absurd hsession (hnot change hchange)
      · exact (hinv.placed later _ (.live hold) hanchor).elsewhere rfl rfl rfl fun h => h
    · intro other later hlater hclear
      rcases hsome hlater with ⟨rfl, rfl⟩ | ⟨-, hold⟩
      · rcases hclear with hmem | hmem
        · exact absurd (Or.inr (Or.inr (Or.inr (Or.inl hmem)))) hfree
        · exact absurd hmem hflight.2
      · apply hinv.anchored later _ (.live hold)
        rwa [hinv.keyed other later hold]
    · intro other hother
      exact (hinv.clear other hother).imp_right fun h =>
        ⟨OrderedSet.mem_add.2 (Or.inr h.1), hlive other h.2⟩
    · exact fun other hother => hother.imp_left (hlive other)
    · intro task promise pending removed htask held hheld
      refine ⟨?_, rfl, fun h => h⟩
      rw [hget', if_neg (not_detached_of_not_inUse hfree htask hheld)]
      exact (hinv.detached _ _ _ _ htask).gone held hheld
  exact hchange.inv hinv

theorem SameJournal.isSome_get {registry next : Registry} (h : SameJournal registry next)
    (id : JsString) : next.sessions.has id = registry.sessions.has id := by
  have hrel := h.get id
  unfold OrderedMap.has
  unfold Registry.get at hrel
  revert hrel
  generalize next.sessions.get? id = later
  generalize registry.sessions.get? id = earlier
  intro hrel
  cases hrel with
  | none => rfl
  | some _ => rfl

theorem inUse_registry {registry : Registry} (h : SameJournal world.registry registry)
    {id : JsString} (hfree : ¬ world.InUse id) :
    ¬ InUse { world with registry } id := by
  intro hused
  apply hfree
  unfold InUse at hused ⊢
  rwa [SameJournal.isSome_get h, h.deleted, h.clearEvents] at hused

theorem inv_call (hjournal : options.journal = true) (hinv : Inv P world)
    (call : RegistryCall) (clock : Nat → Int) {uuid : JsString} (hfree : ¬ world.InUse uuid) :
    Inv P { world with
      registry := (call.run P options clock uuid world.registry).registry
      accepted := record (Function.update world.accepted uuid [])
        (call.run P options clock uuid world.registry).accepted
      landed := world.landed.delete uuid } := by
  have hforgotten := inv_forget hinv hfree
  have heffect := call.run_effect (P := P) hjournal hinv.keyed clock uuid
  generalize call.run P options clock uuid world.registry = outcome at heffect
  obtain ⟨registry, accepted⟩ := outcome
  simp only at heffect ⊢
  have hrecord : ∀ before, recordAll before accepted.toList = record before accepted := by
    intro before
    cases accepted with
    | none => rfl
    | some event => rfl
  rw [← hrecord]
  generalize accepted.toList = events at heffect
  cases heffect with
  | edits h => exact inv_edits hjournal h hforgotten rfl
  | create h hid hnew =>
      have hsame := inv_registry hforgotten h
      apply inv_create hsame hnew
      · rw [hid]
        exact inUse_registry h hfree
      · rw [hid]
        exact Function.update_self _ _ _

end World

end Pmbah.Producer
