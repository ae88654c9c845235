import Pmbah.Producer.Continuations
import Pmbah.Producer.CrashConsistency
import Pmbah.Producer.SnapshotStorage

/-!
# One active continuation of a record

`continueFrom` looks for an active continuation among the sessions that the
registry holds.  One that `discardPersisted` has taken out is not among them, and
when its deletion fails it comes back beside the one that has been started
meanwhile.
-/

namespace Pmbah.Producer

open Js Format Library

variable {P : Platform} {options : RegistryOptions} {registry next : Registry}

/-- At most one active session continues a record. -/
def OneActive (registry : Registry) : Prop :=
  ∀ hash first last record later, registry.get first = some record →
    registry.get last = some later → record.state = .active → later.state = .active →
    record.parentRecord = some hash → later.parentRecord = some hash → first = last

theorem oneActive_iff : OneActive registry ↔ Single registry.continues := by
  constructor
  · intro h first last hash hfirst hlast
    obtain ⟨record, hrecord, hcontinues⟩ := Option.bind_eq_some_iff.1 hfirst
    obtain ⟨later, hlater, hcontinues'⟩ := Option.bind_eq_some_iff.1 hlast
    obtain ⟨hactive, hparent⟩ := continues_eq_some.1 hcontinues
    obtain ⟨hactive', hparent'⟩ := continues_eq_some.1 hcontinues'
    exact h hash first last record later hrecord hlater hactive hactive' hparent hparent'
  · intro h hash first last record later hrecord hlater hactive hactive' hparent hparent'
    apply h first last hash
    · exact (registry_continues hrecord).trans (continues_eq_some.2 ⟨hactive, hparent⟩)
    · exact (registry_continues hlater).trans (continues_eq_some.2 ⟨hactive', hparent'⟩)

/-- Sessions of which no two continue one record. -/
def Apart (records : List SessionRecord) : Prop :=
  records.Pairwise fun earlier later =>
    ∀ hash, earlier.continues = some hash → later.continues ≠ some hash

/-! ## Detaching -/

/-- What detaching leaves and takes continues different records. -/
structure Parted (result : Registry × List SessionRecord) : Prop where
  single : Single result.1.continues
  apart : Apart result.2
  gone : ∀ record ∈ result.2, ∀ hash, record.continues = some hash →
    ∀ id, result.1.continues id ≠ some hash

theorem continues_removeSession (registry : Registry) (id other : JsString) :
    (removeSession registry id).continues other =
      if other = id then none else registry.continues other := by
  rw [Registry.continues, get_removeSession]
  split
  · rfl
  · rfl

theorem parted_detachOne {result : Registry × List SessionRecord} (h : Parted result)
    (id : JsString) :
    Heeds result.1 (World.detachOne result id).1 ∧ Parted (World.detachOne result id) := by
  unfold World.detachOne discard
  cases hget : result.1.get id with
  | none => exact ⟨.refl _, h⟩
  | some existing =>
      have hcontinues : result.1.continues id = existing.continues := registry_continues hget
      have hkept : ∀ {other hash}, (removeSession result.1 id).continues other = some hash →
          other ≠ id ∧ result.1.continues other = some hash := by
        intro other hash hother
        rw [continues_removeSession] at hother
        split at hother
        · cases hother
        · exact ⟨‹_›, hother⟩
      have hremoved := Heeds.remove result.1 id (result.1.nextId + 1)
      refine ⟨hremoved, hremoved.single h.single, ?_, ?_⟩
      · apply List.pairwise_append.2
        refine ⟨h.apart, List.pairwise_singleton _ _, ?_⟩
        intro earlier hearlier later hlater hash hshared hsame
        rw [List.mem_singleton.1 hlater] at hsame
        exact h.gone earlier hearlier hash hshared id (hcontinues.trans hsame)
      · intro record hrecord hash hshared other hother
        obtain ⟨hne, hother⟩ := hkept hother
        rcases List.mem_append.1 hrecord with hrecord | hrecord
        · exact h.gone record hrecord hash hshared other hother
        · rw [List.mem_singleton.1 hrecord] at hshared
          exact hne (h.single other id hash hother (hcontinues.trans hshared))

theorem parted_detach (hsingle : Single registry.continues) (ids : List JsString) :
    Heeds registry (World.detach registry ids).1 ∧ Parted (World.detach registry ids) := by
  have hfirst : Parted (registry, []) :=
    ⟨hsingle, List.Pairwise.nil, fun record hrecord => absurd hrecord List.not_mem_nil⟩
  unfold World.detach
  induction ids using List.reverseRecOn with
  | nil => exact ⟨.refl registry, hfirst⟩
  | append_singleton ids id ih =>
      obtain ⟨hheeds, hparted⟩ := ih
      obtain ⟨hone, hstill⟩ := parted_detachOne hparted id
      rw [List.foldl_append]
      exact ⟨hheeds.trans hone, hstill⟩

/-! ## Restoring -/

/-- No session continues what a session does that comes back. -/
def NoRival (registry : Registry) (restored : List SessionRecord) : Prop :=
  ∀ record ∈ restored, registry.sessions.has record.sessionId = false →
    record.continues.isSome = true →
    ∀ other ∈ registry.sessions.values, other.continues ≠ record.continues

instance (registry : Registry) (restored : List SessionRecord) :
    Decidable (NoRival registry restored) :=
  inferInstanceAs (Decidable (∀ record ∈ restored, _ → _ → ∀ other ∈ registry.sessions.values, _))

theorem noRival_continues {restored : List SessionRecord} (h : NoRival registry restored)
    {record : SessionRecord} (hrecord : record ∈ restored)
    (hgone : registry.get record.sessionId = none) {hash : JsString}
    (hcontinues : record.continues = some hash) (id : JsString) :
    registry.continues id ≠ some hash := by
  intro hid
  obtain ⟨other, hget, hsame⟩ := Option.bind_eq_some_iff.1 hid
  apply h record hrecord _ _ other (OrderedMap.mem_values_iff.2 ⟨id, hget⟩)
  · rw [hsame, hcontinues]
  · rw [OrderedMap.has, show registry.sessions.get? record.sessionId = none from hgone]
    rfl
  · rw [hcontinues]
    rfl

theorem heeds_restoreOne (pending : List (JsString × Option (List BufferMutation)))
    {record : SessionRecord} (hgone : registry.get record.sessionId = none)
    (hrival : ∀ hash, record.continues = some hash → ∀ id, registry.continues id ≠ some hash) :
    Heeds registry (World.restoreOne pending registry record) ∧
      ∀ id, (World.restoreOne pending registry record).get id =
        if id = record.sessionId then some record else registry.get id := by
  obtain ⟨pendingEvents, heq, -⟩ := World.restoreOne_eq pending hgone
  rw [heq]
  have hget : ∀ id, (registry.put record.sessionId record).get id =
      if id = record.sessionId then some record else registry.get id :=
    fun id => get_put registry record.sessionId id record
  have hinsert : Heeds registry (insertNew registry record) := by
    apply Heeds.insertNew
    intro other hsome hsame
    obtain ⟨hash, hash_eq⟩ := Option.isSome_iff_exists.1 hsome
    exact hrival hash hash_eq other (hsame.trans hash_eq)
  refine ⟨⟨hinsert.keyed, hinsert.single, ?_, ?_, ?_, ?_⟩, hget⟩
  · intro id hlive
    left
    show ((registry.put record.sessionId record).get id).isSome = true
    rw [hget]
    split
    · rfl
    · exact hlive
  · intro id hash hcontinues
    left
    show ((registry.put record.sessionId record).get id).bind _ = some hash
    rw [hget, if_neg]
    · exact hcontinues
    · rintro rfl
      rw [Registry.continues, hgone] at hcontinues
      cases hcontinues
  · exact fun id hid => Or.inl (OrderedSet.mem_add.2 (Or.inr hid))
  · intro id hid
    show id ∈ registry.deleted.delete record.sessionId ∨
      id ∈ registry.dirty.add record.sessionId ∧
        ((registry.put record.sessionId record).get id).isSome = true
    by_cases heq : id = record.sessionId
    · right
      rw [hget, if_pos heq]
      exact ⟨OrderedSet.mem_add.2 (Or.inl heq), rfl⟩
    · exact Or.inl (OrderedSet.mem_delete.2 ⟨heq, hid⟩)

theorem heeds_restore (pending : List (JsString × Option (List BufferMutation)))
    {removed : List SessionRecord} (hapart : Apart removed) (hrival : NoRival registry removed) :
    Heeds registry (removed.foldl (World.restoreOne pending) registry) := by
  induction removed generalizing registry with
  | nil => exact .refl registry
  | cons record removed ih =>
      obtain ⟨hfirst, hrest⟩ := List.pairwise_cons.1 hapart
      have htail : NoRival registry removed :=
        fun later hlater => hrival later (List.mem_cons_of_mem _ hlater)
      rw [List.foldl_cons]
      cases hget : registry.get record.sessionId with
      | some existing =>
          -- The session is there again, under its own id, and stays as it is.
          have hkept : World.restoreOne pending registry record = registry := by
            unfold World.restoreOne
            apply if_pos
            rw [OrderedMap.has, show registry.sessions.get? record.sessionId = _ from hget]
            rfl
          rw [hkept]
          exact ih hrest htail
      | none =>
          obtain ⟨hheeds, hafter⟩ := heeds_restoreOne pending hget fun hash hcontinues id =>
            noRival_continues hrival List.mem_cons_self hget hcontinues id
          apply hheeds.trans
          apply ih hrest
          intro later hlater hgone hsome other hother
          obtain ⟨id, hid⟩ := OrderedMap.mem_values_iff.1 hother
          change (World.restoreOne pending registry record).get id = some other at hid
          have hgone' : (World.restoreOne pending registry record).get later.sessionId = none :=
            Option.not_isSome_iff_eq_none.1 (Bool.eq_false_iff.1 hgone)
          obtain ⟨hash, hash_eq⟩ := Option.isSome_iff_exists.1 hsome
          intro hsame
          rw [hash_eq] at hsame
          rw [hafter] at hid hgone'
          split at hid
          · rw [Option.some.injEq] at hid
            rw [hid] at hfirst
            exact hfirst later hlater hash hsame hash_eq
          · split at hgone'
            · cases hgone'
            · apply noRival_continues htail hlater hgone' hash_eq id
              exact (registry_continues hid).trans hsame

/-! ## What is stored -/

/-- What a stored session continues. -/
def JournalStore.continues (store : JournalStore) (id : JsString) : Option JsString :=
  (store.session id).bind SessionRecord.continues

/-- Sessions are stored under their own ids, and no two of them continue one record. -/
structure StoresApart (store : JournalStore) : Prop where
  keyed : ∀ id record, store.session id = some record → record.sessionId = id
  single : Single store.continues

/-- A stored continuation that the registry no longer has waits to be saved or deleted. -/
def Tracks (registry : Registry) (store : JournalStore) (saving deleting : List JsString) :
    Prop :=
  ∀ id hash, store.continues id = some hash → registry.continues id = some hash ∨
    ((id ∈ registry.dirty ∨ id ∈ saving) ∧ (registry.get id).isSome = true) ∨
    id ∈ registry.deleted ∨ id ∈ deleting

theorem Tracks.heeds {store : JournalStore} {saving deleting : List JsString}
    (h : Tracks registry store saving deleting) (hheeds : Heeds registry next) :
    Tracks next store saving deleting := by
  have hlive : ∀ {id}, id ∈ next.dirty ∨ id ∈ saving → (registry.get id).isSome = true →
      ((id ∈ next.dirty ∨ id ∈ saving) ∧ (next.get id).isSome = true) ∨
        id ∈ next.deleted ∨ id ∈ deleting := by
    intro id hid hget
    rcases hheeds.live id hget with hstill | hdeleted
    · exact Or.inl ⟨hid, hstill⟩
    · exact Or.inr (Or.inl hdeleted)
  intro id hash hcontinues
  rcases h id hash hcontinues with hsame | ⟨hwaits, hget⟩ | hdeleted | hdeleting
  · have hget : (registry.get id).isSome = true := by
      obtain ⟨record, hrecord, -⟩ := Option.bind_eq_some_iff.1 hsame
      rw [hrecord]
      rfl
    rcases hheeds.written id hash hsame with hstill | hdirty | hdeleted
    · exact Or.inl hstill
    · exact Or.inr (hlive (Or.inl hdirty) hget)
    · exact Or.inr (Or.inr (Or.inl hdeleted))
  · rcases hwaits with hdirty | hsaving
    · rcases hheeds.dirty id hdirty with hdirty | hdeleted
      · exact Or.inr (hlive (Or.inl hdirty) hget)
      · exact Or.inr (Or.inr (Or.inl hdeleted))
    · exact Or.inr (hlive (Or.inr hsaving) hget)
  · rcases hheeds.deleted id hdeleted with hdeleted | ⟨hdirty, hget⟩
    · exact Or.inr (Or.inr (Or.inl hdeleted))
    · exact Or.inr (Or.inl ⟨Or.inl hdirty, hget⟩)
  · exact Or.inr (Or.inr (Or.inr hdeleting))

/-- What a save has to reckon with: while it is under way, both outcomes. -/
def Saved (registry : Registry) (store : JournalStore) : Drain → Prop
  | .committing save =>
      Tracks registry store save.ids save.batch.deleted ∧
        ∀ after, store.commit save.batch = some after →
          StoresApart after ∧ Tracks registry after [] []
  | .settled save false => Tracks registry store save.ids save.batch.deleted
  | _ => Tracks registry store [] []

theorem Saved.heeds {store : JournalStore} {drain : Drain}
    (h : Saved registry store drain) (hheeds : Heeds registry next) :
    Saved next store drain := by
  cases drain with
  | idle => exact Tracks.heeds h hheeds
  | committing save =>
      exact ⟨h.1.heeds hheeds, fun after hcommit =>
        ⟨(h.2 after hcommit).1, (h.2 after hcommit).2.heeds hheeds⟩⟩
  | settled save stored =>
      cases stored with
      | true => exact Tracks.heeds h hheeds
      | false => exact Tracks.heeds h hheeds
  | returned waiters saved => exact Tracks.heeds h hheeds

/-- The storage after a commit of everything that waits is the registry's view. -/
theorem committed_continues (hkeyed : Keyed registry) {store after : JournalStore}
    (hstore : StoresApart store) (htracks : Tracks registry store [] [])
    (hcommit : store.commit (World.nextBatch registry) = some after) :
    (∀ id record, after.session id = some record → record.sessionId = id) ∧
      ∀ id hash, after.continues id = some hash → registry.continues id = some hash := by
  have hbatch := JournalStore.commit_eq_some hcommit (World.nextBatch_distinct hkeyed)
  have hput : ∀ {id}, id ∈ registry.dirty → ∀ {record}, registry.get id = some record →
      after.session id = some record := by
    intro id hdirty record hget
    have hid : record.sessionId = id := hkeyed id record hget
    rw [← hid]
    exact hbatch.put record (World.mem_nextBatch_sessions.2 ⟨id, hdirty, hget⟩)
  have hrest : ∀ {id}, ¬ (id ∈ registry.dirty ∧ (registry.get id).isSome = true) →
      after.session id = if id ∈ registry.deleted.members then none else store.session id :=
    fun hid => hbatch.untouched _ fun hmem =>
      hid ((World.mem_nextBatch_sessionIds hkeyed).1 hmem)
  refine ⟨?_, ?_⟩
  · intro id record hsession
    by_cases hid : id ∈ registry.dirty ∧ (registry.get id).isSome = true
    · obtain ⟨kept, hget⟩ := Option.isSome_iff_exists.1 hid.2
      rw [hput hid.1 hget, Option.some.injEq] at hsession
      rw [← hsession]
      exact hkeyed id kept hget
    · rw [hrest hid] at hsession
      split at hsession
      · cases hsession
      · exact hstore.keyed id record hsession
  · intro id hash hcontinues
    by_cases hid : id ∈ registry.dirty ∧ (registry.get id).isSome = true
    · obtain ⟨kept, hget⟩ := Option.isSome_iff_exists.1 hid.2
      rw [JournalStore.continues, hput hid.1 hget] at hcontinues
      exact (registry_continues hget).trans hcontinues
    · rw [JournalStore.continues, hrest hid] at hcontinues
      split at hcontinues
      · cases hcontinues
      · rename_i hdeleted
        rcases htracks id hash hcontinues with hsame | ⟨hwaits, hget⟩ | hgone | hnever
        · exact hsame
        · exact absurd ⟨hwaits.resolve_right List.not_mem_nil, hget⟩ hid
        · exact absurd hgone hdeleted
        · exact absurd hnever List.not_mem_nil

/-! ## Loading -/

/-- A loaded session continues at most what the snapshot says. -/
theorem loadAll_continues {snapshot : List SessionRecord} {id : JsString}
    {record : SessionRecord}
    (h : (snapshot.foldl loadRecord registry).get id = some record) :
    registry.get id = some record ∨ ∃ stored ∈ snapshot, stored.sessionId = id ∧
      record.sessionId = id ∧ ∀ hash, record.continues = some hash →
        stored.continues = some hash := by
  induction snapshot generalizing registry with
  | nil => exact Or.inl h
  | cons first snapshot ih =>
      rcases ih h with hget | ⟨stored, hstored, hrest⟩
      · have hput := get_put registry first.sessionId id
          (normaliseLoadedRecord registry.nextId first)
        change (registry.put first.sessionId _).get id = some record at hget
        rw [hput] at hget
        split at hget
        · rename_i heq
          rw [Option.some.injEq] at hget
          right
          refine ⟨first, List.mem_cons_self, heq.symm, ?_, ?_⟩
          · rw [← hget, heq]
            rfl
          · intro hash hcontinues
            rw [← hget] at hcontinues
            obtain ⟨hactive, hparent⟩ := continues_eq_some.1 hcontinues
            apply continues_eq_some.2
            refine ⟨?_, hparent⟩
            change (if _ then SessionState.failedUpload else first.state) = .active at hactive
            split at hactive
            · cases hactive
            · exact hactive
        · exact Or.inl hget
      · exact Or.inr ⟨stored, List.mem_cons_of_mem _ hstored, hrest⟩

/-- Every session that is loaded waits to be saved again. -/
theorem loadAll_waits (snapshot : List SessionRecord) (registry : Registry) :
    (∀ id, id ∈ registry.dirty ∧ (registry.get id).isSome = true →
      id ∈ (snapshot.foldl loadRecord registry).dirty ∧
        ((snapshot.foldl loadRecord registry).get id).isSome = true) ∧
    ∀ stored ∈ snapshot, stored.sessionId ∈ (snapshot.foldl loadRecord registry).dirty ∧
      ((snapshot.foldl loadRecord registry).get stored.sessionId).isSome = true := by
  induction snapshot generalizing registry with
  | nil => exact ⟨fun id h => h, fun stored hstored => absurd hstored List.not_mem_nil⟩
  | cons first snapshot ih =>
      obtain ⟨hkept, hloaded⟩ := ih (loadRecord registry first)
      have hget := fun id => get_put registry first.sessionId id
        (normaliseLoadedRecord registry.nextId first)
      refine ⟨?_, ?_⟩
      · intro id hid
        apply hkept
        refine ⟨OrderedSet.mem_add.2 (Or.inr hid.1), ?_⟩
        show ((registry.put first.sessionId _).get id).isSome = true
        rw [hget]
        split
        · rfl
        · exact hid.2
      · intro stored hstored
        rcases List.mem_cons.1 hstored with rfl | hstored
        · apply hkept
          refine ⟨OrderedSet.mem_add.2 (Or.inl rfl), ?_⟩
          show ((registry.put stored.sessionId _).get stored.sessionId).isSome = true
          rw [hget, if_pos rfl]
          rfl
        · exact hloaded stored hstored

theorem load_waits (snapshot : List SessionRecord) (registry : Registry) :
    ∀ stored ∈ snapshot, stored.sessionId ∈ (load registry snapshot).dirty ∧
      ((load registry snapshot).get stored.sessionId).isSome = true :=
  (loadAll_waits snapshot _).2

/-- Stored sessions of which no two continue one record. -/
def OneStored (snapshot : List SessionRecord) : Prop :=
  ∀ hash, ∀ first ∈ snapshot, ∀ last ∈ snapshot, first.continues = some hash →
    last.continues = some hash → first.sessionId = last.sessionId

theorem load_apart {snapshot : List SessionRecord} (h : OneStored snapshot)
    (registry : Registry) :
    Keyed (load registry snapshot) ∧ Single (load registry snapshot).continues := by
  have hloaded : ∀ {id record}, (load registry snapshot).get id = some record →
      ∃ stored ∈ snapshot, stored.sessionId = id ∧ record.sessionId = id ∧
        ∀ hash, record.continues = some hash → stored.continues = some hash := by
    intro id record hget
    rcases loadAll_continues hget with hnone | hstored
    · cases hnone
    · exact hstored
  refine ⟨?_, ?_⟩
  · intro id record hget
    obtain ⟨-, -, -, hid, -⟩ := hloaded hget
    exact hid
  · intro first last hash hfirst hlast
    obtain ⟨record, hrecord, hcontinues⟩ := Option.bind_eq_some_iff.1 hfirst
    obtain ⟨later, hlater, hcontinues'⟩ := Option.bind_eq_some_iff.1 hlast
    obtain ⟨stored, hstored, hid, -, hsame⟩ := hloaded hrecord
    obtain ⟨stored', hstored', hid', -, hsame'⟩ := hloaded hlater
    rw [← hid, ← hid']
    exact h hash stored hstored stored' hstored' (hsame hash hcontinues) (hsame' hash hcontinues')

theorem StoresApart.oneStored {store : JournalStore} (h : StoresApart store) :
    OneStored store.read := by
  have hcontinues : ∀ {record hash}, record ∈ store.read → record.continues = some hash →
      store.continues record.sessionId = some hash := by
    intro record hash hrecord hcontinues
    obtain ⟨id, hid⟩ := World.mem_read hrecord
    rw [h.keyed id record hid, JournalStore.continues, hid]
    exact hcontinues
  intro hash first hfirst last hlast hshared hshared'
  exact h.single _ _ hash (hcontinues hfirst hshared) (hcontinues hlast hshared')

/-! ## Sessions that are taken out -/

/-- What each `discardPersisted` has taken out continues different records. -/
def TakenApart (discards : OrderedMap Nat DiscardTask) : Prop :=
  ∀ task promise pending removed,
    discards.get? task = some (.deleting promise pending removed) → Apart removed

theorem takenApart_set {discards : OrderedMap Nat DiscardTask} (h : TakenApart discards)
    {task : Nat} {stage : DiscardTask}
    (hstage : ∀ promise pending removed, stage = .deleting promise pending removed →
      Apart removed) : TakenApart (discards.set task stage) := by
  intro other promise pending removed hother
  rw [OrderedMap.get?_set] at hother
  split at hother
  · exact hstage promise pending removed (Option.some.inj hother)
  · exact h other promise pending removed hother

theorem takenApart_delete {discards : OrderedMap Nat DiscardTask} (h : TakenApart discards)
    (task : Nat) : TakenApart (discards.delete task) := by
  intro other promise pending removed hother
  rw [OrderedMap.get?_delete] at hother
  split at hother
  · cases hother
  · exact h other promise pending removed hother

/-! ## The registry over its journal -/

namespace World

variable {world next : World}

structure Guarded (world : World) : Prop where
  keyed : Keyed world.registry
  single : Single world.registry.continues
  stored : StoresApart world.store
  taken : TakenApart world.discards
  saved : Saved world.registry world.store world.drain

/-- A change of the registry. -/
theorem Guarded.change (h : Guarded world) (hheeds : Heeds world.registry next.registry)
    (hstore : next.store = world.store) (hdrain : next.drain = world.drain)
    (htaken : TakenApart next.discards) : Guarded next where
  keyed := hheeds.keyed h.keyed
  single := hheeds.single h.single
  stored := by
    rw [hstore]
    exact h.stored
  taken := htaken
  saved := by
    rw [hstore, hdrain]
    exact h.saved.heeds hheeds

/-- A change of where saving stands. -/
theorem Guarded.drained (h : Guarded world) {drain : Drain} {waiters : List Nat}
    {outcomes : OrderedMap Nat Bool} (hsaved : Saved world.registry world.store drain) :
    Guarded { world with drain, waiters, outcomes } :=
  ⟨h.keyed, h.single, h.stored, h.taken, hsaved⟩

theorem guarded_startSave (h : Guarded world)
    (htracks : Tracks world.registry world.store [] []) : Guarded world.startSave := by
  unfold startSave
  simp only
  split
  · exact ⟨h.keyed, h.single, h.stored, h.taken, htracks⟩
  · refine ⟨h.keyed, h.single, h.stored, h.taken, ?_, ?_⟩
    · intro id hash hcontinues
      rcases htracks id hash hcontinues with hsame | ⟨hwaits, hget⟩ | hdeleted | hnever
      · exact Or.inl hsame
      · exact Or.inr (Or.inl ⟨Or.inr (hwaits.resolve_right List.not_mem_nil), hget⟩)
      · exact Or.inr (Or.inr (Or.inr hdeleted))
      · exact absurd hnever List.not_mem_nil
    · intro after hcommit
      obtain ⟨hkeyed, hcontinues⟩ := committed_continues h.keyed h.stored htracks hcommit
      exact ⟨⟨hkeyed, h.single.mono hcontinues⟩, fun id hash hid =>
        Or.inl (hcontinues id hash hid)⟩

theorem guarded_persist (h : Guarded world) : Guarded world.persist := by
  have hwait : Guarded world.wait :=
    h.change (.rename world.registry _) rfl rfl h.taken
  unfold persist kick
  split
  · rename_i hidle
    apply guarded_startSave hwait
    have hsaved := hwait.saved
    rw [hidle] at hsaved
    exact hsaved
  · exact hwait

theorem guarded_setTask (h : Guarded world) {task : Nat} {stage : DiscardTask}
    (hstage : ∀ promise pending removed, stage = .deleting promise pending removed →
      Apart removed) : Guarded (world.setTask task stage) := by
  have hsame : Heeds world.registry (world.setTask task stage).registry := .refl _
  exact h.change hsame rfl rfl (takenApart_set h.taken hstage)

theorem guarded_endTask (h : Guarded world) (task : Nat) : Guarded (world.endTask task) := by
  have hsame : Heeds world.registry (world.endTask task).registry := .refl _
  exact h.change hsame rfl rfl (takenApart_delete h.taken task)

theorem guarded_registry (h : Guarded world) {registry : Registry}
    {flushes : OrderedMap Nat ObservationFlush} (hheeds : Heeds world.registry registry) :
    Guarded { world with registry, flushes } :=
  h.change hheeds rfl rfl h.taken

theorem guarded_detached (h : Guarded world) (task : Nat) (ids : List JsString) :
    Guarded (world.detached task ids) := by
  obtain ⟨hheeds, hparted⟩ := parted_detach h.single ids
  have hleft : Guarded { world with registry := (detach world.registry ids).1 } :=
    h.change hheeds rfl rfl h.taken
  apply guarded_setTask hleft
  intro promise pending removed hstage
  injection hstage with _ _ hremoved
  rw [← hremoved]
  exact hparted.apart

theorem guarded_restored (h : Guarded world) {task promise : Nat}
    {pending : List (JsString × Option (List BufferMutation))} {removed : List SessionRecord}
    (htask : world.discards.get? task = some (.deleting promise pending removed))
    (hrival : NoRival world.registry removed) :
    Guarded (world.restored task pending removed) := by
  have hheeds := heeds_restore pending (h.taken _ _ _ _ htask) hrival
  have hback : Guarded
      { world with registry := removed.foldl (restoreOne pending) world.registry } :=
    h.change hheeds rfl rfl h.taken
  apply guarded_setTask hback
  intro promise pending removed hstage
  cases hstage

theorem guarded_storeSettles (h : Guarded world) {succeeds : Bool}
    (hstep : world.storeSettles succeeds = some next) : Guarded next := by
  have hsaved := h.saved
  unfold storeSettles at hstep
  split at hstep
  · rename_i save hdrain
    rw [hdrain] at hsaved
    split at hstep
    · obtain ⟨after, hcommit, rfl⟩ := Option.map_eq_some_iff.1 hstep
      obtain ⟨hapart, htracks⟩ := hsaved.2 after hcommit
      exact ⟨h.keyed, h.single, hapart, h.taken, htracks⟩
    · cases hstep
      exact h.drained hsaved.1
  · cases hstep

theorem heeds_unqueue (appends : List JournalAppend) (registry : Registry) :
    Heeds registry (appends.foldl unqueue registry) := by
  induction appends generalizing registry with
  | nil => exact .refl registry
  | cons append appends ih =>
      apply Heeds.trans _ (ih _)
      unfold unqueue
      split
      · exact .refl registry
      · exact .of_eq rfl (fun _ h => h) rfl

theorem guarded_commitReturns (h : Guarded world)
    (hstep : world.commitReturns = some next) : Guarded next := by
  have hsaved := h.saved
  unfold commitReturns at hstep
  split at hstep
  · rename_i save hdrain
    cases hstep
    rw [hdrain] at hsaved
    have hheeds := heeds_unqueue save.batch.appends world.registry
    exact ⟨hheeds.keyed h.keyed, hheeds.single h.single, h.stored, h.taken,
      Tracks.heeds hsaved hheeds⟩
  · rename_i save hdrain
    cases hstep
    rw [hdrain] at hsaved
    refine ⟨h.keyed, h.single, h.stored, h.taken, ?_⟩
    intro id hash hcontinues
    show _ ∨ ((id ∈ world.registry.dirty.addAll save.ids ∨ id ∈ []) ∧ _) ∨
      id ∈ world.registry.deleted.addAll save.batch.deleted ∨ id ∈ []
    rw [OrderedSet.mem_addAll, OrderedSet.mem_addAll]
    rcases hsaved id hash hcontinues with hsame | ⟨hwaits, hget⟩ | hgone
    · exact Or.inl hsame
    · exact Or.inr (Or.inl ⟨Or.inl hwaits.symm, hget⟩)
    · exact Or.inr (Or.inr (Or.inl hgone.symm))
  · cases hstep

theorem guarded_drainContinues (h : Guarded world)
    (hstep : world.drainContinues = some next) : Guarded next := by
  have hsaved := h.saved
  unfold drainContinues at hstep
  split at hstep
  · rename_i waiters saved hdrain
    cases hstep
    rw [hdrain] at hsaved
    simp only
    split
    · exact h.drained hsaved
    · exact guarded_startSave ⟨h.keyed, h.single, h.stored, h.taken, h.saved⟩ hsaved
  · cases hstep

theorem guarded_answerCheckpoint (h : Guarded world) {promise : Nat}
    {result : CheckpointResult}
    (hstep : answerCheckpoint options world promise result = some next) : Guarded next := by
  unfold answerCheckpoint at hstep
  split at hstep
  · rename_i loop _
    split at hstep
    · have hheeds := checkpointAnswered_heeds options world.registry promise loop result
        world.registry.nextId
      generalize checkpointAnswered options world.registry promise loop result
        world.registry.nextId = answered at hstep hheeds
      obtain ⟨registry, saves⟩ := answered
      cases hstep
      split
      · exact guarded_persist (guarded_registry h hheeds)
      · exact guarded_registry h hheeds
    · cases hstep
  · cases hstep

theorem guarded_resumeLoop (h : Guarded world) {promise : Nat} {now : Int} {uuid : JsString}
    (hstep : world.resumeLoop promise now uuid = some next) : Guarded next := by
  unfold resumeLoop at hstep
  split at hstep
  · split at hstep
    · cases hstep
    · obtain ⟨saved, -, rfl⟩ := Option.map_eq_some_iff.1 hstep
      exact guarded_registry h (checkpointSaved_heeds _ _ _ _ _ _ _)
    · cases hstep
      exact guarded_registry h (loopFinished_heeds _ _ _)
  · cases hstep

theorem guarded_continueFlush (h : Guarded world) (task : Nat) (flush : ObservationFlush)
    (now : Int) (uuid : JsString) : Guarded (world.continueFlush task flush now uuid) :=
  guarded_registry h (flushRound_heeds world.registry flush now uuid)

theorem guarded_startFlush (h : Guarded world) (sessionId : JsString) (now : Int)
    (uuid : JsString) : Guarded (startFlush options world sessionId now uuid) := by
  unfold startFlush
  split
  · exact h
  · apply guarded_continueFlush
    exact guarded_registry h (.of_eq rfl (fun _ h => h) rfl)

theorem guarded_boot {store : JournalStore} (hstore : StoresApart store) (nextId : Nat) :
    Guarded (boot store nextId) := by
  obtain ⟨hkeyed, hsingle⟩ := load_apart hstore.oneStored { Registry.empty with nextId }
  refine ⟨hkeyed, hsingle, hstore, ?_, ?_⟩
  · intro task promise pending removed htask
    cases htask
  · intro id hash hcontinues
    obtain ⟨record, hsession, -⟩ := Option.bind_eq_some_iff.1 hcontinues
    have hread : record ∈ store.read := by
      unfold JournalStore.read
      rw [List.mem_mergeSort]
      exact OrderedMap.mem_values_iff.2 ⟨id, hsession⟩
    have hwaits := load_waits store.read { Registry.empty with nextId } record hread
    rw [hstore.keyed id record hsession] at hwaits
    exact Or.inr (Or.inl ⟨Or.inl hwaits.1, hwaits.2⟩)

/-- A rollback of the step meets no rival of what it puts back. -/
def Unrivalled (world : World) (action : Action) : Prop :=
  NoRival world.registry (world.rolledBack action)

instance (world : World) (action : Action) : Decidable (world.Unrivalled action) :=
  inferInstanceAs (Decidable (NoRival _ _))

theorem guarded_step (h : Guarded world) {action : Action} (hrival : world.Unrivalled action)
    (hstep : world.step P options action = some next) : Guarded next := by
  cases action with
  | call made clock uuid =>
      simp only [step] at hstep
      split at hstep
      · cases hstep
      · cases hstep
        exact h.change (RegistryCall.run_heeds clock uuid world.registry made) rfl rfl h.taken
  | persist =>
      cases hstep
      exact guarded_persist h
  | discardPersisted ids =>
      cases hstep
      apply guarded_persist
      apply guarded_setTask h
      intro promise pending removed hstage
      cases hstage
  | resumeDiscard task =>
      cases (move_resumeDiscard hstep : Move P options world _ next) with
      | detach htask _ => exact guarded_persist (guarded_detached h task _)
      | restore htask hfailed =>
          rw [Unrivalled, rolledBack_eq htask hfailed] at hrival
          exact guarded_persist (guarded_restored h htask hrival)
      | finish => exact guarded_endTask h task
      | observe hobserves => cases hobserves
  | storeSettles succeeds => exact guarded_storeSettles h hstep
  | commitReturns => exact guarded_commitReturns h hstep
  | drainContinues => exact guarded_drainContinues h hstep
  | answerCheckpoint promise result => exact guarded_answerCheckpoint h hstep
  | resumeLoop promise now uuid => exact guarded_resumeLoop h hstep
  | flushObservation sessionId now uuid =>
      cases hstep
      exact guarded_startFlush h sessionId now uuid
  | resumeFlush task now uuid =>
      change world.resumeFlush task now uuid = some next at hstep
      unfold resumeFlush at hstep
      split at hstep
      · cases hstep
      · split at hstep
        · split at hstep
          · cases hstep
          · cases hstep
            exact guarded_registry h (.of_eq rfl (fun _ h => h) rfl)
        · cases hstep
          exact guarded_continueFlush h task _ now uuid
  | crash =>
      cases hstep
      exact guarded_boot h.stored _

end World

/-! ## The registry that writes its snapshot -/

namespace Process

variable {process next : Process}

structure Guarded (process : Process) : Prop where
  keyed : Keyed process.registry
  single : Single process.registry.continues
  taken : TakenApart process.discards

theorem Guarded.change (h : Guarded process) (hheeds : Heeds process.registry next.registry)
    (htaken : TakenApart next.discards) : Guarded next :=
  ⟨hheeds.keyed h.keyed, hheeds.single h.single, htaken⟩

theorem guarded_persist (h : Guarded process) : Guarded process.persist :=
  h.change (.rename process.registry _) h.taken

theorem guarded_registry (h : Guarded process) {registry : Registry}
    {flushes : OrderedMap Nat ObservationFlush} (hheeds : Heeds process.registry registry) :
    Guarded { process with registry, flushes } :=
  h.change hheeds h.taken

theorem guarded_boot {snapshot : List SessionRecord} (h : OneStored snapshot) (nextId : Nat) :
    Guarded (boot snapshot nextId) := by
  obtain ⟨hkeyed, hsingle⟩ := load_apart h { Registry.empty with nextId }
  refine ⟨hkeyed, hsingle, ?_⟩
  intro task promise pending removed htask
  cases htask

/-- The sessions that a step puts back into the registry. -/
def rolledBack (process : Process) : Action → List SessionRecord
  | .resumeDiscard task =>
      match process.discards.get? task with
      | some (.deleting promise _ removed) =>
          if process.outcomes.get? promise = some false then removed else []
      | _ => []
  | _ => []

theorem guarded_resumeDiscard (h : Guarded process) {task : Nat}
    (hrival : NoRival process.registry (process.rolledBack (.resumeDiscard task)))
    (hstep : process.resumeDiscard task = some next) : Guarded next := by
  have hend : Guarded (process.endTask task) :=
    ⟨h.keyed, h.single, takenApart_delete h.taken task⟩
  unfold resumeDiscard at hstep
  split at hstep
  · cases hstep
  · rename_i promise ids htask
    obtain ⟨saved, -, rfl⟩ := Option.map_eq_some_iff.1 hstep
    split
    · obtain ⟨hheeds, hparted⟩ := parted_detach h.single ids
      have hdetached : Guarded (process.detached task ids) := by
        apply h.change (hheeds : Heeds _ (process.detached task ids).registry)
        apply takenApart_set h.taken
        intro promise pending removed hstage
        injection hstage with _ _ hremoved
        rw [← hremoved]
        exact hparted.apart
      exact guarded_persist hdetached
    · exact hend
  · rename_i promise pending removed htask
    obtain ⟨saved, hsaved, rfl⟩ := Option.map_eq_some_iff.1 hstep
    split
    · exact hend
    · rename_i hfailed
      have hrolled : process.rolledBack (.resumeDiscard task) = removed := by
        simp only [rolledBack, htask]
        rw [hsaved, if_pos (congrArg some (Bool.eq_false_of_not_eq_true hfailed))]
      rw [hrolled] at hrival
      have hheeds := heeds_restore pending (h.taken _ _ _ _ htask) hrival
      have hrestored : Guarded (process.restored task pending removed) := by
        apply h.change (hheeds : Heeds _ (process.restored task pending removed).registry)
        apply takenApart_set h.taken
        intro promise pending removed hstage
        cases hstage
      exact guarded_persist hrestored
  · obtain ⟨saved, -, rfl⟩ := Option.map_eq_some_iff.1 hstep
    exact hend

theorem guarded_continueFlush (h : Guarded process) (task : Nat) (flush : ObservationFlush)
    (now : Int) (uuid : JsString) : Guarded (process.continueFlush task flush now uuid) :=
  guarded_registry h (flushRound_heeds process.registry flush now uuid)

theorem guarded_step (h : Guarded process) {action : Action}
    (hruns : SnapshotProcess.runs action = true)
    (hrival : NoRival process.registry (process.rolledBack action))
    (hstep : process.step P options action = some next) : Guarded next := by
  cases action with
  | call made clock uuid =>
      cases hstep
      exact guarded_registry h (RegistryCall.run_heeds clock uuid process.registry made)
  | persist =>
      cases hstep
      exact guarded_persist h
  | queue queues => cases hruns
  | settle waiters saved =>
      cases hstep
      exact ⟨h.keyed, h.single, h.taken⟩
  | discardPersisted ids =>
      cases hstep
      apply guarded_persist
      refine ⟨h.keyed, h.single, takenApart_set h.taken ?_⟩
      intro promise pending removed hstage
      cases hstage
  | resumeDiscard task => exact guarded_resumeDiscard h hrival hstep
  | answerCheckpoint promise result =>
      change answerCheckpoint options process promise result = some next at hstep
      unfold answerCheckpoint at hstep
      split at hstep
      · rename_i loop _
        split at hstep
        · have hheeds := checkpointAnswered_heeds options process.registry promise loop result
            process.registry.nextId
          generalize checkpointAnswered options process.registry promise loop result
            process.registry.nextId = answered at hstep hheeds
          obtain ⟨registry, saves⟩ := answered
          cases hstep
          split
          · exact guarded_persist (guarded_registry h hheeds)
          · exact guarded_registry h hheeds
        · cases hstep
      · cases hstep
  | resumeLoop promise now uuid =>
      change process.resumeLoop promise now uuid = some next at hstep
      unfold resumeLoop at hstep
      split at hstep
      · split at hstep
        · cases hstep
        · obtain ⟨saved, -, rfl⟩ := Option.map_eq_some_iff.1 hstep
          exact guarded_registry h (checkpointSaved_heeds _ _ _ _ _ _ _)
        · cases hstep
          exact guarded_registry h (loopFinished_heeds _ _ _)
      · cases hstep
  | flushObservation sessionId now uuid =>
      cases hstep
      unfold startFlush
      split
      · exact h
      · apply guarded_continueFlush
        exact guarded_registry h (.of_eq rfl (fun _ h => h) rfl)
  | resumeFlush task now uuid =>
      change process.resumeFlush task now uuid = some next at hstep
      unfold resumeFlush at hstep
      split at hstep
      · cases hstep
      · split at hstep
        · split at hstep
          · cases hstep
          · cases hstep
            exact guarded_registry h (.of_eq rfl (fun _ h => h) rfl)
        · cases hstep
          exact guarded_continueFlush h task _ now uuid
  | crash snapshot => cases hruns

end Process

namespace SnapshotProcess

variable {state next : SnapshotProcess}

structure Guarded (state : SnapshotProcess) : Prop where
  process : state.process.Guarded
  stored : OneStored state.stored
  writing : ∀ snapshot ∈ state.writing, OneStored snapshot

theorem oneStored_values (hkeyed : Keyed registry) (hsingle : Single registry.continues) :
    OneStored registry.sessions.values := by
  have hcontinues : ∀ {record hash}, record ∈ registry.sessions.values →
      record.continues = some hash → registry.continues record.sessionId = some hash := by
    intro record hash hrecord hcontinues
    exact (registry_continues (get_of_mem_values hkeyed hrecord)).trans hcontinues
  intro hash first hfirst last hlast hshared hshared'
  exact hsingle _ _ hash (hcontinues hfirst hshared) (hcontinues hlast hshared')

/-- A rollback of the step meets no rival of what it puts back. -/
def Unrivalled (state : SnapshotProcess) : Action → Prop
  | .act action => NoRival state.process.registry (state.process.rolledBack action)
  | _ => True

theorem guarded_step (h : Guarded state) {action : Action} (hrival : state.Unrivalled action)
    (hstep : state.step P options action = some next) : Guarded next := by
  cases action with
  | act action =>
      simp only [step] at hstep
      split at hstep
      · rename_i hruns
        obtain ⟨process, hprocess, rfl⟩ := Option.map_eq_some_iff.1 hstep
        exact ⟨Process.guarded_step h.process hruns hrival hprocess, h.stored, h.writing⟩
      · cases hstep
  | write =>
      simp only [step] at hstep
      split at hstep
      · cases hstep
        refine ⟨h.process, h.stored, ?_⟩
        intro snapshot hsnapshot
        cases hsnapshot
        exact oneStored_values h.process.keyed h.process.single
      · cases hstep
  | writeSettles succeeds =>
      simp only [step] at hstep
      split at hstep
      · cases hstep
      · rename_i snapshot hwriting
        cases hstep
        refine ⟨h.process, ?_, fun snapshot hsnapshot => by cases hsnapshot⟩
        cases succeeds with
        | true => exact h.writing snapshot hwriting
        | false => exact h.stored
  | crash =>
      cases hstep
      exact ⟨Process.guarded_boot h.stored _, h.stored, fun snapshot hsnapshot => by
        cases hsnapshot⟩

theorem guarded_run {last : SnapshotProcess} (h : Guarded state)
    (run : Library.Run (step P options) Unrivalled state last) : Guarded last :=
  run.invariant (fun _ _ _ h hrival hstep => guarded_step h hrival hstep) h

end SnapshotProcess

namespace World

theorem guarded_run {first world : World} (h : Guarded first)
    (run : Run P options Unrivalled first world) : Guarded world := by
  induction run with
  | refl => exact h
  | step _ hrival hstep ih => exact guarded_step ih hrival hstep

theorem storesApart_empty : StoresApart .empty where
  keyed id record h := by cases h
  single first last hash h := by cases h

/-- Where no rollback meets a rival, a record has at most one active continuation,
over the journal and over a storage of snapshots. -/
theorem oneActive_run (P : Platform) (options : RegistryOptions) (nextId : Nat) :
    (∀ world, Run P options Unrivalled (boot .empty nextId) world → OneActive world.registry) ∧
      ∀ state, Library.Run (SnapshotProcess.step P options) SnapshotProcess.Unrivalled
        (.boot [] nextId) state → OneActive state.process.registry := by
  refine ⟨?_, ?_⟩
  · intro world run
    have hguarded := guarded_run (guarded_boot storesApart_empty nextId) run
    exact oneActive_iff.2 hguarded.single
  · intro state run
    have hnone : OneStored [] := fun hash first hfirst => absurd hfirst List.not_mem_nil
    have hfirst : SnapshotProcess.Guarded (.boot [] nextId) :=
      ⟨Process.guarded_boot hnone nextId, hnone, fun snapshot h => by cases h⟩
    exact oneActive_iff.2 (SnapshotProcess.guarded_run hfirst run).process.single

/-! ## A continuation that comes back -/

def firstContinuation : JsString := js "00000000-0000-4000-8000-000000000003"

def secondContinuation : JsString := js "00000000-0000-4000-8000-000000000004"

def uploadWriting : List Action :=
  [startWriting, typeLetter, .call (.sign exampleSession none) exampleClock spareUuid,
    .call (.markUploading exampleSession) exampleClock spareUuid,
    .call (.markUploaded exampleSession ⟨js "record", js "signature", js "url", true⟩)
      exampleClock spareUuid]

def continueAs (uuid : JsString) : Action :=
  .call (.continueFrom exampleSession ⟨none, none⟩) exampleClock uuid

/-- The continuation is discarded, and the deletion fails. -/
def failedDiscard (meanwhile : List Action) : List Action :=
  uploadWriting ++ [continueAs firstContinuation, .discardPersisted [firstContinuation]] ++
    commitEnds true ++ [.resumeDiscard 2] ++ meanwhile ++ commitEnds false ++ [.resumeDiscard 2]

/-- A second continuation starts while the first one is being deleted. -/
theorem not_oneActive_rivalRollback :
    ¬ ∀ world, Run Platform.standard exampleOptions (fun _ _ => True)
        (boot .empty 0) world → OneActive world.registry := by
  intro h
  have hboth : (steps Platform.standard exampleOptions (fun _ _ => True) (boot .empty 0)
      (failedDiscard [continueAs secondContinuation])).any (fun world =>
        world.registry.continues firstContinuation = some (js "record") ∧
          world.registry.continues secondContinuation = some (js "record")) = true := by
    decide +kernel
  obtain ⟨world, hworld, hcheck⟩ := (Option.any_eq_true _ _).1 hboth
  obtain ⟨hfirst, hsecond⟩ := of_decide_eq_true hcheck
  have hsingle := oneActive_iff.1 (h world ((Run.refl _).steps hworld))
  exact absurd (hsingle _ _ _ hfirst hsecond) (by decide)

/-- The first continuation comes back alone. -/
theorem oneActive_loneRollback :
    ∃ world, steps Platform.standard exampleOptions Unrivalled (boot .empty 0)
        (failedDiscard []) = some world ∧ OneActive world.registry := by
  obtain ⟨world, hworld⟩ := Option.isSome_iff_exists.1
    (show (steps Platform.standard exampleOptions Unrivalled (boot .empty 0)
      (failedDiscard [])).isSome = true by decide +kernel)
  exact ⟨world, hworld,
    (oneActive_run Platform.standard exampleOptions 0).1 world ((Run.refl _).steps hworld)⟩

end World

end Pmbah.Producer
