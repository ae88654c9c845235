import Pmbah.Producer.Invariant

/-!
# Saves and discards keep the invariant

The steps of `persist`, of the storage behind it and of `discardPersisted`.  One
of them needs a condition: a rollback must find the deletion it takes back still
queued.
-/

namespace Pmbah.Producer

open Js Format Library

namespace World

variable {P : Platform} {options : RegistryOptions} {world next : World}

/-! ## Without a commit -/

theorem not_inFlight (h : world.drain.save? = none) (change : JournalAppend) :
    ¬ world.InFlight change := by
  rintro ⟨save, hsave, -⟩
  rw [h] at hsave
  cases hsave

theorem not_landed (h : world.drain.save? = none) (change : JournalAppend) :
    ¬ world.Landed change := by
  rintro ⟨save, hdrain, -⟩
  rw [hdrain] at h
  cases h

theorem not_deleting (h : world.drain.save? = none) (id : JsString) : ¬ world.Deleting id := by
  rintro ⟨save, hsave, -⟩
  rw [h] at hsave
  cases hsave

theorem not_clearing (h : world.drain.save? = none) (id : JsString) : ¬ world.Clearing id := by
  rintro ⟨save, hsave, -⟩
  rw [h] at hsave
  cases hsave

theorem recoverable_iff (h : world.drain.save? = none) (id : JsString) :
    world.Recoverable id ↔ id ∈ world.registry.deleted :=
  or_iff_left fun hback => not_deleting h id hback.1

/-- A step between two states without a commit, over the same registry. -/
theorem inv_quiet (hinv : Inv P world) (hbefore : world.drain.save? = none)
    (hafter : next.drain.save? = none) (hregistry : next.registry = world.registry)
    (hstore : next.store = world.store) (hdiscards : next.discards = world.discards)
    (haccepted : next.accepted = world.accepted) (hlanded : next.landed = world.landed) :
    Inv P next := by
  have hheld : ∀ {record queue}, next.Held record queue → world.Held record queue := by
    intro record queue h
    cases h with
    | live hget =>
        rw [hregistry] at hget ⊢
        exact .live hget
    | detached htask hrecord hback =>
        rw [recoverable_iff hafter, hregistry, ← recoverable_iff hbefore] at hback
        rw [hdiscards] at htask
        exact .detached htask hrecord hback
  refine ⟨?_, ?_, ?_, ?_, ?_, ?_, ?_, ?_, ?_, ?_⟩
  · rw [hregistry]
    exact hinv.keyed
  · rw [hregistry]
    exact hinv.queued
  · rw [hstore]
    exact hinv.durable
  · intro id record hget
    rw [hregistry] at hget ⊢
    exact ⟨(hinv.kept id record hget).1, not_deleting hafter id⟩
  · intro record queue h hanchor
    have hplaced := hinv.placed record queue (hheld h) hanchor
    refine ⟨?_, ?_, ?_, ?_, ?_, ?_, ?_⟩
    · rw [haccepted]
      exact hplaced.describes
    · rw [haccepted, hstore]
      exact hplaced.rows
    · rw [haccepted]
      exact hplaced.ends
    · rw [haccepted, hstore]
      exact hplaced.covers
    · rw [haccepted, hstore, hlanded]
      exact hplaced.balanced
    · exact fun change hchange => absurd hchange (not_landed hafter change)
    · exact fun change hchange => absurd hchange (not_inFlight hafter change)
  · intro record queue h hclear
    rcases hclear with hmem | hclearing
    · rw [hregistry] at hmem
      exact hinv.anchored record queue (hheld h) (Or.inl hmem)
    · exact absurd hclearing (not_clearing hafter _)
  · rw [hregistry]
    exact hinv.clear
  · intro save hsave
    rw [hafter] at hsave
    cases hsave
  · intro task promise pending removed htask
    rw [hdiscards] at htask
    have hdetached := hinv.detached task promise pending removed htask
    refine ⟨hdetached.distinct, ?_, fun record _ _ => not_deleting hafter _⟩
    rw [hregistry]
    exact hdetached.gone
  · rw [hdiscards]
    exact hinv.apart

/-! ## A save starts -/

theorem mem_nextBatch_sessions {registry : Registry} {session : SessionRecord} :
    session ∈ (nextBatch registry).sessions ↔
      ∃ id ∈ registry.dirty, registry.get id = some session :=
  List.mem_filterMap

theorem mem_nextBatch_appends {registry : Registry} {change : JournalAppend} :
    change ∈ (nextBatch registry).appends ↔ change.sessionId ∈ registry.dirty ∧
      change.events ≠ [] ∧ change.events = registry.pending change.sessionId := by
  show change ∈ registry.dirty.members.filterMap _ ↔ _
  rw [List.mem_filterMap]
  constructor
  · rintro ⟨id, hid, h⟩
    split at h
    · cases h
    · rename_i hne
      cases Option.some.inj h
      exact ⟨hid, hne, rfl⟩
  · rintro ⟨hdirty, hne, heq⟩
    refine ⟨change.sessionId, hdirty, ?_⟩
    rw [if_neg (by rwa [← heq]), ← heq]

theorem nextBatch_distinct {registry : Registry} (hkeyed : Keyed registry) :
    (nextBatch registry).Distinct where
  appends := by
    have hids : (nextBatch registry).appends.map JournalAppend.sessionId =
        registry.dirty.members.filter fun id => registry.pending id ≠ [] := by
      unfold nextBatch
      simp only
      rw [List.map_filterMap, ← List.filterMap_eq_filter]
      apply List.filterMap_congr
      intro id _
      by_cases hid : registry.pending id = []
      · simp [hid, Option.guard]
      · simp [hid]
    rw [hids]
    exact registry.dirty.nodup.filter _
  sessions := by
    have hids : (nextBatch registry).sessions.map SessionRecord.sessionId =
        registry.dirty.members.filter fun id => (registry.get id).isSome := by
      unfold nextBatch
      simp only
      rw [List.map_filterMap, ← List.filterMap_eq_filter]
      apply List.filterMap_congr
      intro id _
      cases hget : registry.get id with
      | none => simp [hget, Option.guard]
      | some session => simp [hget, hkeyed id session hget]
    rw [hids]
    exact registry.dirty.nodup.filter _

theorem mem_nextBatch_sessionIds {registry : Registry} (hkeyed : Keyed registry)
    {id : JsString} :
    id ∈ (nextBatch registry).sessions.map SessionRecord.sessionId ↔
      id ∈ registry.dirty ∧ (registry.get id).isSome = true := by
  rw [List.mem_map]
  constructor
  · rintro ⟨session, hsession, rfl⟩
    obtain ⟨id, hid, hget⟩ := mem_nextBatch_sessions.1 hsession
    rw [hkeyed id session hget, hget]
    exact ⟨hid, rfl⟩
  · rintro ⟨hdirty, hsome⟩
    obtain ⟨session, hget⟩ := Option.isSome_iff_exists.1 hsome
    exact ⟨session, mem_nextBatch_sessions.2 ⟨id, hdirty, hget⟩, hkeyed id session hget⟩

theorem isSome_get_of_pending (hinv : Inv P world) {id : JsString}
    (h : world.registry.pending id ≠ []) : (world.registry.get id).isSome = true := by
  by_contra hnone
  rw [Option.not_isSome_iff_eq_none] at hnone
  apply h
  rw [Registry.pending, hinv.queued id hnone]
  rfl

/-- If the next commit goes through, every session it names describes its rows. -/
theorem durable_nextBatch (hinv : Inv P world) {store : JournalStore}
    (h : world.store.Committed (nextBatch world.registry) store) : Durable P store := by
  have hkept : ∀ {id}, id ∉ world.registry.deleted → id ∉ world.registry.clearEvents →
      world.store.rowsKept (nextBatch world.registry) id = world.store.events id := by
    intro id hdeleted hclear
    exact if_neg fun hmem => (List.mem_append.1 hmem).elim hdeleted hclear
  have hput : ∀ {id}, id ∈ (nextBatch world.registry).sessions.map SessionRecord.sessionId →
      ∃ session, world.registry.get id = some session ∧ store.session id = some session := by
    intro id hid
    obtain ⟨session, hsession, rfl⟩ := List.mem_map.1 hid
    obtain ⟨other, -, hget⟩ := mem_nextBatch_sessions.1 hsession
    rw [hinv.keyed other session hget]
    refine ⟨session, hget, ?_⟩
    have := h.put session hsession
    rwa [hinv.keyed other session hget] at this
  have happend : ∀ {id},
      id ∈ (nextBatch world.registry).appends.map JournalAppend.sessionId →
        id ∈ (nextBatch world.registry).sessions.map SessionRecord.sessionId := by
    intro id hid
    obtain ⟨change, hchange, rfl⟩ := List.mem_map.1 hid
    obtain ⟨hdirty, hne, heq⟩ := mem_nextBatch_appends.1 hchange
    rw [mem_nextBatch_sessionIds hinv.keyed]
    exact ⟨hdirty, isSome_get_of_pending hinv (by rwa [← heq])⟩
  refine ⟨?_, ?_, ?_⟩
  · intro id hrows
    by_cases hid : id ∈ (nextBatch world.registry).sessions.map SessionRecord.sessionId
    · obtain ⟨session, -, hsession⟩ := hput hid
      rw [hsession]
      rfl
    · rw [h.kept id fun hmem => hid (happend hmem)] at hrows
      unfold JournalStore.rowsKept at hrows
      split at hrows
      · exact absurd rfl hrows
      · rename_i hmem
        rw [h.untouched id hid, if_neg fun hdeleted => hmem (List.mem_append_left _ hdeleted)]
        exact hinv.durable.owned id hrows
  · intro id session hsession
    by_cases hid : id ∈ (nextBatch world.registry).sessions.map SessionRecord.sessionId
    · obtain ⟨kept, hget, hkeep⟩ := hput hid
      rw [hkeep, Option.some.injEq] at hsession
      rw [← hsession]
      exact hinv.keyed id kept hget
    · rw [h.untouched id hid] at hsession
      split at hsession
      · cases hsession
      · exact hinv.durable.keyed id session hsession
  · intro id session hsession hanchor
    by_cases hid : id ∈ (nextBatch world.registry).sessions.map SessionRecord.sessionId
    · -- The rows of a saved session become its whole log.
      obtain ⟨kept, hget, hkeep⟩ := hput hid
      rw [hkeep, Option.some.injEq] at hsession
      subst hsession
      have hkeyed := hinv.keyed id kept hget
      have hplaced := hinv.placed kept _ (.live hget) hanchor
      have hclear : id ∉ world.registry.clearEvents := by
        intro hmem
        have := hinv.anchored kept _ (.live hget) (Or.inl (hkeyed.symm ▸ hmem))
        rw [hanchor] at this
        cases this
      have hrows := hkept (hinv.kept id kept hget).1 hclear
      obtain ⟨hdescribes, hbegins, hends, hcovers, -, -, -⟩ := hplaced
      rw [hkeyed] at hdescribes hbegins hends hcovers
      by_cases hempty : world.registry.pending id = []
      · have hnot : id ∉ (nextBatch world.registry).appends.map JournalAppend.sessionId := by
          intro hmem
          obtain ⟨change, hchange, rfl⟩ := List.mem_map.1 hmem
          obtain ⟨-, hne, heq⟩ := mem_nextBatch_appends.1 hchange
          exact hne (heq.trans hempty)
        rw [h.kept id hnot, hrows]
        rw [hempty, List.length_nil, Nat.add_zero] at hcovers
        rwa [hbegins.eq_of_length_le hcovers]
      · have hchange : (⟨id, world.registry.pending id⟩ : JournalAppend) ∈
            (nextBatch world.registry).appends := by
          obtain ⟨hdirty, -⟩ := (mem_nextBatch_sessionIds hinv.keyed).1 hid
          exact mem_nextBatch_appends.2 ⟨hdirty, hempty, rfl⟩
        have hadd := h.appended _ hchange
        rw [hrows] at hadd
        obtain ⟨hafter, hlength, -⟩ := RowTable.addAll_covering hdescribes.numbered hbegins
          hends hcovers (List.prefix_refl _) hadd
        have hle : (world.accepted id).length ≤ (store.events id).length := by
          rw [hlength]
          exact hcovers
        rwa [hafter.eq_of_length_le hle]
    · rw [h.untouched id hid] at hsession
      split at hsession
      · cases hsession
      · rename_i hdeleted
        have hclear : id ∉ world.registry.clearEvents := by
          intro hmem
          rcases hinv.clear id hmem with hmem | hlive
          · exact hdeleted hmem
          · exact hid ((mem_nextBatch_sessionIds hinv.keyed).2 hlive)
        rw [h.kept id fun hmem => hid (happend hmem), hkept hdeleted hclear]
        exact hinv.durable.described id session hsession hanchor

/-- Everything that waits to be saved is in the batch, or nothing does. -/
theorem inv_startSave (hinv : Inv P world) (hidle : world.drain.save? = none) :
    Inv P world.startSave := by
  unfold startSave
  simp only
  split
  · exact inv_quiet hinv hidle rfl rfl rfl rfl rfl rfl
  · let save : Save := ⟨nextBatch world.registry, world.registry.dirty.members, world.waiters⟩
    let started : World :=
      { world with
        registry :=
          { world.registry with
            dirty := world.registry.dirty.deleteAll world.registry.dirty.members
            deleted := world.registry.deleted.deleteAll world.registry.deleted.members
            clearEvents :=
              world.registry.clearEvents.deleteAll world.registry.clearEvents.members }
        drain := .committing save
        waiters := [] }
    show Inv P started
    have hdeleted : ∀ id, id ∉ started.registry.deleted := fun id hid =>
      (OrderedSet.mem_deleteAll.1 hid).1 (OrderedSet.mem_deleteAll.1 hid).2
    have hclear : ∀ id, id ∉ started.registry.clearEvents := fun id hid =>
      (OrderedSet.mem_deleteAll.1 hid).1 (OrderedSet.mem_deleteAll.1 hid).2
    have hdeleting : ∀ {id}, started.Deleting id → id ∈ world.registry.deleted := by
      rintro id ⟨_, ⟨rfl⟩, hmem⟩
      exact hmem
    have hclearing : ∀ {id}, started.Clearing id → id ∈ world.registry.clearEvents := by
      rintro id ⟨_, ⟨rfl⟩, hmem⟩
      exact hmem
    have hflight : ∀ {change}, started.InFlight change →
        change.events = world.registry.pending change.sessionId ∧
          (world.registry.get change.sessionId).isSome = true := by
      rintro change ⟨_, ⟨rfl⟩, hmem⟩
      obtain ⟨-, hne, heq⟩ := mem_nextBatch_appends.1 hmem
      exact ⟨heq, isSome_get_of_pending hinv (by rwa [← heq])⟩
    have hlanded : ∀ change, ¬ started.Landed change := by
      rintro change ⟨_, hdrain, -⟩
      cases hdrain
    have hheld : ∀ {record queue}, started.Held record queue → world.Held record queue := by
      intro record queue h
      cases h with
      | live hget => exact .live hget
      | detached htask hrecord hback =>
          refine .detached htask hrecord (Or.inl ?_)
          rcases hback with hmem | htaken
          · exact absurd hmem (hdeleted _)
          · exact hdeleting htaken.1
    refine ⟨hinv.keyed, hinv.queued, hinv.durable, ?_, ?_, ?_, ?_, ?_, ?_, hinv.apart⟩
    · intro id record hget
      exact ⟨hdeleted id, fun htaken => (hinv.kept id record hget).1 (hdeleting htaken)⟩
    · intro record queue h hanchor
      have hplaced := hinv.placed record queue (hheld h) hanchor
      refine ⟨hplaced.describes, hplaced.rows, hplaced.ends, hplaced.covers, hplaced.balanced,
        fun change hchange => absurd hchange (hlanded change), ?_⟩
      intro change hchange hsession
      obtain ⟨hevents, hlive⟩ := hflight hchange
      rw [hevents, hsession]
      cases h with
      | @live id record hget =>
          rw [hinv.keyed id record hget]
          exact List.prefix_refl _
      | detached htask hrecord hback =>
          rw [hsession, (hinv.detached _ _ _ _ htask).gone record hrecord] at hlive
          cases hlive
    · intro record queue h hmem
      apply hinv.anchored record queue (hheld h)
      rcases hmem with hmem | htaken
      · exact absurd hmem (hclear _)
      · exact Or.inl (hclearing htaken)
    · exact fun id hid => absurd hid (hclear id)
    · rintro _ ⟨rfl⟩
      refine ⟨nextBatch_distinct hinv.keyed, fun _ store h => durable_nextBatch hinv h, ?_, ?_⟩
      · intro change hchange
        obtain ⟨hdirty, hne, heq⟩ := mem_nextBatch_appends.1 hchange
        have hlive := isSome_get_of_pending hinv (heq ▸ hne)
        refine ⟨hne, ?_, (mem_nextBatch_sessionIds hinv.keyed).2 ⟨hdirty, hlive⟩⟩
        obtain ⟨record, hget⟩ := Option.isSome_iff_exists.1 hlive
        exact (hinv.kept _ record hget).1
      · intro id hid
        exact (hinv.clear id hid).imp_right fun h => ⟨h.1, Or.inl h.2⟩
    · intro task promise pending removed htask
      have hdetached := hinv.detached task promise pending removed htask
      exact ⟨hdetached.distinct, hdetached.gone,
        fun record _ hmem => absurd hmem (hdeleted _)⟩

theorem inv_wait (hinv : Inv P world) : Inv P world.wait := by
  apply Frame.inv _ hinv
  exact ⟨.rename _ _, rfl, rfl, rfl, rfl, fun _ _ _ _ h => h⟩

theorem inv_kick (hinv : Inv P world) : Inv P world.kick := by
  unfold kick
  split
  · rename_i hidle
    exact inv_startSave hinv (by rw [hidle]; rfl)
  · exact hinv

theorem inv_persist (hinv : Inv P world) : Inv P world.persist := inv_kick (inv_wait hinv)

/-! ## Storage answers -/

/-- Where the rows of a session stand after a commit that leaves the session alone. -/
theorem Placed.committed {save : Save} (hdrain : world.drain = .committing save)
    (hsound : SaveSound P world save) {store : JournalStore}
    (hstore : world.store.Committed save.batch store)
    {record : SessionRecord} {queue : List BufferMutation}
    (hdeleted : record.sessionId ∉ save.batch.deleted)
    (hclear : record.sessionId ∉ save.batch.clearEvents)
    (h : Placed P world record queue) :
    Placed P { world with
      store, drain := .settled save true, landed := world.landed.addAll (appendIds save) }
      record queue := by
  have hkept : world.store.rowsKept save.batch record.sessionId =
      world.store.events record.sessionId :=
    if_neg fun hmem => (List.mem_append.1 hmem).elim hdeleted hclear
  have hflight : ∀ {change}, change ∈ save.batch.appends → world.InFlight change :=
    fun hchange => ⟨save, by rw [hdrain]; rfl, hchange⟩
  by_cases happend : record.sessionId ∈ save.batch.appends.map JournalAppend.sessionId
  · obtain ⟨change, hchange, hsession⟩ := List.mem_map.1 happend
    have hadd := hstore.appended change hchange
    rw [hsession, hkept] at hadd
    obtain ⟨hrows, hlength, hstart⟩ := RowTable.addAll_covering h.describes.numbered h.rows
      h.ends h.covers (h.inFlight change (hflight hchange) hsession) hadd
    have hcovers := h.covers
    refine ⟨h.describes, hrows, h.ends, ?_, ?_, ?_, ?_⟩
    · show (world.accepted record.sessionId).length ≤
        (store.events record.sessionId).length + queue.length
      omega
    · intro hmem
      exact absurd (OrderedSet.mem_addAll.2 (Or.inl happend)) hmem
    · rintro other ⟨_, ⟨rfl⟩, hother⟩ hsame
      have heq : other = change :=
        List.inj_on_of_nodup_map hsound.distinct.appends hother hchange
          (hsame.trans hsession.symm)
      subst heq
      show (store.events record.sessionId).length + queue.length =
        (world.accepted record.sessionId).length + other.events.length
      rcases hstart with hempty | hstart
      · exact absurd hempty (hsound.appends other hother).1
      · omega
    · rintro other ⟨_, ⟨rfl⟩, hother⟩ hsame
      exact h.inFlight other (hflight hother) hsame
  · have hrows : store.events record.sessionId = world.store.events record.sessionId :=
      (hstore.kept _ happend).trans hkept
    have hnot : ∀ {change}, change ∈ save.batch.appends →
        change.sessionId ≠ record.sessionId := by
      intro change hchange hsession
      exact happend (List.mem_map.2 ⟨change, hchange, hsession⟩)
    refine ⟨h.describes, ?_, h.ends, ?_, ?_, ?_, ?_⟩
    · show store.events record.sessionId <+: _
      rw [hrows]
      exact h.rows
    · show _ ≤ (store.events record.sessionId).length + queue.length
      rw [hrows]
      exact h.covers
    · intro hmem
      show (store.events record.sessionId).length + queue.length = _
      rw [hrows]
      exact h.balanced fun hold => hmem (OrderedSet.mem_addAll.2 (Or.inr hold))
    · rintro other ⟨_, ⟨rfl⟩, hother⟩ hsame
      exact absurd hsame (hnot hother)
    · rintro other ⟨_, ⟨rfl⟩, hother⟩ hsame
      exact absurd hsame (hnot hother)

theorem inv_stored (hinv : Inv P world) {save : Save} (hdrain : world.drain = .committing save)
    {store : JournalStore} (hcommit : world.store.commit save.batch = some store) :
    Inv P { world with
      store, drain := .settled save true, landed := world.landed.addAll (appendIds save) } := by
  have hsave : save ∈ world.drain.save? := by
    rw [hdrain]
    rfl
  have hsound := hinv.save save hsave
  have hstore := JournalStore.commit_eq_some hcommit hsound.distinct
  let after : World :=
    { world with
      store, drain := .settled save true, landed := world.landed.addAll (appendIds save) }
  show Inv P after
  have hdeleting : ∀ {id}, after.Deleting id ↔ id ∈ save.batch.deleted := by
    intro id
    exact ⟨by rintro ⟨_, ⟨rfl⟩, hmem⟩; exact hmem, fun hmem => ⟨save, rfl, hmem⟩⟩
  have hdeleting' : ∀ {id}, id ∈ save.batch.deleted → world.Deleting id :=
    fun hmem => ⟨save, hsave, hmem⟩
  have hclearing : ∀ {id}, after.Clearing id → world.Clearing id := by
    rintro id ⟨_, ⟨rfl⟩, hmem⟩
    exact ⟨save, hsave, hmem⟩
  -- What is still held has not been deleted.
  have hheld : ∀ {record queue}, after.Held record queue →
      world.Held record queue ∧ record.sessionId ∉ save.batch.deleted := by
    intro record queue h
    cases h with
    | @live id record hget =>
        refine ⟨.live hget, fun hmem => ?_⟩
        rw [hinv.keyed id record hget] at hmem
        exact (hinv.kept id record hget).2 (hdeleting' hmem)
    | detached htask hrecord hback =>
        rcases hback with hmem | htaken
        · exact ⟨.detached htask hrecord (Or.inl hmem), fun htaken =>
            (hinv.detached _ _ _ _ htask).once record hrecord hmem (hdeleting' htaken)⟩
        · exact absurd rfl (htaken.2 save)
  refine ⟨hinv.keyed, hinv.queued, hsound.durable hdrain store hstore, ?_, ?_, ?_,
    hinv.clear, ?_, ?_, hinv.apart⟩
  · intro id record hget
    have hkept := hinv.kept id record hget
    exact ⟨hkept.1, fun hmem => hkept.2 (hdeleting' (hdeleting.1 hmem))⟩
  · intro record queue h hanchor
    obtain ⟨hold, hdeleted⟩ := hheld h
    refine (hinv.placed record queue hold hanchor).committed hdrain hsound hstore
      hdeleted ?_
    intro hmem
    have := hinv.anchored record queue hold (Or.inr ⟨save, hsave, hmem⟩)
    rw [hanchor] at this
    cases this
  · intro record queue h hmem
    exact hinv.anchored record queue (hheld h).1 (hmem.imp_right hclearing)
  · rintro _ ⟨rfl⟩
    refine ⟨hsound.distinct, ?_, hsound.appends, hsound.cleared⟩
    intro hcommitting
    cases hcommitting
  · intro task promise pending removed htask
    have hdetached := hinv.detached task promise pending removed htask
    refine ⟨hdetached.distinct, hdetached.gone, ?_⟩
    intro record hrecord hmem htaken
    exact hdetached.once record hrecord hmem (hdeleting' (hdeleting.1 htaken))

theorem inv_failed (hinv : Inv P world) {save : Save}
    (hdrain : world.drain = .committing save) :
    Inv P { world with drain := .settled save false } := by
  have hsave : save ∈ world.drain.save? := by
    rw [hdrain]
    rfl
  let after : World := { world with drain := .settled save false }
  show Inv P after
  have hsame : after.drain.save? = world.drain.save? := by
    rw [hdrain]
    rfl
  have hdeleting : after.Deleting = world.Deleting := by
    funext id
    rw [Deleting, Deleting, hsame]
  have hclearing : after.Clearing = world.Clearing := by
    funext id
    rw [Clearing, Clearing, hsame]
  have hflight : after.InFlight = world.InFlight := by
    funext change
    rw [InFlight, InFlight, hsame]
  have hlanded : ∀ change, ¬ after.Landed change := by
    rintro change ⟨_, hlanded, -⟩
    cases hlanded
  have hheld : ∀ {record queue}, after.Held record queue → world.Held record queue := by
    intro record queue h
    cases h with
    | live hget => exact .live hget
    | detached htask hrecord hback =>
        refine .detached htask hrecord (hback.imp_right fun htaken => ⟨?_, ?_⟩)
        · rw [← hdeleting]
          exact htaken.1
        · intro other hother
          rw [hdrain] at hother
          cases hother
  refine ⟨hinv.keyed, hinv.queued, hinv.durable, ?_, ?_, ?_, hinv.clear, ?_, ?_, hinv.apart⟩
  · rw [hdeleting]
    exact hinv.kept
  · intro record queue h hanchor
    have hplaced := hinv.placed record queue (hheld h) hanchor
    refine ⟨hplaced.describes, hplaced.rows, hplaced.ends, hplaced.covers, hplaced.balanced,
      fun change hchange => absurd hchange (hlanded change), ?_⟩
    rw [hflight]
    exact hplaced.inFlight
  · intro record queue h hmem
    rw [hclearing] at hmem
    exact hinv.anchored record queue (hheld h) hmem
  · rintro _ ⟨rfl⟩
    have hsound := hinv.save save hsave
    refine ⟨hsound.distinct, ?_, hsound.appends, hsound.cleared⟩
    intro hcommitting
    cases hcommitting
  · intro task promise pending removed htask
    have hdetached := hinv.detached task promise pending removed htask
    refine ⟨hdetached.distinct, hdetached.gone, ?_⟩
    rw [hdeleting]
    exact hdetached.once

/-! ## `#persistJournal` goes on -/

theorem unqueue_eq (registry : Registry) (change : JournalAppend) :
    ∃ pendingEvents, unqueue registry change = { registry with pendingEvents } ∧
      (∀ id, pendingEvents.get? id =
        if id = change.sessionId then
          (registry.pendingEvents.get? id).map (List.drop change.events.length)
        else registry.pendingEvents.get? id) := by
  unfold unqueue
  split
  · rename_i hnone
    refine ⟨registry.pendingEvents, rfl, ?_⟩
    intro id
    split
    · rename_i heq
      rw [heq, hnone]
      rfl
    · rfl
  · rename_i queue hqueue
    refine ⟨_, rfl, ?_⟩
    intro id
    rw [OrderedMap.get?_set]
    split
    · rename_i heq
      rw [heq, hqueue]
      rfl
    · rfl

/-- Stored events leave the queue of each session that was saved. -/
theorem unqueueAll_eq {changes : List JournalAppend}
    (hnodup : (changes.map JournalAppend.sessionId).Nodup) (registry : Registry) :
    ∃ pendingEvents, changes.foldl unqueue registry = { registry with pendingEvents } ∧
      (∀ change ∈ changes, pendingEvents.get? change.sessionId =
        (registry.pendingEvents.get? change.sessionId).map
          (List.drop change.events.length)) ∧
      ∀ id ∉ changes.map JournalAppend.sessionId,
        pendingEvents.get? id = registry.pendingEvents.get? id := by
  induction changes generalizing registry with
  | nil => exact ⟨registry.pendingEvents, rfl, by simp, fun _ _ => rfl⟩
  | cons change changes ih =>
      rw [List.map_cons, List.nodup_cons] at hnodup
      obtain ⟨first, hfirst, hget⟩ := unqueue_eq registry change
      obtain ⟨last, hlast, hchanged, hrest⟩ := ih hnodup.2 (unqueue registry change)
      rw [hfirst] at hchanged hrest
      refine ⟨last, ?_, ?_, ?_⟩
      · rw [List.foldl_cons, hlast, hfirst]
      · intro entry hentry
        rcases List.mem_cons.1 hentry with rfl | hentry
        · rw [hrest _ hnodup.1]
          exact (hget _).trans (if_pos rfl)
        · rw [hchanged entry hentry]
          have hne : entry.sessionId ≠ change.sessionId := by
            intro heq
            exact hnodup.1 (List.mem_map.2 ⟨entry, hentry, heq⟩)
          exact congrArg _ ((hget _).trans (if_neg hne))
      · intro id hid
        rw [List.map_cons, List.mem_cons, not_or] at hid
        rw [hrest id hid.2]
        exact (hget id).trans (if_neg hid.1)

/-- A session whose stored events leave its queue. -/
theorem Placed.unqueued {save : Save} (hdrain : world.drain = .settled save true)
    {change : JournalAppend} (hchange : change ∈ save.batch.appends) {record : SessionRecord}
    {queue : List BufferMutation} (hsession : change.sessionId = record.sessionId)
    (h : Placed P world record queue) :
    queue.drop change.events.length <:+ world.accepted record.sessionId ∧
      (world.store.events record.sessionId).length +
          (queue.drop change.events.length).length =
        (world.accepted record.sessionId).length := by
  have hlanded := h.landed change ⟨save, hdrain, hchange⟩ hsession
  have hflight := h.inFlight change ⟨save, by rw [hdrain]; rfl, hchange⟩ hsession
  refine ⟨(List.drop_suffix _ _).trans h.ends, ?_⟩
  have := hflight.length_le
  rw [List.length_drop]
  omega

theorem inv_unqueued (hinv : Inv P world) {save : Save}
    (hdrain : world.drain = .settled save true) :
    Inv P { world with
      registry := save.batch.appends.foldl unqueue world.registry
      drain := .returned save.waiters true
      landed := world.landed.deleteAll ((appendIds save).filter fun id =>
        (world.registry.pendingEvents.get? id).isSome) } := by
  have hsave : save ∈ world.drain.save? := by
    rw [hdrain]
    rfl
  have hsound := hinv.save save hsave
  obtain ⟨pendingEvents, hregistry, hchanged, hrest⟩ :=
    unqueueAll_eq hsound.distinct.appends world.registry
  rw [hregistry]
  let after : World :=
    { world with
      registry := { world.registry with pendingEvents }
      drain := .returned save.waiters true
      landed := world.landed.deleteAll ((appendIds save).filter fun id =>
        (world.registry.pendingEvents.get? id).isSome) }
  show Inv P after
  have hquiet : after.drain.save? = none := rfl
  have hback : ∀ {id}, after.Recoverable id → world.Recoverable id :=
    fun h => Or.inl ((recoverable_iff hquiet _).1 h)
  have hplaced : ∀ {record queue}, after.Held record queue →
      record.continuationAnchor = false → Placed P after record queue := by
    intro record queue h hanchor
    cases h with
    | @live id record hget =>
        have hid := hinv.keyed id record hget
        have hold := hinv.placed record _ (.live hget) hanchor
        by_cases happend : id ∈ save.batch.appends.map JournalAppend.sessionId
        · obtain ⟨change, hchange, rfl⟩ := List.mem_map.1 happend
          have hpending : after.registry.pending change.sessionId =
              (world.registry.pending change.sessionId).drop change.events.length := by
            show (pendingEvents.get? change.sessionId).getD [] = _
            rw [hchanged change hchange, Registry.pending]
            cases world.registry.pendingEvents.get? change.sessionId with
            | none => simp
            | some queue => rfl
          rw [hpending]
          obtain ⟨hends, hbalanced⟩ := hold.unqueued hdrain hchange hid.symm
          exact ⟨hold.describes, hold.rows, hends, hbalanced.ge, fun _ => hbalanced,
            fun change hchange => absurd hchange (not_landed hquiet change),
            fun change hchange => absurd hchange (not_inFlight hquiet change)⟩
        · have hpending : after.registry.pending id = world.registry.pending id := by
            show (pendingEvents.get? id).getD [] = _
            rw [hrest id happend]
            rfl
          rw [hpending]
          have hlanded : record.sessionId ∉ after.landed →
              record.sessionId ∉ world.landed := by
            intro hmem hold
            apply hmem
            refine OrderedSet.mem_deleteAll.2 ⟨fun hfilter => ?_, hold⟩
            rw [hid] at hfilter
            exact happend (List.mem_of_mem_filter hfilter)
          exact ⟨hold.describes, hold.rows, hold.ends, hold.covers,
            fun hmem => hold.balanced (hlanded hmem),
            fun change hchange => absurd hchange (not_landed hquiet change),
            fun change hchange => absurd hchange (not_inFlight hquiet change)⟩
    | detached htask hrecord hrecoverable =>
        have hold := hinv.placed record _ (.detached htask hrecord (hback hrecoverable)) hanchor
        have hnone := hinv.queued _ ((hinv.detached _ _ _ _ htask).gone record hrecord)
        have hlanded : record.sessionId ∉ after.landed → record.sessionId ∉ world.landed := by
          intro hmem hold
          apply hmem
          refine OrderedSet.mem_deleteAll.2 ⟨fun hfilter => ?_, hold⟩
          have := (List.mem_filter.1 hfilter).2
          rw [hnone] at this
          cases this
        exact ⟨hold.describes, hold.rows, hold.ends, hold.covers,
          fun hmem => hold.balanced (hlanded hmem),
          fun change hchange => absurd hchange (not_landed hquiet change),
          fun change hchange => absurd hchange (not_inFlight hquiet change)⟩
  refine ⟨hinv.keyed, ?_, hinv.durable, ?_, fun record queue => hplaced, ?_, hinv.clear, ?_, ?_,
    hinv.apart⟩
  · intro id hget
    have hnone := hinv.queued id hget
    by_cases happend : id ∈ save.batch.appends.map JournalAppend.sessionId
    · obtain ⟨change, hchange, rfl⟩ := List.mem_map.1 happend
      show pendingEvents.get? change.sessionId = none
      rw [hchanged change hchange, hnone]
      rfl
    · exact (hrest id happend).trans hnone
  · exact fun id record hget => ⟨(hinv.kept id record hget).1, not_deleting hquiet id⟩
  · intro record queue h hmem
    have hmem := hmem.resolve_right (not_clearing hquiet _)
    cases h with
    | live hget => exact hinv.anchored record _ (.live hget) (Or.inl hmem)
    | detached htask hrecord hrecoverable =>
        exact hinv.anchored record _ (.detached htask hrecord (hback hrecoverable))
          (Or.inl hmem)
  · intro other hother
    cases hother
  · intro task promise pending removed htask
    have hdetached := hinv.detached task promise pending removed htask
    exact ⟨hdetached.distinct, hdetached.gone, fun record _ _ => not_deleting hquiet _⟩

theorem inv_requeued (hinv : Inv P world) {save : Save}
    (hdrain : world.drain = .settled save false) :
    Inv P { world with
      registry := requeue world.registry save, drain := .returned save.waiters false } := by
  have hsave : save ∈ world.drain.save? := by
    rw [hdrain]
    rfl
  have hsound := hinv.save save hsave
  let after : World :=
    { world with
      registry := requeue world.registry save, drain := .returned save.waiters false }
  show Inv P after
  have hquiet : after.drain.save? = none := rfl
  have hnot : ∀ other, world.drain ≠ .settled other true := by
    intro other hother
    rw [hdrain] at hother
    cases hother
  have hheld : ∀ {record queue}, after.Held record queue → world.Held record queue := by
    intro record queue h
    cases h with
    | live hget => exact .live hget
    | detached htask hrecord hback =>
        refine .detached htask hrecord ?_
        rcases OrderedSet.mem_addAll.1 ((recoverable_iff hquiet _).1 hback) with hmem | hmem
        · exact Or.inr ⟨⟨save, hsave, hmem⟩, hnot⟩
        · exact Or.inl hmem
  refine ⟨hinv.keyed, hinv.queued, hinv.durable, ?_, ?_, ?_, ?_, ?_, ?_, hinv.apart⟩
  · intro id record hget
    refine ⟨fun hmem => ?_, not_deleting hquiet id⟩
    have hkept := hinv.kept id record hget
    rcases OrderedSet.mem_addAll.1 hmem with hmem | hmem
    · exact hkept.2 ⟨save, hsave, hmem⟩
    · exact hkept.1 hmem
  · intro record queue h hanchor
    have hplaced := hinv.placed record queue (hheld h) hanchor
    exact ⟨hplaced.describes, hplaced.rows, hplaced.ends, hplaced.covers, hplaced.balanced,
      fun change hchange => absurd hchange (not_landed hquiet change),
      fun change hchange => absurd hchange (not_inFlight hquiet change)⟩
  · intro record queue h hmem
    apply hinv.anchored record queue (hheld h)
    rcases OrderedSet.mem_addAll.1 (hmem.resolve_right (not_clearing hquiet _)) with hmem | hmem
    · exact Or.inr ⟨save, hsave, hmem⟩
    · exact Or.inl hmem
  · intro id hid
    show id ∈ world.registry.deleted.addAll save.batch.deleted ∨
      id ∈ world.registry.dirty.addAll save.ids ∧ _
    rw [OrderedSet.mem_addAll, OrderedSet.mem_addAll]
    rcases OrderedSet.mem_addAll.1 hid with hmem | hmem
    · rcases hsound.cleared id hmem with hdeleted | ⟨hids, hlive | hdeleted⟩
      · exact Or.inl (Or.inl hdeleted)
      · exact Or.inr ⟨Or.inl hids, hlive⟩
      · exact Or.inl (Or.inr hdeleted)
    · rcases hinv.clear id hmem with hdeleted | ⟨hdirty, hlive⟩
      · exact Or.inl (Or.inr hdeleted)
      · exact Or.inr ⟨Or.inr hdirty, hlive⟩
  · intro other hother
    cases hother
  · intro task promise pending removed htask
    have hdetached := hinv.detached task promise pending removed htask
    exact ⟨hdetached.distinct, hdetached.gone, fun record _ _ => not_deleting hquiet _⟩

theorem inv_rest (hinv : Inv P world) {waiters : List Nat} {saved : Bool}
    (hdrain : world.drain = .returned waiters saved) :
    Inv P { world with drain := .idle, outcomes := settle world.outcomes waiters saved } := by
  have hquiet : world.drain.save? = none := by
    rw [hdrain]
    rfl
  exact inv_quiet hinv hquiet rfl rfl rfl rfl rfl rfl

theorem inv_restart (hinv : Inv P world) {waiters : List Nat} {saved : Bool}
    (hdrain : world.drain = .returned waiters saved) :
    Inv P ({ world with outcomes := settle world.outcomes waiters saved }).startSave := by
  have hquiet : world.drain.save? = none := by
    rw [hdrain]
    rfl
  apply inv_startSave
  · exact inv_quiet hinv hquiet hquiet rfl rfl rfl rfl rfl
  · exact hquiet

end World

end Pmbah.Producer
