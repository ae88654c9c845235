import Pmbah.Producer.Moves
import Pmbah.Producer.Saves

/-!
# Detaching, restoring and starting again

`discardPersisted` takes sessions out of the registry and puts them back when
their deletion could not be saved; a new process starts from what is stored.
-/

namespace Pmbah.Producer

open Js Format Library

namespace World

variable {P : Platform} {options : RegistryOptions} {world next : World}
  {registry : Registry}

theorem Placed.sameLog {record later : SessionRecord} {queue : List BufferMutation}
    (h : Placed P world record queue) (hsame : SameLog record later) :
    Placed P world later queue := by
  have hid := hsame.sessionId
  refine ⟨?_, ?_, ?_, ?_, ?_, ?_, ?_⟩
  · rw [hid]
    exact h.describes.sameLog hsame
  · rw [hid]
    exact h.rows
  · rw [hid]
    exact h.ends
  · rw [hid]
    exact h.covers
  · rw [hid]
    exact h.balanced
  · rw [hid]
    exact h.landed
  · rw [hid]
    exact h.inFlight

/-! ## Detaching -/

/-- What `discardPersisted` leaves in the registry, and what it takes out. -/
structure DetachedBy (registry : Registry) (ids : List JsString)
    (result : Registry × List SessionRecord) : Prop where
  get : ∀ id, result.1.get id = if id ∈ ids then none else registry.get id
  pendingEvents : ∀ id, result.1.pendingEvents.get? id =
    if id ∈ ids then none else registry.pendingEvents.get? id
  deleted : ∀ id, id ∈ result.1.deleted ↔
    id ∈ registry.deleted ∨ (id ∈ ids ∧ (registry.get id).isSome = true)
  dirty : ∀ id ∈ registry.dirty, id ∉ ids → id ∈ result.1.dirty
  clearEvents : result.1.clearEvents = registry.clearEvents
  removed : ∀ record ∈ result.2, record.sessionId ∈ ids ∧
    ∃ kept, registry.get record.sessionId = some kept ∧ SameLog kept record
  distinct : (result.2.map SessionRecord.sessionId).Nodup

theorem detachedBy_nil (registry : Registry) : DetachedBy registry [] (registry, []) where
  get id := by simp
  pendingEvents id := by simp
  deleted id := by simp
  dirty id hid _ := hid
  clearEvents := rfl
  removed record hrecord := absurd hrecord List.not_mem_nil
  distinct := .nil

theorem DetachedBy.concat (hkeyed : Keyed registry)
    (hqueued : ∀ id, registry.get id = none → registry.pendingEvents.get? id = none)
    {ids : List JsString} {result : Registry × List SessionRecord}
    (h : DetachedBy registry ids result) (id : JsString) :
    DetachedBy registry (ids ++ [id]) (detachOne result id) := by
  have hmem : ∀ other, other ∈ ids ++ [id] ↔ other ∈ ids ∨ other = id := by
    intro other
    rw [List.mem_append, List.mem_singleton]
  unfold detachOne discard
  cases hget : result.1.get id with
  | none =>
      -- The session is not there, or has been detached before.
      have hcase : id ∈ ids ∨ registry.get id = none := by
        rw [h.get] at hget
        split at hget
        · exact Or.inl ‹_›
        · exact Or.inr hget
      have hor : ∀ other, (other ∈ ids ∨ other = id) → other ∉ ids →
          registry.get other = none := by
        rintro other (hother | rfl) hnot
        · exact absurd hother hnot
        · exact hcase.resolve_left hnot
      refine ⟨?_, ?_, ?_, ?_, h.clearEvents, ?_, h.distinct⟩
      · intro other
        rw [h.get]
        by_cases hids : other ∈ ids
        · rw [if_pos hids, if_pos ((hmem other).2 (Or.inl hids))]
        · rw [if_neg hids]
          split
          · exact hor other ((hmem other).1 ‹_›) hids
          · rfl
      · intro other
        rw [h.pendingEvents]
        by_cases hids : other ∈ ids
        · rw [if_pos hids, if_pos ((hmem other).2 (Or.inl hids))]
        · rw [if_neg hids]
          split
          · exact hqueued other (hor other ((hmem other).1 ‹_›) hids)
          · rfl
      · intro other
        rw [h.deleted, hmem]
        constructor
        · exact Or.imp_right (And.imp_left Or.inl)
        · rintro (hold | ⟨hids, hsome⟩)
          · exact Or.inl hold
          · by_cases hnot : other ∈ ids
            · exact Or.inr ⟨hnot, hsome⟩
            · rw [hor other hids hnot] at hsome
              cases hsome
      · exact fun other hother hnot => h.dirty other hother fun hids =>
          hnot (List.mem_append_left _ hids)
      · intro record hrecord
        exact ⟨List.mem_append_left _ (h.removed record hrecord).1,
          (h.removed record hrecord).2⟩
  | some kept =>
      have hlive : id ∉ ids ∧ registry.get id = some kept := by
        rw [h.get] at hget
        split at hget
        · cases hget
        · exact ⟨‹_›, hget⟩
      refine ⟨?_, ?_, ?_, ?_, h.clearEvents, ?_, ?_⟩
      · intro other
        show (removeSession result.1 id).get other = _
        rw [get_removeSession, h.get]
        by_cases heq : other = id
        · rw [if_pos heq, if_pos ((hmem other).2 (Or.inr heq))]
        · rw [if_neg heq]
          by_cases hids : other ∈ ids
          · rw [if_pos hids, if_pos ((hmem other).2 (Or.inl hids))]
          · rw [if_neg hids, if_neg fun hor => ((hmem other).1 hor).elim hids heq]
      · intro other
        show (result.1.pendingEvents.delete id).get? other = _
        rw [OrderedMap.get?_delete, h.pendingEvents]
        by_cases heq : other = id
        · rw [if_pos heq, if_pos ((hmem other).2 (Or.inr heq))]
        · rw [if_neg heq]
          by_cases hids : other ∈ ids
          · rw [if_pos hids, if_pos ((hmem other).2 (Or.inl hids))]
          · rw [if_neg hids, if_neg fun hor => ((hmem other).1 hor).elim hids heq]
      · intro other
        show other ∈ result.1.deleted.add id ↔ _
        rw [OrderedSet.mem_add, h.deleted, hmem]
        by_cases heq : other = id
        · subst heq
          simp [hlive.2]
        · simp [heq]
      · intro other hother hnot
        rw [hmem, not_or] at hnot
        exact OrderedSet.mem_delete.2 ⟨hnot.2, h.dirty other hother hnot.1⟩
      · intro record hrecord
        rcases List.mem_append.1 hrecord with hrecord | hrecord
        · exact ⟨List.mem_append_left _ (h.removed record hrecord).1,
            (h.removed record hrecord).2⟩
        · rw [List.mem_singleton.1 hrecord]
          have hid : kept.sessionId = id := hkeyed id kept hlive.2
          refine ⟨by simp [hid], kept, ?_, ⟨rfl, rfl, rfl, rfl, rfl, rfl⟩⟩
          show registry.get kept.sessionId = some kept
          rw [hid]
          exact hlive.2
      · show ((result.2 ++ [_]).map SessionRecord.sessionId).Nodup
        rw [List.map_append, List.nodup_append]
        refine ⟨h.distinct, by simp, ?_⟩
        intro first hfirst last hlast heq
        obtain ⟨record, hrecord, rfl⟩ := List.mem_map.1 hfirst
        have hid : kept.sessionId = id := hkeyed id kept hlive.2
        rw [List.map_singleton, List.mem_singleton] at hlast
        apply hlive.1
        rw [← hid, ← show last = kept.sessionId from hlast, ← heq]
        exact (h.removed record hrecord).1

theorem detach_spec (hkeyed : Keyed registry)
    (hqueued : ∀ id, registry.get id = none → registry.pendingEvents.get? id = none)
    (ids : List JsString) : DetachedBy registry ids (detach registry ids) := by
  induction ids using List.reverseRecOn with
  | nil => exact detachedBy_nil registry
  | append_singleton ids id ih =>
      have hconcat := ih.concat hkeyed hqueued id
      unfold detach at hconcat ⊢
      rwa [List.foldl_append]

theorem captured_map {ids : List JsString} {id : JsString}
    {queue : JsString → Option (List BufferMutation)} (hid : id ∈ ids) :
    captured (ids.map fun id => (id, queue id)) id = queue id := by
  unfold captured
  induction ids with
  | nil => exact absurd hid List.not_mem_nil
  | cons first ids ih =>
      rw [List.map_cons, List.lookup_cons]
      by_cases heq : id = first
      · rw [heq, beq_self_eq_true]
        rfl
      · rw [show (id == first) = false from beq_eq_false_iff_ne.2 heq]
        exact ih ((List.mem_cons.1 hid).resolve_left heq)

section detached

variable {ids : List JsString} {left : Registry} {removed : List SessionRecord}

theorem DetachedBy.live (h : DetachedBy registry ids (left, removed)) {id : JsString}
    {record : SessionRecord} (hget : left.get id = some record) :
    id ∉ ids ∧ registry.get id = some record := by
  rw [h.get] at hget
  split at hget
  · cases hget
  · exact ⟨‹_›, hget⟩

theorem DetachedBy.pending_eq (h : DetachedBy registry ids (left, removed)) {id : JsString}
    (hid : id ∉ ids) : left.pending id = registry.pending id := by
  rw [Registry.pending, Registry.pending, h.pendingEvents, if_neg hid]

theorem DetachedBy.queued (h : DetachedBy registry ids (left, removed))
    (hqueued : ∀ id, registry.get id = none → registry.pendingEvents.get? id = none)
    (id : JsString) (hget : left.get id = none) : left.pendingEvents.get? id = none := by
  rw [h.get] at hget
  rw [h.pendingEvents]
  split
  · rfl
  · rename_i hid
    rw [if_neg hid] at hget
    exact hqueued id hget

/-- What is deleted since then was there. -/
theorem DetachedBy.deleted_before (h : DetachedBy registry ids (left, removed)) {id : JsString}
    (hid : id ∈ left.deleted) (hnone : registry.get id = none) : id ∈ registry.deleted := by
  rcases (h.deleted id).1 hid with hold | ⟨-, hsome⟩
  · exact hold
  · rw [hnone] at hsome
    cases hsome

theorem DetachedBy.accounted (h : DetachedBy registry ids (left, removed)) {id : JsString}
    (hid : (registry.get id).isSome = true ∨ id ∈ registry.deleted) :
    (left.get id).isSome = true ∨ id ∈ left.deleted := by
  rw [h.deleted, h.get]
  by_cases hmem : id ∈ ids
  · rcases hid with hsome | hdeleted
    · exact Or.inr (Or.inr ⟨hmem, hsome⟩)
    · exact Or.inr (Or.inl hdeleted)
  · rw [if_neg hmem]
    exact hid.imp_right Or.inl

theorem DetachedBy.clear (h : DetachedBy registry ids (left, removed)) {id : JsString}
    (hid : id ∈ registry.deleted ∨ id ∈ registry.dirty ∧ (registry.get id).isSome = true) :
    id ∈ left.deleted ∨ id ∈ left.dirty ∧ (left.get id).isSome = true := by
  rcases hid with hdeleted | ⟨hdirty, hsome⟩
  · exact Or.inl ((h.deleted id).2 (Or.inl hdeleted))
  · by_cases hmem : id ∈ ids
    · exact Or.inl ((h.deleted id).2 (Or.inr ⟨hmem, hsome⟩))
    · refine Or.inr ⟨h.dirty id hdirty hmem, ?_⟩
      rw [h.get, if_neg hmem]
      exact hsome

/-- The world of a discard that has detached its sessions and saves their deletion. -/
def detaching (world : World) (task : Nat) (ids : List JsString) (left : Registry)
    (removed : List SessionRecord) : World :=
  { world with
    registry := left
    discards := world.discards.set task (.deleting left.nextId
      (ids.map fun id => (id, world.registry.pendingEvents.get? id)) removed) }

variable {task : Nat}

/-- The task is the one that starts to delete, or it was there before. -/
theorem detaching_cases {other promise : Nat}
    {pending : List (JsString × Option (List BufferMutation))} {removed' : List SessionRecord}
    (h : (world.detaching task ids left removed).discards.get? other =
      some (.deleting promise pending removed')) :
    (other = task ∧ pending = ids.map (fun id => (id, world.registry.pendingEvents.get? id)) ∧
        removed' = removed) ∨
      (other ≠ task ∧ world.discards.get? other = some (.deleting promise pending removed')) := by
  change (world.discards.set task _).get? other = _ at h
  rw [OrderedMap.get?_set] at h
  split at h
  · injection h with h
    injection h with hpromise hpending hremoved
    exact Or.inl ⟨‹_›, hpending.symm, hremoved.symm⟩
  · exact Or.inr ⟨‹_›, h⟩

/-- A session and its queue were held before, by the registry or by another discard. -/
theorem detaching_held (hinv : Inv P world)
    (hspec : DetachedBy world.registry ids (left, removed)) {record : SessionRecord}
    {queue : List BufferMutation} (h : (world.detaching task ids left removed).Held record queue) :
    ∃ earlier, world.Held earlier queue ∧ SameLog earlier record := by
  cases h with
  | @live id record hget =>
      obtain ⟨hid, hold⟩ := hspec.live hget
      refine ⟨record, ?_, .refl record⟩
      show world.Held record (left.pending id)
      rw [hspec.pending_eq hid]
      exact .live hold
  | detached hdetached hrecord hback =>
      rcases detaching_cases hdetached with ⟨rfl, rfl, rfl⟩ | ⟨-, hold⟩
      · obtain ⟨hid, kept, hget, hsame⟩ := hspec.removed record hrecord
        rw [captured_map hid]
        exact ⟨kept, .live hget, hsame⟩
      · refine ⟨record, .detached hold hrecord (hback.imp_left fun hmem => ?_), .refl record⟩
        exact hspec.deleted_before hmem ((hinv.detached _ _ _ _ hold).gone record hrecord)

theorem detaching_detached (hinv : Inv P world)
    (hspec : DetachedBy world.registry ids (left, removed)) {other promise : Nat}
    {pending : List (JsString × Option (List BufferMutation))} {removed' : List SessionRecord}
    (h : (world.detaching task ids left removed).discards.get? other =
      some (.deleting promise pending removed')) :
    (world.detaching task ids left removed).Detached removed' := by
  rcases detaching_cases h with ⟨rfl, rfl, rfl⟩ | ⟨-, hold⟩
  · refine ⟨hspec.distinct, ?_, ?_⟩
    · intro record hrecord
      exact (hspec.get _).trans (if_pos (hspec.removed record hrecord).1)
    · intro record hrecord _
      obtain ⟨-, kept, hget, -⟩ := hspec.removed record hrecord
      exact (hinv.kept _ kept hget).2
  · have hdetached := hinv.detached _ _ _ _ hold
    refine ⟨hdetached.distinct, ?_, ?_⟩
    · intro record hrecord
      show left.get record.sessionId = none
      rw [hspec.get, hdetached.gone record hrecord]
      exact ite_self _
    · intro record hrecord hmem
      exact hdetached.once record hrecord
        (hspec.deleted_before hmem (hdetached.gone record hrecord))

/-- A session that is detached now was in the registry, so nothing else has detached it. -/
theorem detaching_apart (hinv : Inv P world)
    (hspec : DetachedBy world.registry ids (left, removed)) {other promise : Nat}
    {pending : List (JsString × Option (List BufferMutation))} {removed' : List SessionRecord}
    (hold : world.discards.get? other = some (.deleting promise pending removed')) :
    ∀ new ∈ removed, ∀ old ∈ removed', new.sessionId ≠ old.sessionId := by
  intro new hmem old hmem' heq
  obtain ⟨-, kept, hget, -⟩ := hspec.removed new hmem
  rw [heq, (hinv.detached _ _ _ _ hold).gone old hmem'] at hget
  cases hget

theorem inv_detaching (hinv : Inv P world)
    (hspec : DetachedBy world.registry ids (left, removed)) :
    Inv P (world.detaching task ids left removed) where
  keyed id record hget := hinv.keyed id record (hspec.live hget).2
  queued := hspec.queued hinv.queued
  durable := hinv.durable
  kept id record hget := by
    obtain ⟨hid, hold⟩ := hspec.live hget
    refine ⟨fun hmem => ?_, (hinv.kept id record hold).2⟩
    rcases (hspec.deleted id).1 hmem with hdeleted | ⟨hids, -⟩
    · exact (hinv.kept id record hold).1 hdeleted
    · exact hid hids
  placed record queue h hanchor := by
    obtain ⟨earlier, hearlier, hsame⟩ := detaching_held hinv hspec h
    have hplaced := hinv.placed earlier queue hearlier (hsame.anchor ▸ hanchor)
    exact (hplaced.sameLog hsame).elsewhere rfl rfl rfl fun h => h
  anchored record queue h hmem := by
    obtain ⟨earlier, hearlier, hsame⟩ := detaching_held hinv hspec h
    rw [hsame.anchor]
    apply hinv.anchored earlier queue hearlier
    change record.sessionId ∈ left.clearEvents ∨ _ at hmem
    rwa [hspec.clearEvents, hsame.sessionId] at hmem
  clear id hid := by
    change id ∈ left.clearEvents at hid
    rw [hspec.clearEvents] at hid
    exact hspec.clear (hinv.clear id hid)
  save save hsave := by
    have hsound := hinv.save save hsave
    exact ⟨hsound.distinct, hsound.durable, hsound.appends, fun id hid =>
      (hsound.cleared id hid).imp_right (And.imp_right hspec.accounted)⟩
  detached _ _ _ _ hother := detaching_detached hinv hspec hother
  apart first _ _ _ second _ _ _ hfirst hsecond hne record hrecord record' hrecord' := by
    rcases detaching_cases hfirst with ⟨rfl, rfl, rfl⟩ | ⟨-, hfirstOld⟩
    · rcases detaching_cases hsecond with ⟨rfl, -, -⟩ | ⟨-, hsecondOld⟩
      · exact absurd rfl hne
      · exact detaching_apart hinv hspec hsecondOld record hrecord record' hrecord'
    · rcases detaching_cases hsecond with ⟨rfl, rfl, rfl⟩ | ⟨-, hsecondOld⟩
      · exact (detaching_apart hinv hspec hfirstOld record' hrecord' record hrecord).symm
      · exact hinv.apart _ _ _ _ _ _ _ _ hfirstOld hsecondOld hne record hrecord record'
          hrecord'

end detached

theorem inv_detach (hinv : Inv P world) (task : Nat) (ids : List JsString) :
    Inv P (({ world with registry := (detach world.registry ids).1 }).setTask task
      (.deleting (detach world.registry ids).1.nextId
        (ids.map fun id => (id, world.registry.pendingEvents.get? id))
        (detach world.registry ids).2)) :=
  inv_detaching hinv (detach_spec hinv.keyed hinv.queued ids)

/-! ## Restoring -/

/-- What a rollback leaves in the registry. -/
structure RestoredBy (registry : Registry)
    (pending : List (JsString × Option (List BufferMutation))) (removed : List SessionRecord)
    (result : Registry) : Prop where
  back : ∀ record ∈ removed, result.get record.sessionId = some record
  get : ∀ id ∉ removed.map SessionRecord.sessionId, result.get id = registry.get id
  queue : ∀ record ∈ removed, result.pendingEvents.get? record.sessionId =
    (captured pending record.sessionId).or
      (registry.pendingEvents.get? record.sessionId)
  pendingEvents : ∀ id ∉ removed.map SessionRecord.sessionId,
    result.pendingEvents.get? id = registry.pendingEvents.get? id
  deleted : ∀ id, id ∈ result.deleted ↔
    id ∈ registry.deleted ∧ id ∉ removed.map SessionRecord.sessionId
  dirty : ∀ id, id ∈ result.dirty ↔
    id ∈ registry.dirty ∨ id ∈ removed.map SessionRecord.sessionId
  clearEvents : result.clearEvents = registry.clearEvents

theorem restoreOne_eq (pending : List (JsString × Option (List BufferMutation)))
    {record : SessionRecord} (hgone : registry.get record.sessionId = none) :
    ∃ pendingEvents, restoreOne pending registry record =
      { registry with
        sessions := registry.sessions.set record.sessionId record
        deleted := registry.deleted.delete record.sessionId
        dirty := registry.dirty.add record.sessionId
        pendingEvents } ∧
      ∀ id, pendingEvents.get? id =
        if id = record.sessionId then
          (captured pending record.sessionId).or (registry.pendingEvents.get? id)
        else registry.pendingEvents.get? id := by
  have hhas : registry.sessions.has record.sessionId = false := by
    rw [OrderedMap.has, show registry.sessions.get? record.sessionId = none from hgone]
    rfl
  unfold restoreOne
  rw [if_neg (by simp [hhas])]
  cases hcaptured : captured pending record.sessionId with
  | none =>
      refine ⟨registry.pendingEvents, rfl, ?_⟩
      intro id
      split
      · rfl
      · rfl
  | some events =>
      refine ⟨_, rfl, ?_⟩
      intro id
      rw [OrderedMap.get?_set]
      rfl

theorem restore_spec (pending : List (JsString × Option (List BufferMutation)))
    {removed : List SessionRecord}
    (hnodup : (removed.map SessionRecord.sessionId).Nodup) (registry : Registry)
    (hgone : ∀ record ∈ removed, registry.get record.sessionId = none) :
    RestoredBy registry pending removed (removed.foldl (restoreOne pending) registry) := by
  induction removed generalizing registry with
  | nil =>
      exact ⟨by simp, fun _ _ => rfl, by simp, fun _ _ => rfl, by simp, by simp, rfl⟩
  | cons record removed ih =>
      rw [List.map_cons, List.nodup_cons] at hnodup
      obtain ⟨first, hfirst, hqueue⟩ :=
        restoreOne_eq pending (hgone record List.mem_cons_self)
      have hne : ∀ later ∈ removed, later.sessionId ≠ record.sessionId := by
        intro later hlater heq
        apply hnodup.1
        rw [← heq]
        exact List.mem_map.2 ⟨later, hlater, rfl⟩
      have hget : ∀ id, (restoreOne pending registry record).get id =
          if id = record.sessionId then some record else registry.get id := by
        intro id
        rw [hfirst]
        exact OrderedMap.get?_set _ _ _ _
      have hrest := ih hnodup.2 (restoreOne pending registry record) (by
        intro later hlater
        rw [hget, if_neg (hne later hlater)]
        exact hgone later (List.mem_cons_of_mem _ hlater))
      rw [List.foldl_cons]
      have hpending : ∀ id, (restoreOne pending registry record).pendingEvents.get? id =
          if id = record.sessionId then
            (captured pending record.sessionId).or (registry.pendingEvents.get? id)
          else registry.pendingEvents.get? id := by
        intro id
        rw [hfirst]
        exact hqueue id
      refine ⟨?_, ?_, ?_, ?_, ?_, ?_, ?_⟩
      · intro later hlater
        rcases List.mem_cons.1 hlater with rfl | hlater
        · rw [hrest.get _ hnodup.1, hget, if_pos rfl]
        · exact hrest.back later hlater
      · intro id hid
        rw [List.map_cons, List.mem_cons, not_or] at hid
        rw [hrest.get id hid.2, hget, if_neg hid.1]
      · intro later hlater
        rcases List.mem_cons.1 hlater with rfl | hlater
        · rw [hrest.pendingEvents _ hnodup.1, hpending, if_pos rfl]
        · rw [hrest.queue later hlater, hpending, if_neg (hne later hlater)]
      · intro id hid
        rw [List.map_cons, List.mem_cons, not_or] at hid
        rw [hrest.pendingEvents id hid.2, hpending, if_neg hid.1]
      · intro id
        rw [hrest.deleted, hfirst, List.map_cons, List.mem_cons]
        show id ∈ registry.deleted.delete record.sessionId ∧ _ ↔ _
        rw [OrderedSet.mem_delete]
        tauto
      · intro id
        rw [hrest.dirty, hfirst, List.map_cons, List.mem_cons]
        show id ∈ registry.dirty.add record.sessionId ∨ _ ↔ _
        rw [OrderedSet.mem_add]
        tauto
      · rw [hrest.clearEvents, hfirst]

section restored

variable {pending : List (JsString × Option (List BufferMutation))}
  {removed : List SessionRecord} {left : Registry}

theorem RestoredBy.live (h : RestoredBy registry pending removed left) {id : JsString}
    {record : SessionRecord} (hget : left.get id = some record) :
    (id = record.sessionId ∧ record ∈ removed) ∨
      (id ∉ removed.map SessionRecord.sessionId ∧ registry.get id = some record) := by
  by_cases hid : id ∈ removed.map SessionRecord.sessionId
  · obtain ⟨kept, hkept, rfl⟩ := List.mem_map.1 hid
    rw [h.back kept hkept, Option.some.injEq] at hget
    subst hget
    exact Or.inl ⟨rfl, hkept⟩
  · rw [h.get id hid] at hget
    exact Or.inr ⟨hid, hget⟩

theorem RestoredBy.isSome_back (h : RestoredBy registry pending removed left) {id : JsString}
    (hid : id ∈ removed.map SessionRecord.sessionId) : (left.get id).isSome = true := by
  obtain ⟨kept, hkept, rfl⟩ := List.mem_map.1 hid
  rw [h.back kept hkept]
  rfl

theorem RestoredBy.isSome (h : RestoredBy registry pending removed left) {id : JsString}
    (hsome : (registry.get id).isSome = true) : (left.get id).isSome = true := by
  by_cases hid : id ∈ removed.map SessionRecord.sessionId
  · exact h.isSome_back hid
  · rwa [h.get id hid]

theorem RestoredBy.accounted (h : RestoredBy registry pending removed left) {id : JsString}
    (hid : (registry.get id).isSome = true ∨ id ∈ registry.deleted) :
    (left.get id).isSome = true ∨ id ∈ left.deleted := by
  rcases hid with hsome | hdeleted
  · exact Or.inl (h.isSome hsome)
  · by_cases hid : id ∈ removed.map SessionRecord.sessionId
    · exact Or.inl (h.isSome_back hid)
    · exact Or.inr ((h.deleted id).2 ⟨hdeleted, hid⟩)

theorem RestoredBy.queued (h : RestoredBy registry pending removed left)
    (hqueued : ∀ id, registry.get id = none → registry.pendingEvents.get? id = none)
    (id : JsString) (hget : left.get id = none) : left.pendingEvents.get? id = none := by
  have hid : id ∉ removed.map SessionRecord.sessionId := by
    intro hid
    have hsome := h.isSome_back hid
    rw [hget] at hsome
    cases hsome
  rw [h.get id hid] at hget
  rw [h.pendingEvents id hid]
  exact hqueued id hget

theorem RestoredBy.clear (h : RestoredBy registry pending removed left) {id : JsString}
    (hid : id ∈ registry.deleted ∨ id ∈ registry.dirty ∧ (registry.get id).isSome = true) :
    id ∈ left.deleted ∨ id ∈ left.dirty ∧ (left.get id).isSome = true := by
  rw [h.dirty]
  rcases hid with hdeleted | ⟨hdirty, hsome⟩
  · by_cases hmem : id ∈ removed.map SessionRecord.sessionId
    · exact Or.inr ⟨Or.inr hmem, h.isSome_back hmem⟩
    · exact Or.inl ((h.deleted id).2 ⟨hdeleted, hmem⟩)
  · exact Or.inr ⟨Or.inl hdirty, h.isSome hsome⟩

/-- The world of a discard that has put its sessions back and saves them. -/
def restoring (world : World) (task promise : Nat) (left : Registry) : World :=
  { world with registry := left, discards := world.discards.set task (.restoring promise) }

variable {task promise next : Nat}

theorem restoring_task {other promise' : Nat}
    {pending' : List (JsString × Option (List BufferMutation))} {removed' : List SessionRecord}
    (h : (world.restoring task next left).discards.get? other =
      some (.deleting promise' pending' removed')) :
    other ≠ task ∧ world.discards.get? other = some (.deleting promise' pending' removed') := by
  change (world.discards.set task _).get? other = _ at h
  rw [OrderedMap.get?_set] at h
  split at h
  · cases h
  · exact ⟨‹_›, h⟩

/-- What the registry holds again was held for the discard. -/
theorem restoring_held (hinv : Inv P world)
    (htask : world.discards.get? task = some (.deleting promise pending removed))
    (hqueued : ∀ record ∈ removed, record.sessionId ∈ world.registry.deleted)
    (hspec : RestoredBy world.registry pending removed left) {record : SessionRecord}
    {queue : List BufferMutation} (h : (world.restoring task next left).Held record queue) :
    world.Held record queue := by
  have htaken := hinv.detached task promise pending removed htask
  cases h with
  | @live id record hget =>
      rcases hspec.live hget with ⟨rfl, hrecord⟩ | ⟨hid, hold⟩
      · have hqueue : (world.restoring task next left).registry.pending record.sessionId =
            (captured pending record.sessionId).getD [] := by
          show (left.pendingEvents.get? record.sessionId).getD [] = _
          rw [hspec.queue record hrecord, hinv.queued _ (htaken.gone record hrecord),
            Option.or_none]
        rw [hqueue]
        exact .detached htask hrecord (Or.inl (hqueued record hrecord))
      · have hqueue : (world.restoring task next left).registry.pending id =
            world.registry.pending id := by
          show (left.pendingEvents.get? id).getD [] = _
          rw [hspec.pendingEvents id hid]
          rfl
        rw [hqueue]
        exact .live hold
  | detached hdetached hrecord hback =>
      refine .detached (restoring_task hdetached).2 hrecord (hback.imp_left fun hmem => ?_)
      exact ((hspec.deleted _).1 hmem).1

theorem restoring_detached (hinv : Inv P world)
    (htask : world.discards.get? task = some (.deleting promise pending removed))
    (hspec : RestoredBy world.registry pending removed left) {other promise' : Nat}
    {pending' : List (JsString × Option (List BufferMutation))} {removed' : List SessionRecord}
    (h : (world.restoring task next left).discards.get? other =
      some (.deleting promise' pending' removed')) :
    (world.restoring task next left).Detached removed' := by
  obtain ⟨hne, hold⟩ := restoring_task h
  have hdetached := hinv.detached _ _ _ _ hold
  refine ⟨hdetached.distinct, ?_, ?_⟩
  · intro record hrecord
    show left.get record.sessionId = none
    rw [hspec.get]
    · exact hdetached.gone record hrecord
    · intro hmem
      obtain ⟨kept, hkept, heq⟩ := List.mem_map.1 hmem
      exact hinv.apart _ _ _ _ _ _ _ _ hold htask hne record hrecord kept hkept heq.symm
  · intro record hrecord hmem
    exact hdetached.once record hrecord ((hspec.deleted _).1 hmem).1

theorem inv_restoring (hinv : Inv P world)
    (htask : world.discards.get? task = some (.deleting promise pending removed))
    (hqueued : ∀ record ∈ removed, record.sessionId ∈ world.registry.deleted)
    (hspec : RestoredBy world.registry pending removed left) :
    Inv P (world.restoring task next left) where
  keyed id record hget := by
    rcases hspec.live hget with ⟨rfl, -⟩ | ⟨-, hold⟩
    · rfl
    · exact hinv.keyed id record hold
  queued := hspec.queued hinv.queued
  durable := hinv.durable
  kept id record hget := by
    rcases hspec.live hget with ⟨rfl, hrecord⟩ | ⟨hid, hold⟩
    · have htaken := hinv.detached task promise pending removed htask
      refine ⟨fun hmem => ?_, htaken.once record hrecord (hqueued record hrecord)⟩
      exact ((hspec.deleted _).1 hmem).2 (List.mem_map.2 ⟨record, hrecord, rfl⟩)
    · have hkept := hinv.kept id record hold
      exact ⟨fun hmem => hkept.1 ((hspec.deleted id).1 hmem).1, hkept.2⟩
  placed record queue h hanchor := by
    have hheld := restoring_held hinv htask hqueued hspec h
    exact (hinv.placed record queue hheld hanchor).elsewhere rfl rfl rfl fun h => h
  anchored record queue h hmem := by
    apply hinv.anchored record queue (restoring_held hinv htask hqueued hspec h)
    change record.sessionId ∈ left.clearEvents ∨ _ at hmem
    rwa [hspec.clearEvents] at hmem
  clear id hid := by
    change id ∈ left.clearEvents at hid
    rw [hspec.clearEvents] at hid
    exact hspec.clear (hinv.clear id hid)
  save save hsave := by
    have hsound := hinv.save save hsave
    exact ⟨hsound.distinct, hsound.durable, hsound.appends, fun id hid =>
      (hsound.cleared id hid).imp_right (And.imp_right hspec.accounted)⟩
  detached _ _ _ _ hother := restoring_detached hinv htask hspec hother
  apart _ _ _ _ _ _ _ _ hfirst hsecond hne :=
    hinv.apart _ _ _ _ _ _ _ _ (restoring_task hfirst).2 (restoring_task hsecond).2 hne

end restored

/-- A rollback whose deletions are still queued. -/
theorem inv_restore (hinv : Inv P world) {task promise next : Nat}
    {pending : List (JsString × Option (List BufferMutation))} {removed : List SessionRecord}
    (htask : world.discards.get? task = some (.deleting promise pending removed))
    (hqueued : ∀ record ∈ removed, record.sessionId ∈ world.registry.deleted) :
    Inv P (({ world with registry := removed.foldl (restoreOne pending) world.registry }).setTask
      task (.restoring next)) := by
  have htaken := hinv.detached task promise pending removed htask
  have hrestored : Inv P (world.restoring task next
      (removed.foldl (restoreOne pending) world.registry)) :=
    inv_restoring hinv htask hqueued
      (restore_spec pending htaken.distinct world.registry htaken.gone)
  exact hrestored

/-! ## Starting again -/

theorem normaliseLoadedRecord_sameLog (objectId : Nat) (record : SessionRecord) :
    SameLog record (normaliseLoadedRecord objectId record) :=
  ⟨rfl, rfl, rfl, rfl, rfl, rfl⟩

/-- A loaded session is one of the snapshot. -/
theorem get_loadAll {snapshot : List SessionRecord} {id : JsString} {record : SessionRecord}
    (h : (snapshot.foldl loadRecord registry).get id = some record) :
    registry.get id = some record ∨
      ∃ stored ∈ snapshot, stored.sessionId = id ∧ SameLog stored record := by
  induction snapshot generalizing registry with
  | nil => exact Or.inl h
  | cons first snapshot ih =>
      rcases ih h with hget | ⟨stored, hstored, hid, hsame⟩
      · have hput : (loadRecord registry first).get id =
            if id = first.sessionId then
              some (normaliseLoadedRecord registry.nextId first)
            else registry.get id :=
          OrderedMap.get?_set _ _ _ _
        rw [hput] at hget
        split at hget
        · rename_i heq
          rw [Option.some.injEq] at hget
          right
          refine ⟨first, List.mem_cons_self, heq.symm, ?_⟩
          rw [← hget]
          exact normaliseLoadedRecord_sameLog _ first
        · exact Or.inl hget
      · exact Or.inr ⟨stored, List.mem_cons_of_mem _ hstored, hid, hsame⟩

/-- Loading queues only saves. -/
theorem loadAll_eq (snapshot : List SessionRecord) (registry : Registry) :
    (snapshot.foldl loadRecord registry).pendingEvents = registry.pendingEvents ∧
      (snapshot.foldl loadRecord registry).deleted = registry.deleted ∧
      (snapshot.foldl loadRecord registry).clearEvents = registry.clearEvents := by
  induction snapshot generalizing registry with
  | nil => exact ⟨rfl, rfl, rfl⟩
  | cons first snapshot ih =>
      obtain ⟨hpending, hdeleted, hclear⟩ := ih (loadRecord registry first)
      exact ⟨hpending, hdeleted, hclear⟩

theorem mem_read {store : JournalStore} {session : SessionRecord}
    (h : session ∈ store.read) : ∃ id, store.session id = some session := by
  unfold JournalStore.read at h
  rw [List.mem_mergeSort] at h
  exact OrderedMap.mem_values_iff.1 h

theorem inv_boot {store : JournalStore} (hdurable : Durable P store) (nextId : Nat) :
    Inv P (boot store nextId) := by
  have hload : (boot store nextId).registry.pendingEvents = ∅ ∧
      (boot store nextId).registry.deleted = ∅ ∧
      (boot store nextId).registry.clearEvents = ∅ := loadAll_eq _ _
  obtain ⟨hpending, hdeleted, hclear⟩ := hload
  have hget : ∀ {id record}, (boot store nextId).registry.get id = some record →
      ∃ stored, store.session id = some stored ∧ SameLog stored record ∧
        record.sessionId = id := by
    intro id record h
    rcases get_loadAll h with hnone | ⟨stored, hstored, rfl, hsame⟩
    · cases hnone
    · obtain ⟨key, hkey⟩ := mem_read hstored
      rw [← hdurable.keyed key stored hkey] at hkey
      exact ⟨stored, hkey, hsame, hsame.sessionId⟩
  have hquiet : (boot store nextId).drain.save? = none := rfl
  have hnotask : ∀ task promise pending removed, (boot store nextId).discards.get? task ≠
      some (.deleting promise pending removed) := by
    intro task promise pending removed h
    cases h
  refine ⟨?_, ?_, hdurable, ?_, ?_, ?_, ?_, ?_, ?_, ?_⟩
  · intro id record h
    obtain ⟨-, -, -, hid⟩ := hget h
    exact hid
  · intro id _
    rw [hpending]
    rfl
  · intro id record _
    rw [hdeleted]
    exact ⟨OrderedSet.not_mem_empty id, not_deleting hquiet id⟩
  · intro record queue h hanchor
    cases h with
    | @live id record h =>
        obtain ⟨stored, hstored, hsame, rfl⟩ := hget h
        have hempty : (boot store nextId).registry.pending record.sessionId = [] := by
          rw [Registry.pending, hpending]
          rfl
        rw [hempty]
        refine ⟨?_, List.prefix_refl _, List.nil_suffix, Nat.le_refl _, fun _ => rfl,
          fun change hchange => absurd hchange (not_landed hquiet change),
          fun change hchange => absurd hchange (not_inFlight hquiet change)⟩
        exact (hdurable.described _ stored hstored (hsame.anchor ▸ hanchor)).sameLog hsame
    | detached htask => exact absurd htask (hnotask _ _ _ _)
  · intro record queue _ hmem
    rw [hclear] at hmem
    rcases hmem with hmem | hmem
    · exact absurd hmem (OrderedSet.not_mem_empty _)
    · exact absurd hmem (not_clearing hquiet _)
  · intro id hid
    rw [hclear] at hid
    exact absurd hid (OrderedSet.not_mem_empty id)
  · intro save hsave
    cases hsave
  · exact fun task promise pending removed htask => absurd htask (hnotask _ _ _ _)
  · exact fun task promise pending removed _ _ _ _ htask => absurd htask (hnotask _ _ _ _)

/-! ## Steps and runs -/

theorem inv_setTask (hinv : Inv P world) {task : Nat} {stage : DiscardTask}
    (hstage : ∀ promise pending removed, stage ≠ .deleting promise pending removed) :
    Inv P (world.setTask task stage) := by
  apply Frame.inv _ hinv
  refine ⟨.refl _, rfl, rfl, rfl, rfl, ?_⟩
  intro other promise pending removed h
  change (world.discards.set task stage).get? other = _ at h
  rw [OrderedMap.get?_set] at h
  split at h
  · exact absurd (Option.some.inj h) (hstage promise pending removed)
  · exact h

theorem inv_endTask (hinv : Inv P world) (task : Nat) : Inv P (world.endTask task) := by
  apply Frame.inv _ hinv
  refine ⟨.refl _, rfl, rfl, rfl, rfl, ?_⟩
  intro other promise pending removed h
  change (world.discards.delete task).get? other = _ at h
  rw [OrderedMap.get?_delete] at h
  split at h
  · cases h
  · exact h

/-- The sessions that a step puts back into the registry. -/
def rolledBack (world : World) : Action → List SessionRecord
  | .resumeDiscard task =>
      match world.discards.get? task with
      | some (.deleting promise _ removed) =>
          if world.outcomes.get? promise = some false then removed else []
      | _ => []
  | _ => []

/-- A rollback finds the deletions it takes back still queued: no later commit has
taken them to storage. -/
def DeletionQueued (world : World) (action : Action) : Prop :=
  ∀ record ∈ world.rolledBack action, record.sessionId ∈ world.registry.deleted

instance (world : World) (action : Action) : Decidable (world.DeletionQueued action) :=
  inferInstanceAs (Decidable (∀ record ∈ world.rolledBack action,
    record.sessionId ∈ world.registry.deleted))

theorem rolledBack_eq {task promise : Nat}
    {pending : List (JsString × Option (List BufferMutation))} {removed : List SessionRecord}
    (htask : world.discards.get? task = some (.deleting promise pending removed))
    (hrejected : world.outcomes.get? promise = some false) :
    world.rolledBack (.resumeDiscard task) = removed := by
  simp only [rolledBack, htask]
  exact if_pos hrejected

/-- Every step keeps the invariant, if a rollback finds its deletions queued. -/
theorem inv_step (hjournal : options.journal = true) (hinv : Inv P world) {action : Action}
    (hqueued : world.DeletionQueued action)
    (h : world.step P options action = some next) : Inv P next := by
  cases move_of_step h with
  | call hfree => exact inv_call hjournal hinv _ _ hfree
  | persist => exact inv_persist hinv
  | settle =>
      apply inv_persist
      apply inv_setTask hinv
      intro promise pending removed hstage
      cases hstage
  | detach _ _ => exact inv_persist (inv_detach hinv _ _)
  | restore htask hfailed =>
      apply inv_persist
      apply inv_restore hinv htask
      rw [DeletionQueued, rolledBack_eq htask hfailed] at hqueued
      exact hqueued
  | finish => exact inv_endTask hinv _
  | store hdrain hcommit => exact inv_stored hinv hdrain hcommit
  | fail hdrain => exact inv_failed hinv hdrain
  | unqueue hdrain => exact inv_unqueued hinv hdrain
  | requeue hdrain => exact inv_requeued hinv hdrain
  | rest hdrain _ => exact inv_rest hinv hdrain
  | restart hdrain _ => exact inv_restart hinv hdrain
  | observe _ hsame _ =>
      apply Frame.inv _ hinv
      exact ⟨hsame, rfl, rfl, rfl, rfl, fun _ _ _ _ htask => htask⟩
  | answer hsame _ => exact inv_persist (inv_registry hinv hsame)
  | crash => exact inv_boot hinv.durable _

end World

end Pmbah.Producer
