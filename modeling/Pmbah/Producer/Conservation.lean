import Pmbah.Producer.CrashConsistency

/-!
# Conservation of accepted events

Between commits, the stored events of a session followed by its queue are the
events accepted for it, as long as every rollback of `discardPersisted` finds its
deletions queued and no event stored since the session was detached.
-/

namespace Pmbah.Producer

open Js Format Library

namespace World

variable {P : Platform} {options : RegistryOptions} {world next : World}

/-- A step of the journal: no sweep purges a log and no process ends. -/
def Action.journals : Action → Bool
  | .call made _ _ => !made.sweeps
  | .crash => false
  | _ => true

/-- A rollback finds the deletions queued, and no commit has stored events of the
sessions since they were detached. -/
def CleanRollback (world : World) (action : Action) : Prop :=
  ∀ record ∈ world.rolledBack action,
    record.sessionId ∈ world.registry.deleted ∧ record.sessionId ∉ world.landed

instance (world : World) (action : Action) : Decidable (world.CleanRollback action) :=
  inferInstanceAs (Decidable (∀ record ∈ world.rolledBack action,
    record.sessionId ∈ world.registry.deleted ∧ record.sessionId ∉ world.landed))

/-- Storage and queue hold the accepted events, each once and in order. -/
structure Conserved (world : World) (id : JsString) (record : SessionRecord) : Prop where
  events : world.store.events id ++ world.registry.pending id = world.accepted id
  numbered : (world.accepted id).map BufferMutation.seq = List.range (sessionEventCount record)

/-- No session is an anchor. -/
structure Unanchored (world : World) : Prop where
  live : ∀ id record, world.registry.get id = some record → record.continuationAnchor = false
  detached : ∀ task promise pending removed,
    world.discards.get? task = some (.deleting promise pending removed) →
      ∀ record ∈ removed, record.continuationAnchor = false

/-- The stored events that still stand in a queue of the registry are those of the
commit that has just been answered. -/
def Claimed (world : World) : Prop :=
  ∀ id record, world.registry.get id = some record → id ∈ world.landed →
    ∃ change, world.Landed change ∧ change.sessionId = id

/-! ## No anchors -/

theorem edit_unanchored (hjournal : options.journal = true) {registry after : Registry}
    {events : List (JsString × BufferMutation)}
    (h : Edit P options false registry events after)
    (hlive : ∀ id record, registry.get id = some record → record.continuationAnchor = false) :
    ∀ id record, after.get id = some record → record.continuationAnchor = false := by
  intro id later hget
  cases h with
  | same h =>
      obtain ⟨record, hrecord, hsame⟩ := h.get_some' hget
      exact hsame.anchor.trans (hlive id record hrecord)
  | accept hrecord _ =>
      rw [get_accepted hjournal] at hget
      split at hget
      · rw [← Option.some.inj hget, recordEvent_continuationAnchor]
        exact hlive _ _ hrecord
      · exact hlive id later hget
  | @remove removedId _ nextId _ =>
      change (removeSession registry removedId).get id = some later at hget
      rw [get_removeSession] at hget
      split at hget
      · cases hget
      · exact hlive id later hget
  | anchor _ _ _ hsweeps => cases hsweeps

theorem edits_unanchored (hjournal : options.journal = true) {registry after : Registry}
    {events : List (JsString × BufferMutation)}
    (h : Edits P options false registry events after)
    (hlive : ∀ id record, registry.get id = some record → record.continuationAnchor = false) :
    ∀ id record, after.get id = some record → record.continuationAnchor = false := by
  induction h with
  | nil => exact hlive
  | cons head _ ih => exact ih (edit_unanchored hjournal head hlive)

theorem effect_unanchored (hjournal : options.journal = true) {registry after : Registry}
    {events : List (JsString × BufferMutation)} {uuid : JsString}
    (h : CallEffect P options false uuid registry events after)
    (hlive : ∀ id record, registry.get id = some record → record.continuationAnchor = false) :
    ∀ id record, after.get id = some record → record.continuationAnchor = false := by
  cases h with
  | edits h => exact edits_unanchored hjournal h hlive
  | @create middle created h hid hnew =>
      intro id later hget
      have hput : (insertNew middle created).get id =
          if id = created.sessionId then some created else middle.get id :=
        OrderedMap.get?_set _ _ _ _
      rw [hput] at hget
      split at hget
      · rw [← Option.some.inj hget]
        exact hnew.anchor
      · obtain ⟨record, hrecord, hsame⟩ := h.get_some' hget
        exact hsame.anchor.trans (hlive id record hrecord)

theorem Unanchored.of_sessions (h : Unanchored world)
    (hsessions : next.registry.sessions = world.registry.sessions)
    (hdiscards : ∀ task promise pending removed,
      next.discards.get? task = some (.deleting promise pending removed) →
        world.discards.get? task = some (.deleting promise pending removed)) :
    Unanchored next where
  live id record hget := by
    rw [Registry.get, hsessions] at hget
    exact h.live id record hget
  detached task promise pending removed htask :=
    h.detached task promise pending removed (hdiscards _ _ _ _ htask)

theorem Unanchored.persist (h : Unanchored world) : Unanchored world.persist := by
  apply h.of_sessions world.persist_sessions
  intro task promise pending removed htask
  rwa [persist_discards] at htask

/-- A change that keeps the sessions over their logs. -/
theorem Unanchored.registry (h : Unanchored world) {registry : Registry}
    (hsame : SameJournal world.registry registry) : Unanchored { world with registry } where
  live id record hget := by
    obtain ⟨earlier, hearlier, hlog⟩ := hsame.get_some' hget
    exact hlog.anchor.trans (h.live id earlier hearlier)
  detached := h.detached

theorem get?_setTask {task other promise : Nat} {stage : DiscardTask}
    {pending : List (JsString × Option (List BufferMutation))} {removed : List SessionRecord}
    (h : (world.setTask task stage).discards.get? other =
      some (.deleting promise pending removed)) :
    stage = .deleting promise pending removed ∨
      world.discards.get? other = some (.deleting promise pending removed) := by
  change (world.discards.set task stage).get? other = _ at h
  rw [OrderedMap.get?_set] at h
  split at h
  · exact Or.inl (Option.some.inj h)
  · exact Or.inr h

theorem get?_endTask {task other promise : Nat}
    {pending : List (JsString × Option (List BufferMutation))} {removed : List SessionRecord}
    (h : (world.endTask task).discards.get? other =
      some (.deleting promise pending removed)) :
    world.discards.get? other = some (.deleting promise pending removed) := by
  change (world.discards.delete task).get? other = _ at h
  rw [OrderedMap.get?_delete] at h
  split at h
  · cases h
  · exact h

theorem Unanchored.endTask (h : Unanchored world) (task : Nat) :
    Unanchored (world.endTask task) :=
  h.of_sessions rfl fun _ _ _ _ htask => get?_endTask htask

theorem Unanchored.detach (hinv : Inv P world) (h : Unanchored world) (ids : List JsString)
    (task promise : Nat) (pending : List (JsString × Option (List BufferMutation))) :
    Unanchored (({ world with registry := (World.detach world.registry ids).1 }).setTask task
      (.deleting promise pending (World.detach world.registry ids).2)) := by
  have hspec := detach_spec hinv.keyed hinv.queued ids
  refine ⟨?_, ?_⟩
  · intro id record hget
    change (World.detach world.registry ids).1.get id = some record at hget
    rw [hspec.get] at hget
    split at hget
    · cases hget
    · exact h.live id record hget
  · intro other promise' pending' removed htask record hrecord
    rcases get?_setTask htask with hnew | hold
    · injection hnew with _ _ hremoved
      rw [← hremoved] at hrecord
      obtain ⟨-, kept, hget, hsame⟩ := hspec.removed record hrecord
      exact hsame.anchor.trans (h.live _ kept hget)
    · exact h.detached _ _ _ _ hold record hrecord

theorem Unanchored.restore (hinv : Inv P world) (h : Unanchored world) {task promise next : Nat}
    {pending : List (JsString × Option (List BufferMutation))} {removed : List SessionRecord}
    (htask : world.discards.get? task = some (.deleting promise pending removed)) :
    Unanchored (({ world with
      registry := removed.foldl (restoreOne pending) world.registry }).setTask task
        (.restoring next)) := by
  have htaken := hinv.detached task promise pending removed htask
  have hspec : RestoredBy world.registry pending removed
      (removed.foldl (restoreOne pending) world.registry) :=
    restore_spec _ htaken.distinct world.registry htaken.gone
  refine ⟨?_, ?_⟩
  · intro id record hget
    change (removed.foldl (restoreOne pending) world.registry).get id = some record at hget
    by_cases hid : id ∈ removed.map SessionRecord.sessionId
    · obtain ⟨kept, hkept, rfl⟩ := List.mem_map.1 hid
      rw [hspec.back kept hkept, Option.some.injEq] at hget
      rw [← hget]
      exact h.detached _ _ _ _ htask kept hkept
    · rw [hspec.get id hid] at hget
      exact h.live id record hget
  · intro other promise' pending' removed' hother
    rcases get?_setTask hother with hnew | hold
    · cases hnew
    · exact h.detached _ _ _ _ hold

/-- Without sweeps and crashes there are no anchors. -/
theorem unanchored_step (hjournal : options.journal = true) (hinv : Inv P world)
    (h : Unanchored world) {action : Action} (hjournals : action.journals = true)
    (hnext : world.step P options action = some next) : Unanchored next := by
  cases move_of_step hnext with
  | @call call clock uuid _ =>
      have heffect := call.run_effect (P := P) hjournal hinv.keyed clock uuid
      simp only [Action.journals, Bool.not_eq_true'] at hjournals
      rw [hjournals] at heffect
      exact ⟨effect_unanchored hjournal heffect h.live, h.detached⟩
  | persist => exact h.persist
  | settle =>
      apply Unanchored.persist
      refine h.of_sessions rfl fun _ _ _ _ htask => ?_
      rcases get?_setTask htask with hnew | hold
      · cases hnew
      · exact hold
  | detach _ _ => exact (h.detach hinv _ _ _ _).persist
  | restore htask _ => exact (h.restore hinv htask).persist
  | finish => exact h.endTask _
  | store _ _ => exact h.of_sessions rfl fun _ _ _ _ htask => htask
  | fail _ => exact h.of_sessions rfl fun _ _ _ _ htask => htask
  | @unqueue save hdrain =>
      have hsave : save ∈ world.drain.save? := by
        rw [hdrain]
        rfl
      obtain ⟨pendingEvents, hregistry, -, -⟩ :=
        unqueueAll_eq (hinv.save save hsave).distinct.appends world.registry
      unfold afterReturn
      rw [hregistry]
      exact h.of_sessions rfl fun _ _ _ _ htask => htask
  | requeue _ => exact h.of_sessions rfl fun _ _ _ _ htask => htask
  | rest _ _ => exact h.of_sessions rfl fun _ _ _ _ htask => htask
  | restart _ _ =>
      apply h.of_sessions
      · rw [startSave_sessions]
      · intro task promise pending removed htask
        rwa [startSave_discards] at htask
  | observe _ hsame _ =>
      have hobserved := h.registry hsame
      exact ⟨hobserved.live, hobserved.detached⟩
  | answer hsame _ => exact (h.registry hsame).persist
  | crash => cases hjournals

/-! ## Stored events in a queue -/

theorem edit_live (hjournal : options.journal = true) {registry after : Registry}
    {sweeps : Bool} {events : List (JsString × BufferMutation)}
    (h : Edit P options sweeps registry events after) {id : JsString}
    (hget : (after.get id).isSome = true) : (registry.get id).isSome = true := by
  cases h with
  | same h =>
      obtain ⟨later, hlater⟩ := Option.isSome_iff_exists.1 hget
      obtain ⟨record, hrecord, -⟩ := h.get_some' hlater
      rw [hrecord]
      rfl
  | accept hrecord _ => rwa [isSome_get_accepted hjournal id _ _ _ hrecord] at hget
  | @remove removedId _ nextId _ =>
      change ((removeSession registry removedId).get id).isSome = true at hget
      rw [get_removeSession] at hget
      split at hget
      · cases hget
      · exact hget
  | @anchor anchoredId record kept nextId hrecord _ _ _ =>
      have hput : (anchored registry anchoredId kept nextId).get id =
          if id = anchoredId then some kept else registry.get id :=
        OrderedMap.get?_set _ _ _ _
      rw [hput] at hget
      split at hget
      · rename_i heq
        rw [heq, hrecord]
        rfl
      · exact hget

theorem edits_live (hjournal : options.journal = true) {registry after : Registry}
    {sweeps : Bool} {events : List (JsString × BufferMutation)}
    (h : Edits P options sweeps registry events after) {id : JsString}
    (hget : (after.get id).isSome = true) : (registry.get id).isSome = true := by
  induction h with
  | nil => exact hget
  | cons head _ ih => exact edit_live hjournal head (ih hget)

/-- A call creates no session but the one under the identifier it draws. -/
theorem effect_live (hjournal : options.journal = true) {registry after : Registry}
    {sweeps : Bool} {events : List (JsString × BufferMutation)} {uuid id : JsString}
    (h : CallEffect P options sweeps uuid registry events after)
    (hget : (after.get id).isSome = true) : (registry.get id).isSome = true ∨ id = uuid := by
  cases h with
  | edits h => exact Or.inl (edits_live hjournal h hget)
  | @create middle created h hid hnew =>
      have hput : (insertNew middle created).get id =
          if id = created.sessionId then some created else middle.get id :=
        OrderedMap.get?_set _ _ _ _
      rw [hput] at hget
      split at hget
      · rename_i heq
        exact Or.inr (heq.trans hid)
      · obtain ⟨later, hlater⟩ := Option.isSome_iff_exists.1 hget
        obtain ⟨record, hrecord, -⟩ := h.get_some' hlater
        rw [hrecord]
        exact Or.inl rfl

theorem Claimed.mono (h : Claimed world)
    (hlive : ∀ id, (next.registry.get id).isSome = true →
      (world.registry.get id).isSome = true ∨ id ∉ next.landed)
    (hids : ∀ id ∈ next.landed, id ∈ world.landed)
    (hlanded : ∀ change, world.Landed change → next.Landed change) : Claimed next := by
  intro id record hget hmem
  have hsome : (next.registry.get id).isSome = true := by
    rw [hget]
    rfl
  obtain ⟨earlier, hearlier⟩ := Option.isSome_iff_exists.1
    ((hlive id hsome).resolve_right fun hnot => hnot hmem)
  obtain ⟨change, hchange, hsession⟩ := h id earlier hearlier (hids id hmem)
  exact ⟨change, hlanded change hchange, hsession⟩

theorem Claimed.of_sessions (h : Claimed world)
    (hsessions : next.registry.sessions = world.registry.sessions)
    (hids : next.landed = world.landed)
    (hlanded : ∀ change, world.Landed change → next.Landed change) : Claimed next := by
  refine h.mono (fun id hget => Or.inl ?_) (fun id hmem => ?_) hlanded
  · rwa [Registry.get, hsessions] at hget
  · rwa [hids] at hmem

theorem Claimed.registry (h : Claimed world) {registry : Registry}
    (hsame : SameJournal world.registry registry) : Claimed { world with registry } := by
  refine h.mono (fun id hget => Or.inl ?_) (fun _ hmem => hmem) (fun _ hchange => hchange)
  obtain ⟨later, hlater⟩ := Option.isSome_iff_exists.1 hget
  obtain ⟨record, hrecord, -⟩ := hsame.get_some' hlater
  rw [hrecord]
  rfl

theorem landed_persist {change : JournalAppend} (h : world.Landed change) :
    world.persist.Landed change := by
  obtain ⟨save, hdrain, hmem⟩ := h
  have hkick : world.persist = world.wait := by
    unfold persist kick
    split
    · rename_i hidle
      rw [show world.wait.drain = world.drain from rfl, hdrain] at hidle
      cases hidle
    · rfl
  rw [hkick]
  exact ⟨save, hdrain, hmem⟩

theorem Claimed.persist (h : Claimed world) : Claimed world.persist :=
  h.of_sessions world.persist_sessions world.persist_landed fun _ => landed_persist

theorem Claimed.stored (h : Claimed world) {save : Save}
    (hdrain : world.drain = .committing save) (store : JournalStore) :
    Claimed { world with
      store, drain := .settled save true, landed := world.landed.addAll (appendIds save) } := by
  intro id record hget hmem
  rcases OrderedSet.mem_addAll.1 hmem with hnew | hold
  · obtain ⟨change, hchange, rfl⟩ := List.mem_map.1 hnew
    exact ⟨change, ⟨save, rfl, hchange⟩, rfl⟩
  · obtain ⟨change, ⟨other, hother, -⟩, -⟩ := h id record hget hold
    rw [hdrain] at hother
    cases hother

theorem Claimed.unqueued (hinv : Inv P world) (hun : Unanchored world) (h : Claimed world)
    {save : Save}
    (hdrain : world.drain = .settled save true) :
    Claimed { world with
      registry := save.batch.appends.foldl unqueue world.registry
      drain := .returned save.waiters true
      landed := world.landed.deleteAll ((appendIds save).filter fun id =>
        (world.registry.pendingEvents.get? id).isSome) } := by
  have hsave : save ∈ world.drain.save? := by
    rw [hdrain]
    rfl
  have hsound := hinv.save save hsave
  obtain ⟨pendingEvents, hregistry, -, -⟩ :=
    unqueueAll_eq hsound.distinct.appends world.registry
  intro id record hget hmem
  -- A session in the registry has just left its stored events behind.
  exfalso
  rw [hregistry] at hget
  obtain ⟨hout, hin⟩ := OrderedSet.mem_deleteAll.1 hmem
  obtain ⟨change, ⟨other, hother, hchange⟩, rfl⟩ := h id record hget hin
  rw [hdrain] at hother
  injection hother with hother
  subst hother
  apply hout
  refine List.mem_filter.2 ⟨List.mem_map.2 ⟨change, hchange, rfl⟩, ?_⟩
  by_contra hnone
  rw [Option.not_isSome_iff_eq_none] at hnone
  have hlive : world.registry.get change.sessionId = some record := hget
  have hplaced := hinv.placed record _ (.live hlive) (hun.live _ _ hlive)
  have hid : record.sessionId = change.sessionId := hinv.keyed _ _ hlive
  have hfront : change.events <+: world.registry.pending change.sessionId :=
    hplaced.inFlight change ⟨save, hsave, hchange⟩ hid.symm
  have hempty : world.registry.pending change.sessionId = [] := by
    rw [Registry.pending, hnone]
    rfl
  rw [hempty] at hfront
  exact (hsound.appends change hchange).1 (List.prefix_nil.1 hfront)

theorem Claimed.detach (hinv : Inv P world) (h : Claimed world) (ids : List JsString)
    (task promise : Nat) (pending : List (JsString × Option (List BufferMutation))) :
    Claimed (({ world with registry := (World.detach world.registry ids).1 }).setTask task
      (.deleting promise pending (World.detach world.registry ids).2)) := by
  have hspec := detach_spec hinv.keyed hinv.queued ids
  refine h.mono (fun id hget => Or.inl ?_) (fun _ hmem => hmem) fun _ hchange => hchange
  change ((World.detach world.registry ids).1.get id).isSome = true at hget
  rw [hspec.get] at hget
  split at hget
  · cases hget
  · exact hget

/-- Whatever a clean rollback brings back has no stored events in its queue. -/
theorem Claimed.restore (hinv : Inv P world) (h : Claimed world) {task promise next : Nat}
    {pending : List (JsString × Option (List BufferMutation))} {removed : List SessionRecord}
    (htask : world.discards.get? task = some (.deleting promise pending removed))
    (hclean : ∀ record ∈ removed, record.sessionId ∉ world.landed) :
    Claimed (({ world with
      registry := removed.foldl (restoreOne pending) world.registry }).setTask task
        (.restoring next)) := by
  have htaken := hinv.detached task promise pending removed htask
  have hspec : RestoredBy world.registry pending removed
      (removed.foldl (restoreOne pending) world.registry) :=
    restore_spec _ htaken.distinct world.registry htaken.gone
  refine h.mono (fun id hget => ?_) (fun _ hmem => hmem) fun _ hchange => hchange
  change ((removed.foldl (restoreOne pending) world.registry).get id).isSome = true at hget
  by_cases hid : id ∈ removed.map SessionRecord.sessionId
  · obtain ⟨record, hrecord, rfl⟩ := List.mem_map.1 hid
    exact Or.inr (hclean record hrecord)
  · rw [hspec.get id hid] at hget
    exact Or.inl hget

/-- A change before which storage has not just answered. -/
theorem Claimed.of_drain (h : Claimed world) (hanswered : ∀ save, world.drain ≠ .settled save true)
    (hsessions : next.registry.sessions = world.registry.sessions)
    (hids : next.landed = world.landed) : Claimed next := by
  refine h.of_sessions hsessions hids fun change hchange => ?_
  obtain ⟨save, hdrain, -⟩ := hchange
  exact absurd hdrain (hanswered save)

theorem claimed_step (hjournal : options.journal = true) (hinv : Inv P world)
    (hun : Unanchored world) (h : Claimed world) {action : Action}
    (hclean : world.CleanRollback action)
    (hnext : world.step P options action = some next) : Claimed next := by
  cases move_of_step hnext with
  | @call call clock uuid _ =>
      have heffect := call.run_effect (P := P) hjournal hinv.keyed clock uuid
      refine h.mono (fun id hget => ?_) (fun id hmem => ?_) fun _ hchange => hchange
      · refine (effect_live hjournal heffect hget).imp_right fun heq hmem => ?_
        exact (OrderedSet.mem_delete.1 hmem).1 heq
      · exact (OrderedSet.mem_delete.1 hmem).2
  | persist => exact h.persist
  | settle =>
      apply Claimed.persist
      exact h.of_sessions rfl rfl fun _ hchange => hchange
  | detach _ _ => exact (h.detach hinv _ _ _ _).persist
  | restore htask hfailed =>
      have hrolled := rolledBack_eq htask hfailed
      apply Claimed.persist
      apply h.restore hinv htask
      intro record hrecord
      apply (hclean record _).2
      rwa [hrolled]
  | finish => exact h.of_sessions rfl rfl fun _ hchange => hchange
  | store hdrain _ => exact h.stored hdrain _
  | fail hdrain =>
      refine h.of_drain ?_ rfl rfl
      simp [hdrain]
  | unqueue hdrain => exact h.unqueued hinv hun hdrain
  | requeue hdrain =>
      refine h.of_drain ?_ rfl rfl
      simp [hdrain]
  | rest hdrain _ =>
      refine h.of_drain ?_ rfl rfl
      simp [hdrain]
  | restart hdrain _ =>
      apply h.of_drain
      · simp [hdrain]
      · rw [startSave_sessions]
      · rw [startSave_landed]
  | observe _ hsame _ => exact (h.registry hsame).of_sessions rfl rfl fun _ hchange => hchange
  | answer hsame _ => exact (h.registry hsame).persist
  | crash =>
      intro id record _ hmem
      exact absurd hmem (OrderedSet.not_mem_empty id)

/-! ## Runs -/

/-- What carries conservation through a run. -/
structure Conserving (P : Platform) (world : World) : Prop where
  inv : Inv P world
  unanchored : Unanchored world
  claimed : Claimed world

theorem conserving_boot {store : JournalStore} (hstore : Durable P store)
    (hanchors : ∀ id session, store.session id = some session →
      session.continuationAnchor = false) (nextId : Nat) :
    Conserving P (boot store nextId) where
  inv := inv_boot hstore nextId
  unanchored := by
    refine ⟨?_, ?_⟩
    · intro id record hget
      rcases get_loadAll hget with hnone | ⟨stored, hstored, -, hsame⟩
      · cases hnone
      · obtain ⟨key, hkey⟩ := mem_read hstored
        exact hsame.anchor.trans (hanchors key stored hkey)
    · intro task promise pending removed htask
      cases htask
  claimed id record _ hmem := absurd hmem (OrderedSet.not_mem_empty id)

theorem conserving_step (hjournal : options.journal = true) (h : Conserving P world)
    {action : Action} (hjournals : action.journals = true) (hclean : world.CleanRollback action)
    (hnext : world.step P options action = some next) : Conserving P next where
  inv := inv_step hjournal h.inv (fun record hrecord => (hclean record hrecord).1) hnext
  unanchored := unanchored_step hjournal h.inv h.unanchored hjournals hnext
  claimed := claimed_step hjournal h.inv h.unanchored h.claimed hclean hnext

theorem conserving_run (hjournal : options.journal = true) {first world : World}
    (hfirst : Conserving P first)
    (run : Run P options (fun world action => action.journals = true ∧ world.CleanRollback action)
      first world) : Conserving P world := by
  induction run with
  | refl => exact hfirst
  | step _ hcondition hnext ih =>
      exact conserving_step hjournal ih hcondition.1 hcondition.2 hnext

theorem not_landed_of_claimed (h : Claimed world) (hquiet : world.drain.save? = none)
    {id : JsString} {record : SessionRecord} (hget : world.registry.get id = some record) :
    id ∉ world.landed := by
  intro hmem
  obtain ⟨change, hchange, -⟩ := h id record hget hmem
  exact not_landed hquiet change hchange

/-- Rows and queue are the first and the last part of the log, and as long together. -/
theorem append_eq_of_covering {log rows queue : List BufferMutation} (hrows : rows <+: log)
    (hends : queue <:+ log) (hlength : rows.length + queue.length = log.length) :
    rows ++ queue = log := by
  obtain ⟨rest, rfl⟩ := hrows
  have hrest : rest.length = queue.length := by
    rw [List.length_append] at hlength
    omega
  have hsuffix : queue <:+ rest :=
    List.suffix_of_suffix_length_le hends (List.suffix_append rows rest) hrest.ge
  rw [hsuffix.eq_of_length hrest.symm]

/-- Every run whose rollbacks are clean keeps what it has accepted. -/
theorem conserved_run (hjournal : options.journal = true) {store : JournalStore}
    (hstore : Durable P store)
    (hanchors : ∀ id session, store.session id = some session →
      session.continuationAnchor = false)
    {nextId : Nat} {world : World}
    (run : Run P options (fun world action => action.journals = true ∧ world.CleanRollback action)
      (boot store nextId) world)
    (hquiet : world.drain.save? = none) (id : JsString) (record : SessionRecord)
    (hget : world.registry.get id = some record) : Conserved world id record := by
  have h := conserving_run hjournal (conserving_boot hstore hanchors nextId) run
  have hplaced := h.inv.placed record _ (.live hget) (h.unanchored.live id record hget)
  have hid : record.sessionId = id := h.inv.keyed id record hget
  have hbalanced := hplaced.balanced (hid ▸ not_landed_of_claimed h.claimed hquiet hget)
  refine ⟨?_, ?_⟩
  · rw [← hid]
    exact append_eq_of_covering hplaced.rows (hid ▸ hplaced.ends) (hid ▸ hbalanced)
  · rw [← hid, hplaced.describes.sessionEventCount_eq]
    exact map_seq_of_valid hplaced.describes.valid

/-! ## A rollback of stored events -/

/-- Between the save that `discardPersisted` waits for and its `discard`, a commit that
another caller waits for takes the events of the session; it succeeds after the queue
has been captured, and the deletion fails. -/
def staleRollback : List Action :=
  [startWriting, typeLetter, .discardPersisted [exampleSession], typeLetter, .persist,
    .storeSettles true, .commitReturns, .drainContinues, .resumeDiscard 1] ++
    commitEnds true ++ commitEnds false ++ [.resumeDiscard 1] ++ commitEnds false

theorem not_conserved_staleRollback :
    ¬ ∀ world, Run Platform.standard exampleOptions (fun _ action => action.journals = true)
        (boot JournalStore.empty 0) world → world.drain.save? = none →
      ∀ id record, world.registry.get id = some record → Conserved world id record := by
  intro h
  have hstale : (steps Platform.standard exampleOptions (fun _ action => action.journals = true)
      (boot JournalStore.empty 0) staleRollback).any (fun world =>
        world.drain.save?.isNone ∧ (world.registry.get exampleSession).isSome ∧
          (world.store.events exampleSession ++ world.registry.pending exampleSession).length ≠
            (world.accepted exampleSession).length) = true := by
    decide +kernel
  obtain ⟨world, hworld, hcheck⟩ := (Option.any_eq_true _ _).1 hstale
  obtain ⟨hquiet, hsome, hlength⟩ := of_decide_eq_true hcheck
  obtain ⟨record, hget⟩ := Option.isSome_iff_exists.1 hsome
  -- Its stored events are queued again.
  apply hlength
  rw [(h world ((Run.refl _).steps hworld) (Option.isNone_iff_eq_none.1 hquiet) _ record
    hget).events]

theorem conserved_timelyRollback :
    ∃ world, steps Platform.standard exampleOptions
        (fun world action => action.journals = true ∧ world.CleanRollback action)
        (boot JournalStore.empty 0) timelyRollback = some world ∧
      ∃ record, world.registry.get exampleSession = some record ∧
        Conserved world exampleSession record := by
  have hrun : (steps Platform.standard exampleOptions
      (fun world action => action.journals = true ∧ world.CleanRollback action)
      (boot JournalStore.empty 0) timelyRollback).any (fun world =>
        world.drain.save?.isNone ∧ (world.registry.get exampleSession).isSome) = true := by
    decide +kernel
  obtain ⟨world, hworld, hcheck⟩ := (Option.any_eq_true _ _).1 hrun
  obtain ⟨hquiet, hsome⟩ := of_decide_eq_true hcheck
  obtain ⟨record, hget⟩ := Option.isSome_iff_exists.1 hsome
  exact ⟨world, hworld, record, hget,
    conserved_run rfl (durable_empty Platform.standard) (fun _ _ h => by cases h)
      ((Run.refl _).steps hworld) (Option.isNone_iff_eq_none.1 hquiet) _ record hget⟩

end World

end Pmbah.Producer
