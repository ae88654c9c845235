import Mathlib.Data.List.Infix
import Pmbah.Producer.Turns

/-!
# What `persist` acknowledges

A promise of `persist` is answered by the first iteration of the drain loop that
starts after the call.  When it resolves, storage has what was accepted and
removed before the call; when it rejects, the queues are as they were, and the
next commit that succeeds stores them.
-/

namespace Pmbah.Producer

open Js Format Library

namespace World

variable {P : Platform} {options : RegistryOptions} {world next : World}

/-! ## Work that waits for a save -/

/-- A session with queued events is dirty, or the commit under way has them all. -/
def Queued (world : World) : Prop :=
  ∀ id, world.registry.pending id ≠ [] → id ∈ world.registry.dirty ∨
    ∃ save ∈ world.drain.save?, id ∈ save.ids ∧
      ⟨id, world.registry.pending id⟩ ∈ save.batch.appends

theorem Queued.marks (h : Queued world) {registry : Registry}
    (hmarks : Marks world.registry registry) (hdrain : next.drain = world.drain)
    (hregistry : next.registry = registry) : Queued next := by
  intro id hpending
  rw [hregistry] at hpending ⊢
  rcases hmarks id hpending with ⟨hsame, hdirty⟩ | hdirty
  · rw [hsame] at hpending ⊢
    rw [hdrain]
    exact (h id hpending).imp_left hdirty
  · exact Or.inl hdirty

theorem Queued.startSave (h : Queued world) (hquiet : world.drain.save? = none) :
    Queued world.startSave := by
  have hdirty : ∀ id, world.registry.pending id ≠ [] → id ∈ world.registry.dirty := by
    intro id hpending
    rcases h id hpending with hmem | ⟨save, hsave, -⟩
    · exact hmem
    · rw [hquiet] at hsave
      cases hsave
  intro id hpending
  rw [Registry.pending, startSave_pendingEvents] at hpending ⊢
  have hmem := hdirty id hpending
  unfold World.startSave
  simp only
  split
  · rename_i hnothing
    simp only [Bool.and_eq_true, List.isEmpty_iff] at hnothing
    rw [← OrderedSet.mem_members, hnothing.1.1] at hmem
    exact absurd hmem List.not_mem_nil
  · refine Or.inr ⟨_, rfl, hmem, ?_⟩
    exact mem_nextBatch_appends.2 ⟨hmem, hpending, rfl⟩

theorem Queued.persist (h : Queued world) : Queued world.persist := by
  have hwait : Queued world.wait := h
  unfold World.persist kick
  split
  · rename_i hidle
    apply hwait.startSave
    rw [hidle]
    rfl
  · exact hwait

theorem getD_map_drop (queue : Option (List BufferMutation)) (count : Nat) :
    (queue.map (List.drop count)).getD [] = (queue.getD []).drop count := by
  cases queue with
  | none => exact List.drop_nil.symm
  | some queue => rfl

theorem Queued.unqueued (hinv : Inv P world) (h : Queued world) {save : Save}
    (hdrain : world.drain = .settled save true)
    (hregistry : next.registry = save.batch.appends.foldl unqueue world.registry) :
    Queued next := by
  have hsave : save ∈ world.drain.save? := by
    rw [hdrain]
    rfl
  have hdistinct := (hinv.save save hsave).distinct.appends
  obtain ⟨pendingEvents, heq, hchanged, hkept⟩ := unqueueAll_eq hdistinct world.registry
  rw [heq] at hregistry
  intro id hpending
  left
  rw [hregistry] at hpending ⊢
  change (pendingEvents.get? id).getD [] ≠ [] at hpending
  show id ∈ world.registry.dirty
  by_cases hstored : id ∈ save.batch.appends.map JournalAppend.sessionId
  · obtain ⟨change, hchange, rfl⟩ := List.mem_map.1 hstored
    rw [hchanged change hchange] at hpending
    rw [getD_map_drop] at hpending
    have hbefore : world.registry.pending change.sessionId ≠ [] := by
      intro hempty
      apply hpending
      rw [← Registry.pending, hempty, List.drop_nil]
    rcases h _ hbefore with hdirty | ⟨other, hother, -, hall⟩
    · exact hdirty
    · -- The commit had the whole queue, so nothing of it is left.
      rw [hdrain] at hother
      cases hother
      have hsame : change = ⟨change.sessionId, world.registry.pending change.sessionId⟩ :=
        List.inj_on_of_nodup_map hdistinct hchange hall rfl
      have hevents : change.events = world.registry.pending change.sessionId :=
        congrArg JournalAppend.events hsame
      exfalso
      apply hpending
      rw [← Registry.pending, hevents, List.drop_length]
  · rw [hkept id hstored] at hpending
    rcases h id hpending with hdirty | ⟨other, hother, -, hall⟩
    · exact hdirty
    · rw [hdrain] at hother
      cases hother
      exact absurd (List.mem_map.2 ⟨_, hall, rfl⟩) hstored

theorem Queued.requeued (h : Queued world) {save : Save}
    (hdrain : world.drain = .settled save false)
    (hregistry : next.registry = requeue world.registry save) : Queued next := by
  intro id hpending
  left
  rw [hregistry] at hpending ⊢
  refine OrderedSet.mem_addAll.2 ?_
  rcases h id hpending with hdirty | ⟨other, hother, hid, -⟩
  · exact Or.inr hdirty
  · rw [hdrain] at hother
    cases hother
    exact Or.inl hid

theorem queued_step (hjournal : options.journal = true) (hinv : Inv P world)
    (hdiscards : ∀ task, world.discards.get? task = none) (h : Queued world) {action : Action}
    (hordinary : action.ordinary = true) (hnext : world.step P options action = some next) :
    Queued next := by
  cases move_of_step hnext with
  | @call made clock uuid _ =>
      exact h.marks (made.run_marks (P := P) hjournal hinv.keyed clock uuid) rfl rfl
  | persist => exact h.persist
  | settle => cases hordinary
  | detach htask _ =>
      rw [hdiscards] at htask
      cases htask
  | restore htask _ =>
      rw [hdiscards] at htask
      cases htask
  | finish => exact h
  | store hdrain _ =>
      unfold Queued at h
      rw [hdrain] at h
      exact h
  | fail hdrain =>
      unfold Queued at h
      rw [hdrain] at h
      exact h
  | unqueue hdrain => exact h.unqueued hinv hdrain rfl
  | requeue hdrain => exact h.requeued hdrain rfl
  | rest hdrain _ =>
      intro id hpending
      rcases h id hpending with hdirty | ⟨save, hsave, -⟩
      · exact Or.inl hdirty
      · rw [hdrain] at hsave
        cases hsave
  | restart hdrain _ =>
      apply Queued.startSave
      · exact h
      · rw [hdrain]
        rfl
  | observe _ hsame _ => exact h.marks hsame.marks rfl rfl
  | @answer _ _ registry hsame _ =>
      have hanswered : Queued { world with registry } := h.marks hsame.marks rfl rfl
      exact hanswered.persist
  | crash => cases hordinary

/-! ## Removals that wait for a save -/

/-- A session that has left the registry is not stored, or its deletion is on its way. -/
structure Removing (world : World) : Prop where
  gone : ∀ id, world.registry.get id = none → world.store.session id = none ∨
    id ∈ world.registry.deleted ∨
    ∃ save, (world.drain = .committing save ∨ world.drain = .settled save false) ∧
      id ∈ save.batch.deleted
  still : ∀ save ∈ world.drain.save?, ∀ session ∈ save.batch.sessions,
    (world.registry.get session.sessionId).isSome = true ∨
      session.sessionId ∈ world.registry.deleted
  apart : ∀ save ∈ world.drain.save?, ∀ session ∈ save.batch.sessions,
    session.sessionId ∉ save.batch.deleted

theorem Removing.retires (h : Removing world) {registry : Registry}
    (hretires : Retires world.registry registry) (hdrain : next.drain = world.drain)
    (hstore : next.store = world.store) (hregistry : next.registry = registry) :
    Removing next where
  gone id hget := by
    rw [hregistry] at hget ⊢
    rw [hdrain, hstore]
    by_cases hdeleted : id ∈ registry.deleted
    · exact Or.inr (Or.inl hdeleted)
    · rcases h.gone id (hretires.get_none hget hdeleted) with hnone | hold | hsave
      · exact Or.inl hnone
      · exact Or.inr (Or.inl (hretires.deleted id hold))
      · exact Or.inr (Or.inr hsave)
  still save hsave session hsession := by
    rw [hdrain] at hsave
    rw [hregistry]
    rcases h.still save hsave session hsession with hsome | hdeleted
    · exact hretires.live _ hsome
    · exact Or.inr (hretires.deleted _ hdeleted)
  apart save hsave := by
    rw [hdrain] at hsave
    exact h.apart save hsave

theorem Removing.startSave (hinv : Inv P world) (h : Removing world)
    (hquiet : world.drain.save? = none) : Removing world.startSave := by
  have hgone : ∀ id, world.registry.get id = none →
      world.store.session id = none ∨ id ∈ world.registry.deleted := by
    intro id hget
    rcases h.gone id hget with hnone | hdeleted | ⟨save, hsave, -⟩
    · exact Or.inl hnone
    · exact Or.inr hdeleted
    · rcases hsave with hsave | hsave
      · rw [hsave] at hquiet
        cases hquiet
      · rw [hsave] at hquiet
        cases hquiet
  unfold World.startSave
  simp only
  split
  · rename_i hnothing
    refine ⟨fun id hget => (hgone id hget).imp_right Or.inl, ?_, ?_⟩
    · intro save hsave
      cases hsave
    · intro save hsave
      cases hsave
  · refine ⟨?_, ?_, ?_⟩
    · intro id hget
      exact (hgone id hget).imp_right fun hdeleted => Or.inr ⟨_, Or.inl rfl, hdeleted⟩
    · rintro save ⟨rfl⟩ session hsession
      obtain ⟨id, -, hget⟩ := mem_nextBatch_sessions.1 hsession
      left
      rw [hinv.keyed id session hget]
      show (world.registry.get id).isSome = true
      rw [hget]
      rfl
    · rintro save ⟨rfl⟩ session hsession hdeleted
      obtain ⟨id, -, hget⟩ := mem_nextBatch_sessions.1 hsession
      rw [hinv.keyed id session hget] at hdeleted
      exact (hinv.kept id session hget).1 hdeleted

theorem Removing.persist (hinv : Inv P world) (h : Removing world) : Removing world.persist := by
  have hwait : Removing world.wait := ⟨h.gone, h.still, h.apart⟩
  unfold World.persist kick
  split
  · rename_i hidle
    apply hwait.startSave (inv_wait hinv)
    rw [hidle]
    rfl
  · exact hwait

/-- A commit takes the sessions it deletes out of storage, and puts none back that has gone. -/
theorem Removing.stored (hinv : Inv P world) (h : Removing world) {save : Save}
    {store : JournalStore} (hdrain : world.drain = .committing save)
    (hcommit : world.store.commit save.batch = some store) {landed : OrderedSet JsString} :
    Removing { world with store, drain := .settled save true, landed } := by
  have hsave : save ∈ world.drain.save? := by
    rw [hdrain]
    rfl
  have hcommitted := JournalStore.commit_eq_some hcommit (hinv.save save hsave).distinct
  refine ⟨?_, ?_, ?_⟩
  · intro id hget
    show store.session id = none ∨ _
    by_cases hput : id ∈ save.batch.sessions.map SessionRecord.sessionId
    · obtain ⟨session, hsession, rfl⟩ := List.mem_map.1 hput
      rcases h.still save hsave session hsession with hsome | hdeleted
      · rw [show world.registry.get session.sessionId = none from hget] at hsome
        cases hsome
      · exact Or.inr (Or.inl hdeleted)
    · rw [hcommitted.untouched id hput]
      by_cases hdeleting : id ∈ save.batch.deleted
      · exact Or.inl (if_pos hdeleting)
      · rw [if_neg hdeleting]
        rcases h.gone id hget with hnone | hdeleted | ⟨other, hother, hmem⟩
        · exact Or.inl hnone
        · exact Or.inr (Or.inl hdeleted)
        · rw [hdrain] at hother
          rcases hother with hother | hother
          · cases hother
            exact absurd hmem hdeleting
          · cases hother
  · rintro other ⟨rfl⟩
    exact h.still save hsave
  · rintro other ⟨rfl⟩
    exact h.apart save hsave

/-- A step that leaves storage alone when no deletion is under way. -/
theorem Removing.quiet (h : Removing world)
    (hgone : ∀ id, id ∈ world.registry.deleted ∨ (∃ save, (world.drain = .committing save ∨
      world.drain = .settled save false) ∧ id ∈ save.batch.deleted) →
        id ∈ next.registry.deleted)
    (hsessions : next.registry.sessions = world.registry.sessions)
    (hstore : next.store = world.store) (hquiet : next.drain.save? = none) : Removing next where
  gone id hget := by
    rw [Registry.get, hsessions] at hget
    rw [hstore]
    exact (h.gone id hget).imp_right fun hmem => Or.inl (hgone id hmem)
  still save hsave := by
    rw [hquiet] at hsave
    cases hsave
  apart save hsave := by
    rw [hquiet] at hsave
    cases hsave

theorem Removing.failed (h : Removing world) {save : Save}
    (hdrain : world.drain = .committing save) :
    Removing { world with drain := .settled save false } := by
  have hsave : save ∈ world.drain.save? := by
    rw [hdrain]
    rfl
  refine ⟨?_, ?_, ?_⟩
  · intro id hget
    refine (h.gone id hget).imp_right (Or.imp_right ?_)
    rintro ⟨other, hother, hmem⟩
    rw [hdrain] at hother
    rcases hother with hother | hother
    · cases hother
      exact ⟨save, Or.inr rfl, hmem⟩
    · cases hother
  · rintro other ⟨rfl⟩
    exact h.still save hsave
  · rintro other ⟨rfl⟩
    exact h.apart save hsave

theorem removing_step (hjournal : options.journal = true) (hinv : Inv P world)
    (hdiscards : ∀ task, world.discards.get? task = none) (h : Removing world)
    {action : Action} (hordinary : action.ordinary = true)
    (hnext : world.step P options action = some next) : Removing next := by
  cases move_of_step hnext with
  | @call made clock uuid _ =>
      exact h.retires (effect_retires hjournal
        (made.run_effect (P := P) hjournal hinv.keyed clock uuid)) rfl rfl rfl
  | persist => exact h.persist hinv
  | settle => cases hordinary
  | detach htask _ =>
      rw [hdiscards] at htask
      cases htask
  | restore htask _ =>
      rw [hdiscards] at htask
      cases htask
  | finish => exact ⟨h.gone, h.still, h.apart⟩
  | store hdrain hcommit => exact h.stored hinv hdrain hcommit
  | fail hdrain => exact h.failed hdrain
  | @unqueue save hdrain =>
      have hsave : save ∈ world.drain.save? := by
        rw [hdrain]
        rfl
      obtain ⟨pendingEvents, hregistry, -, -⟩ :=
        unqueueAll_eq (hinv.save save hsave).distinct.appends world.registry
      unfold afterReturn
      rw [hregistry]
      refine h.quiet ?_ rfl rfl rfl
      rintro id (hdeleted | ⟨other, hother, -⟩)
      · exact hdeleted
      · simp [hdrain] at hother
  | requeue hdrain =>
      refine h.quiet ?_ rfl rfl rfl
      rintro id (hdeleted | ⟨other, hother, hmem⟩)
      · exact OrderedSet.mem_addAll.2 (Or.inr hdeleted)
      · rw [hdrain] at hother
        rcases hother with hother | hother
        · cases hother
        · cases hother
          exact OrderedSet.mem_addAll.2 (Or.inl hmem)
  | rest hdrain _ =>
      refine h.quiet ?_ rfl rfl rfl
      rintro id (hdeleted | ⟨other, hother, -⟩)
      · exact hdeleted
      · simp [hdrain] at hother
  | @restart waiters saved hdrain _ =>
      have hquiet : world.drain.save? = none := by
        rw [hdrain]
        rfl
      have hframe : Frame world { world with outcomes := settle world.outcomes waiters saved } :=
        ⟨.refl _, rfl, rfl, rfl, rfl, fun _ _ _ _ htask => htask⟩
      apply Removing.startSave (hframe.inv hinv)
      · exact ⟨h.gone, h.still, h.apart⟩
      · exact hquiet
  | observe _ hsame _ => exact h.retires hsame.retires rfl rfl rfl
  | @answer _ _ registry hsame _ =>
      have hanswered : Removing { world with registry } := h.retires hsame.retires rfl rfl rfl
      exact hanswered.persist (inv_registry hinv hsame)
  | crash => cases hordinary

/-! ## Between saves -/

/-- What holds at every `await` of a run without sweeps, crashes and `discardPersisted`. -/
structure Settling (P : Platform) (world : World) : Prop where
  conserving : Conserving P world
  undiscarded : ∀ task, world.discards.get? task = none
  queued : Queued world
  removing : Removing world
  promised : ∀ promise, promise ∈ world.waiters ∨ promise ∈ world.drain.waiters ∨
    (world.outcomes.get? promise).isSome = true → promise < world.registry.nextId

def Ordinary (_ : World) (action : Action) : Prop := action.ordinary = true

instance (world : World) (action : Action) : Decidable (Ordinary world action) :=
  inferInstanceAs (Decidable (action.ordinary = true))

theorem cleanRollback_of_undiscarded (h : ∀ task, world.discards.get? task = none)
    (action : Action) : world.CleanRollback action := by
  intro record hrecord
  unfold rolledBack at hrecord
  cases action with
  | resumeDiscard task =>
      simp only [h] at hrecord
      exact absurd hrecord List.not_mem_nil
  | _ => exact absurd hrecord List.not_mem_nil

theorem undiscarded_step (h : ∀ task, world.discards.get? task = none) {action : Action}
    (hordinary : action.ordinary = true) (hnext : world.step P options action = some next)
    (task : Nat) : next.discards.get? task = none := by
  cases move_of_step hnext with
  | call _ => exact h task
  | persist =>
      rw [persist_discards]
      exact h task
  | settle => cases hordinary
  | detach htask _ =>
      rw [h] at htask
      cases htask
  | restore htask _ =>
      rw [h] at htask
      cases htask
  | @finish other =>
      show (world.discards.delete other).get? task = none
      rw [OrderedMap.get?_delete, h task, ite_self]
  | store _ _ => exact h task
  | fail _ => exact h task
  | unqueue _ => exact h task
  | requeue _ => exact h task
  | rest _ _ => exact h task
  | restart _ _ =>
      rw [startSave_discards]
      exact h task
  | observe _ _ _ => exact h task
  | answer _ _ =>
      rw [persist_discards]
      exact h task
  | crash => cases hordinary

theorem get?_settle {outcomes : OrderedMap Nat Bool} {waiters : List Nat} {saved : Bool}
    (promise : Nat) :
    (settle outcomes waiters saved).get? promise =
      if promise ∈ waiters then some saved else outcomes.get? promise := by
  unfold settle
  induction waiters generalizing outcomes with
  | nil => rfl
  | cons first waiters ih =>
      rw [List.foldl_cons, ih, OrderedMap.get?_set]
      by_cases hrest : promise ∈ waiters
      · rw [if_pos hrest, if_pos (List.mem_cons_of_mem _ hrest)]
      · rw [if_neg hrest]
        by_cases heq : promise = first
        · rw [if_pos heq, if_pos (List.mem_cons.2 (Or.inl heq))]
        · rw [if_neg heq, if_neg fun hmem => (List.mem_cons.1 hmem).elim heq hrest]

/-- A promise of the next world was there before, or the step has made it. -/
theorem Turn.promise (h : Turn world next) {promise : Nat}
    (hpromise : promise ∈ next.waiters ∨ promise ∈ next.drain.waiters ∨
      (next.outcomes.get? promise).isSome = true) :
    (promise ∈ world.waiters ∨ promise ∈ world.drain.waiters ∨
      (world.outcomes.get? promise).isSome = true) ∨
      (promise = world.registry.nextId ∧ next.registry.nextId = world.registry.nextId + 1) := by
  cases h with
  | still hdrain hstore houtcomes hwaiters =>
      rw [hdrain, houtcomes, hwaiters] at hpromise
      exact Or.inl hpromise
  | joins hbusy hdrain hstore houtcomes hwaiters hnextId =>
      rw [hdrain, houtcomes, hwaiters, List.mem_append, List.mem_singleton] at hpromise
      rcases hpromise with (hold | rfl) | hold
      · exact Or.inl (Or.inl hold)
      · exact Or.inr ⟨rfl, hnextId⟩
      · exact Or.inl (Or.inr hold)
  | starts taken hstore hdirty hdeleted hwaiters hdrain hbefore =>
      have htaken : next.drain.waiters = taken := by
        rcases hdrain with hdrain | ⟨save, hdrain, hsave⟩
        · rw [hdrain]
          rfl
        · rw [hdrain]
          exact hsave
      rw [hwaiters, htaken] at hpromise
      have hcases := hpromise.resolve_left List.not_mem_nil
      rcases hbefore with ⟨-, houtcomes, rfl, hnextId⟩ | ⟨waiters, saved, hreturned, houtcomes, rfl⟩
      · rw [houtcomes, List.mem_append, List.mem_singleton] at hcases
        rcases hcases with (hold | rfl) | hold
        · exact Or.inl (Or.inl hold)
        · exact Or.inr ⟨rfl, hnextId⟩
        · exact Or.inl (Or.inr (Or.inr hold))
      · left
        rw [houtcomes, get?_settle] at hcases
        rcases hcases with hold | hold
        · exact Or.inl hold
        · by_cases hmem : promise ∈ waiters
          · rw [hreturned]
            exact Or.inr (Or.inl hmem)
          · rw [if_neg hmem] at hold
            exact Or.inr (Or.inr hold)
  | stored save store hdrain hcommit hnext =>
      subst hnext
      left
      rw [hdrain]
      exact hpromise
  | failed save hdrain hnext =>
      subst hnext
      left
      rw [hdrain]
      exact hpromise
  | returned save saved hdrain hnext hstore houtcomes hwaiters =>
      left
      rw [hnext, houtcomes, hwaiters] at hpromise
      rw [hdrain]
      exact hpromise
  | rests waiters saved hdrain hnext hstore houtcomes hempty hwaiters =>
      left
      rw [hwaiters, hnext, houtcomes, get?_settle] at hpromise
      rcases hpromise with hnone | hnone | hold
      · exact absurd hnone List.not_mem_nil
      · exact absurd hnone List.not_mem_nil
      · by_cases hmem : promise ∈ waiters
        · rw [hdrain]
          exact Or.inr (Or.inl hmem)
        · rw [if_neg hmem] at hold
          exact Or.inr (Or.inr hold)

theorem promised_step {action : Action} (hgrows : Grows world.registry next.registry action.drops)
    (hturn : Turn world next)
    (h : ∀ promise, promise ∈ world.waiters ∨ promise ∈ world.drain.waiters ∨
      (world.outcomes.get? promise).isSome = true → promise < world.registry.nextId) :
    ∀ promise, promise ∈ next.waiters ∨ promise ∈ next.drain.waiters ∨
      (next.outcomes.get? promise).isSome = true → promise < next.registry.nextId := by
  intro promise hpromise
  rcases hturn.promise hpromise with hold | ⟨rfl, hnextId⟩
  · exact (h promise hold).trans_le hgrows.nextId
  · omega

/-- Loading keeps a session of the registry, and puts in each one of the snapshot. -/
theorem isSome_get_loadAll (snapshot : List SessionRecord) (registry : Registry) (id : JsString)
    (h : (registry.get id).isSome = true ∨ id ∈ snapshot.map SessionRecord.sessionId) :
    ((snapshot.foldl loadRecord registry).get id).isSome = true := by
  induction snapshot generalizing registry with
  | nil => exact h.resolve_right List.not_mem_nil
  | cons first snapshot ih =>
      apply ih
      rw [List.map_cons, List.mem_cons] at h
      rcases h with hsome | heq | hmem
      · exact Or.inl (isSome_set _ _ hsome)
      · left
        rw [heq, Registry.get]
        exact (congrArg Option.isSome (OrderedMap.get?_set_self _ _ _)).trans rfl
      · exact Or.inr hmem

theorem isSome_get_boot {store : JournalStore} (hstore : Durable P store) (nextId : Nat)
    {id : JsString} {session : SessionRecord} (hsession : store.session id = some session) :
    ((boot store nextId).registry.get id).isSome = true := by
  apply isSome_get_loadAll
  right
  refine List.mem_map.2 ⟨session, ?_, hstore.keyed id session hsession⟩
  unfold JournalStore.read
  rw [List.mem_mergeSort]
  exact OrderedMap.mem_values_iff.2 ⟨id, hsession⟩

theorem settling_boot {store : JournalStore} (hstore : Durable P store)
    (hanchors : ∀ id session, store.session id = some session →
      session.continuationAnchor = false) (nextId : Nat) :
    Settling P (boot store nextId) where
  conserving := conserving_boot hstore hanchors nextId
  undiscarded _ := rfl
  queued id hpending := by
    have hload : (boot store nextId).registry.pendingEvents = ∅ := (loadAll_eq _ _).1
    rw [Registry.pending, hload] at hpending
    exact absurd rfl hpending
  removing := by
    refine ⟨?_, ?_, ?_⟩
    · intro id hget
      left
      by_contra hstored
      obtain ⟨session, hsession⟩ := Option.ne_none_iff_exists'.1 hstored
      have hlive := isSome_get_boot hstore nextId hsession
      rw [hget] at hlive
      cases hlive
    · intro save hsave
      cases hsave
    · intro save hsave
      cases hsave
  promised promise hpromise := by
    rcases hpromise with hnone | hnone | hnone
    · exact absurd hnone List.not_mem_nil
    · exact absurd hnone List.not_mem_nil
    · cases hnone

theorem settling_step (hjournal : options.journal = true) (h : Settling P world)
    {action : Action} (hordinary : action.ordinary = true)
    (hnext : world.step P options action = some next) : Settling P next := by
  have hclean := cleanRollback_of_undiscarded h.undiscarded action
  have hjournals : action.journals = true := by
    cases action with
    | call made clock uuid => exact hordinary
    | discardPersisted ids => cases hordinary
    | crash => cases hordinary
    | _ => rfl
  exact
    { conserving := conserving_step hjournal h.conserving hjournals hclean hnext
      undiscarded := undiscarded_step h.undiscarded hordinary hnext
      queued := queued_step hjournal h.conserving.inv h.undiscarded h.queued hordinary hnext
      removing := removing_step hjournal h.conserving.inv h.undiscarded h.removing hordinary hnext
      promised := promised_step (grows_step h.conserving.inv h.undiscarded hordinary hnext)
        (turn_step h.undiscarded hordinary hnext) h.promised }

theorem settling_run (hjournal : options.journal = true) {first : World}
    (hfirst : Settling P first) (run : Run P options Ordinary first world) :
    Settling P world := by
  induction run with
  | refl => exact hfirst
  | step _ hordinary hnext ih => exact settling_step hjournal ih hordinary hnext

/-! ## Stored events of a session that stays -/

theorem record_prefix (accepted : JsString → List BufferMutation)
    (event : Option (JsString × BufferMutation)) (id : JsString) :
    accepted id <+: record accepted event id := by
  cases event with
  | none => exact List.prefix_rfl
  | some pair =>
      obtain ⟨other, event⟩ := pair
      show accepted id <+: Function.update accepted other (accepted other ++ [event]) id
      by_cases heq : id = other
      · subst heq
        rw [Function.update_self]
        exact List.prefix_append _ _
      · rw [Function.update_of_ne heq]

/-- A step leaves the log of a session alone or extends it. -/
theorem accepted_step {action : Action} (hordinary : action.ordinary = true)
    (hnext : world.step P options action = some next) {id : JsString}
    (hlive : (world.registry.get id).isSome = true) :
    world.accepted id <+: next.accepted id := by
  cases move_of_step hnext with
  | @call made clock uuid hfree =>
      have hne : id ≠ uuid := by
        rintro rfl
        exact hfree (Or.inl hlive)
      have hkept : Function.update world.accepted uuid [] id = world.accepted id :=
        Function.update_of_ne hne _ _
      rw [← hkept]
      exact record_prefix _ _ id
  | persist =>
      rw [persist_accepted]
  | settle => cases hordinary
  | detach _ _ =>
      rw [persist_accepted]
      exact List.prefix_rfl
  | restore _ _ =>
      rw [persist_accepted]
      exact List.prefix_rfl
  | finish => exact List.prefix_rfl
  | store _ _ => exact List.prefix_rfl
  | fail _ => exact List.prefix_rfl
  | unqueue _ => exact List.prefix_rfl
  | requeue _ => exact List.prefix_rfl
  | rest _ _ => exact List.prefix_rfl
  | restart _ _ =>
      rw [startSave_accepted]
  | observe _ _ _ => exact List.prefix_rfl
  | answer _ _ =>
      rw [persist_accepted]
  | crash => cases hordinary

theorem Settling.placed (h : Settling P world) {id : JsString} {record : SessionRecord}
    (hget : world.registry.get id = some record) :
    Placed P world record (world.registry.pending id) ∧ record.sessionId = id :=
  ⟨h.conserving.inv.placed record _ (.live hget) (h.conserving.unanchored.live id record hget),
    h.conserving.inv.keyed id record hget⟩

/-- Unless storage has just answered, rows and queue are as long as the log. -/
theorem Settling.balanced (h : Settling P world) {id : JsString}
    (hlive : (world.registry.get id).isSome = true)
    (hanswered : ∀ save, world.drain ≠ .settled save true) :
    (world.store.events id).length + (world.registry.pending id).length =
      (world.accepted id).length := by
  obtain ⟨record, hget⟩ := Option.isSome_iff_exists.1 hlive
  obtain ⟨hplaced, rfl⟩ := h.placed hget
  apply hplaced.balanced
  intro hmem
  obtain ⟨change, ⟨save, hdrain, -⟩, -⟩ := h.conserving.claimed _ record hget hmem
  exact hanswered save hdrain

theorem Settling.rows (h : Settling P world) {id : JsString}
    (hlive : (world.registry.get id).isSome = true) :
    world.store.events id <+: world.accepted id := by
  obtain ⟨record, hget⟩ := Option.isSome_iff_exists.1 hlive
  obtain ⟨hplaced, rfl⟩ := h.placed hget
  exact hplaced.rows

/-- A commit that storage takes adds the events it appends to the rows. -/
theorem stored_length (h : Settling P world) {save : Save} {store : JournalStore}
    (hdrain : world.drain = .committing save)
    (h' : Settling P { world with
      store, drain := .settled save true, landed := world.landed.addAll (appendIds save) })
    {id : JsString} (hlive : (world.registry.get id).isSome = true) :
    (world.store.events id).length ≤ (store.events id).length ∧
      ∀ change ∈ save.batch.appends, change.sessionId = id →
        (store.events id).length = (world.store.events id).length + change.events.length := by
  have hbalanced := h.balanced hlive fun other hother => by
    rw [hdrain] at hother
    cases hother
  obtain ⟨record, hget⟩ := Option.isSome_iff_exists.1 hlive
  obtain ⟨hplaced, hid⟩ := h'.placed hget
  have happended : ∀ change ∈ save.batch.appends, change.sessionId = id →
      (store.events id).length = (world.store.events id).length + change.events.length := by
    intro change hchange hsession
    have hlength : (store.events record.sessionId).length + (world.registry.pending id).length =
        (world.accepted record.sessionId).length + change.events.length :=
      hplaced.landed change ⟨save, rfl, hchange⟩ (hsession.trans hid.symm)
    rw [hid] at hlength
    omega
  refine ⟨?_, happended⟩
  by_cases hmem : id ∈ appendIds save
  · obtain ⟨change, hchange, hsession⟩ := List.mem_map.1 hmem
    have := happended change hchange hsession
    omega
  · have hlanded : record.sessionId ∉ world.landed.addAll (appendIds save) := by
      rw [hid]
      intro hin
      rcases OrderedSet.mem_addAll.1 hin with happend | hold
      · exact hmem happend
      · obtain ⟨change, ⟨other, hother, -⟩, -⟩ := h.conserving.claimed id record hget hold
        rw [hdrain] at hother
        cases hother
    have hlength : (store.events record.sessionId).length + (world.registry.pending id).length =
        (world.accepted record.sessionId).length := hplaced.balanced hlanded
    rw [hid] at hlength
    omega

/-! ## What an iteration carries -/

/-- The iteration under way stores at least this many events of a session, or fails. -/
def Carries (world : World) (id : JsString) (count : Nat) : Prop :=
  match world.drain with
  | .committing save =>
      count ≤ (world.store.events id).length ∨
        ∃ change ∈ save.batch.appends, change.sessionId = id ∧
          count ≤ (world.store.events id).length + change.events.length
  | .settled _ true => count ≤ (world.store.events id).length
  | .returned _ true => count ≤ (world.store.events id).length
  | _ => True

/-- An iteration that starts carries everything accepted so far. -/
theorem carries_started (h : Settling P next) (hdirty : ∀ id, id ∉ next.registry.dirty)
    {taken : List Nat} (hdrain : next.drain = .returned taken true ∨
      ∃ save : Save, next.drain = .committing save ∧ save.waiters = taken)
    {id : JsString} (hlive : (next.registry.get id).isSome = true) {count : Nat}
    (hcount : count ≤ (next.accepted id).length) : Carries next id count := by
  have hanswered : ∀ save, next.drain ≠ .settled save true := by
    intro save hsettled
    rw [hsettled] at hdrain
    rcases hdrain with hdrain | ⟨_, hdrain, -⟩
    · cases hdrain
    · cases hdrain
  have hbalanced := h.balanced hlive hanswered
  have hqueued := h.queued id
  unfold Carries
  rcases hdrain with hdrain | ⟨save, hdrain, -⟩
  · rw [hdrain] at hqueued ⊢
    have hempty : next.registry.pending id = [] := by
      by_contra hpending
      rcases hqueued hpending with hmem | ⟨_, hsave, -⟩
      · exact hdirty id hmem
      · cases hsave
    rw [hempty, List.length_nil] at hbalanced
    show count ≤ (next.store.events id).length
    omega
  · rw [hdrain] at hqueued ⊢
    show count ≤ (next.store.events id).length ∨ _
    by_cases hpending : next.registry.pending id = []
    · left
      rw [hpending, List.length_nil] at hbalanced
      omega
    · right
      rcases hqueued hpending with hmem | ⟨_, ⟨rfl⟩, -, hall⟩
      · exact absurd hmem (hdirty id)
      · refine ⟨_, hall, rfl, ?_⟩
        show count ≤ _ + (next.registry.pending id).length
        omega

/-- What an iteration carries it still carries after a step. -/
theorem carries_step (h : Settling P world) (h' : Settling P next) (hturn : Turn world next)
    {id : JsString} (hlive : (world.registry.get id).isSome = true)
    (hlive' : (next.registry.get id).isSome = true) {count : Nat}
    (hcount : count ≤ (next.accepted id).length) (hcarries : Carries world id count) :
    Carries next id count := by
  cases hturn with
  | still hdrain hstore houtcomes hwaiters =>
      unfold Carries at hcarries ⊢
      rw [hdrain, hstore]
      exact hcarries
  | joins hbusy hdrain hstore houtcomes hwaiters hnextId =>
      unfold Carries at hcarries ⊢
      rw [hdrain, hstore]
      exact hcarries
  | starts taken hstore hdirty hdeleted hwaiters hdrain hbefore =>
      exact carries_started h' hdirty hdrain hlive' hcount
  | stored save store hdrain hcommit hnext =>
      subst hnext
      obtain ⟨hkept, happended⟩ := stored_length h hdrain h' hlive
      unfold Carries at hcarries ⊢
      rw [hdrain] at hcarries
      show count ≤ (store.events id).length
      rcases hcarries with hstored | ⟨change, hchange, hsession, hsum⟩
      · omega
      · have := happended change hchange hsession
        omega
  | failed save hdrain hnext =>
      subst hnext
      exact trivial
  | returned save saved hdrain hnext hstore houtcomes hwaiters =>
      unfold Carries at hcarries ⊢
      rw [hdrain] at hcarries
      rw [hnext, hstore]
      cases saved with
      | true => exact hcarries
      | false => exact trivial
  | rests waiters saved hdrain hnext hstore houtcomes hempty hwaiters =>
      unfold Carries
      rw [hnext]
      exact trivial

/-- Stored rows of a session that stays are not lost. -/
theorem rows_step (h : Settling P world) (h' : Settling P next) (hturn : Turn world next)
    {id : JsString} (hlive : (world.registry.get id).isSome = true) :
    (world.store.events id).length ≤ (next.store.events id).length := by
  cases hturn with
  | still hdrain hstore houtcomes hwaiters => rw [hstore]
  | joins hbusy hdrain hstore houtcomes hwaiters hnextId => rw [hstore]
  | starts taken hstore hdirty hdeleted hwaiters hdrain hbefore => rw [hstore]
  | stored save store hdrain hcommit hnext =>
      subst hnext
      exact (stored_length h hdrain h' hlive).1
  | failed save hdrain hnext =>
      subst hnext
      exact Nat.le_refl _
  | returned save saved hdrain hnext hstore houtcomes hwaiters => rw [hstore]
  | rests waiters saved hdrain hnext hstore houtcomes hempty hwaiters => rw [hstore]

/-! ## A promise that resolves -/

/-- The step keeps the session, whatever else it does. -/
def Keeping (id : JsString) (_ : World) (action : Action) : Prop :=
  action.ordinary = true ∧ ¬ action.drops id

/-- The step does not draw the identifier of the session again. -/
def Sparing (id : JsString) (_ : World) (action : Action) : Prop :=
  action.ordinary = true ∧ ¬ action.draws id

theorem Run.ordinary {condition : World → Action → Prop} {first : World}
    (run : Run P options condition first world)
    (h : ∀ world action, condition world action → action.ordinary = true) :
    Run P options Ordinary first world := by
  induction run with
  | refl => exact .refl _
  | step _ holds taken ih => exact ih.step (h _ _ holds) taken

/-- A promise that is answered now was answered before, or its iteration has just ended. -/
theorem Turn.answered (h : Turn world next) {promise : Nat} {saved : Bool}
    (hanswered : next.outcomes.get? promise = some saved) :
    world.outcomes.get? promise = some saved ∨
      ∃ waiters, world.drain = .returned waiters saved ∧ promise ∈ waiters := by
  have hsettled : ∀ {waiters : List Nat} {outcome : Bool},
      world.drain = .returned waiters outcome →
      (settle world.outcomes waiters outcome).get? promise = some saved →
        world.outcomes.get? promise = some saved ∨
          ∃ waiters, world.drain = .returned waiters saved ∧ promise ∈ waiters := by
    intro waiters outcome hdrain hget
    rw [get?_settle] at hget
    split at hget
    · cases hget
      exact Or.inr ⟨waiters, hdrain, ‹_›⟩
    · exact Or.inl hget
  cases h with
  | still _ _ houtcomes _ => exact Or.inl (houtcomes ▸ hanswered)
  | joins _ _ _ houtcomes _ _ => exact Or.inl (houtcomes ▸ hanswered)
  | starts taken _ _ _ _ _ hbefore =>
      rcases hbefore with ⟨-, houtcomes, -, -⟩ | ⟨waiters, outcome, hdrain, houtcomes, -⟩
      · exact Or.inl (houtcomes ▸ hanswered)
      · exact hsettled hdrain (houtcomes ▸ hanswered)
  | stored save store _ _ hnext =>
      subst hnext
      exact Or.inl hanswered
  | failed save _ hnext =>
      subst hnext
      exact Or.inl hanswered
  | returned save outcome _ _ _ houtcomes _ => exact Or.inl (houtcomes ▸ hanswered)
  | rests waiters outcome hdrain _ _ houtcomes _ _ =>
      exact hsettled hdrain (houtcomes ▸ hanswered)

/-- A promise that is served now was served before, or its iteration has just started. -/
theorem Turn.serving (h : Turn world next) {promise : Nat}
    (hserving : promise ∈ next.drain.waiters) :
    promise ∈ world.drain.waiters ∨
      ((∀ id, id ∉ next.registry.dirty) ∧ (∀ id, id ∉ next.registry.deleted) ∧
        ∃ taken, next.drain = .returned taken true ∨
          ∃ save : Save, next.drain = .committing save ∧ save.waiters = taken) := by
  cases h with
  | still hdrain _ _ _ => exact Or.inl (hdrain ▸ hserving)
  | joins _ hdrain _ _ _ _ => exact Or.inl (hdrain ▸ hserving)
  | starts taken _ hdirty hdeleted _ hdrain _ => exact Or.inr ⟨hdirty, hdeleted, taken, hdrain⟩
  | stored save store hdrain _ hnext =>
      subst hnext
      rw [hdrain]
      exact Or.inl hserving
  | failed save hdrain hnext =>
      subst hnext
      rw [hdrain]
      exact Or.inl hserving
  | returned save outcome hdrain hnext _ _ _ =>
      rw [hnext] at hserving
      rw [hdrain]
      exact Or.inl hserving
  | rests _ _ _ hnext _ _ _ _ =>
      rw [hnext] at hserving
      exact absurd hserving List.not_mem_nil

/-- How far a promise has come for the events that were accepted before it. -/
structure Served (promise : Nat) (id : JsString) (log : List BufferMutation) (world : World) :
    Prop where
  live : (world.registry.get id).isSome = true
  logged : log <+: world.accepted id
  serving : promise ∈ world.drain.waiters → Carries world id log.length
  answered : world.outcomes.get? promise = some true →
    log.length ≤ (world.store.events id).length

theorem served_step (h : Settling P world) (h' : Settling P next) {id : JsString}
    {action : Action} (hkeeping : Keeping id world action)
    (hnext : world.step P options action = some next) {promise : Nat}
    {log : List BufferMutation} (hserved : Served promise id log world) :
    Served promise id log next := by
  obtain ⟨hordinary, hkept⟩ := hkeeping
  have hturn := turn_step h.undiscarded hordinary hnext
  have hlive := (grows_step h.conserving.inv h.undiscarded hordinary hnext).live id hkept
    hserved.live
  have hlogged := hserved.logged.trans (accepted_step hordinary hnext hserved.live)
  refine ⟨hlive, hlogged, ?_, ?_⟩
  · intro hserving
    rcases hturn.serving hserving with hold | ⟨hdirty, -, taken, hdrain⟩
    · exact carries_step h h' hturn hserved.live hlive hlogged.length_le (hserved.serving hold)
    · exact carries_started h' hdirty hdrain hlive hlogged.length_le
  · intro hanswered
    refine Nat.le_trans ?_ (rows_step h h' hturn hserved.live)
    rcases hturn.answered hanswered with hold | ⟨waiters, hdrain, hmem⟩
    · exact hserved.answered hold
    · have hcarries := hserved.serving (by rwa [hdrain])
      unfold Carries at hcarries
      rwa [hdrain] at hcarries

/-- The promise of a call is new. -/
theorem fresh_promise (h : Settling P world) :
    world.registry.nextId ∉ world.waiters ∧ world.registry.nextId ∉ world.drain.waiters ∧
      world.outcomes.get? world.registry.nextId = none := by
  refine ⟨?_, ?_, ?_⟩
  · intro hmem
    exact absurd (h.promised _ (Or.inl hmem)) (Nat.lt_irrefl _)
  · intro hmem
    exact absurd (h.promised _ (Or.inr (Or.inl hmem))) (Nat.lt_irrefl _)
  · rw [← Option.not_isSome_iff_eq_none]
    intro hsome
    exact absurd (h.promised _ (Or.inr (Or.inr hsome))) (Nat.lt_irrefl _)

theorem served_persist (h : Settling P world) (h' : Settling P world.persist) {id : JsString}
    (hlive : (world.registry.get id).isSome = true) :
    Served world.registry.nextId id (world.accepted id) world.persist := by
  have hlive' : (world.persist.registry.get id).isSome = true := by
    rwa [Registry.get, persist_sessions]
  have hlogged : world.accepted id <+: world.persist.accepted id := by
    rw [persist_accepted]
  obtain ⟨-, hserved, hnone⟩ := fresh_promise h
  refine ⟨hlive', hlogged, ?_, ?_⟩
  · intro hserving
    rcases (turn_persist world).serving hserving with hold | ⟨hdirty, -, taken, hdrain⟩
    · exact absurd hold hserved
    · exact carries_started h' hdirty hdrain hlive' hlogged.length_le
  · intro hanswered
    rcases (turn_persist world).answered hanswered with hold | ⟨waiters, hdrain, hmem⟩
    · rw [hnone] at hold
      cases hold
    · rw [hdrain] at hserved
      exact absurd hmem hserved

theorem served_run (hjournal : options.journal = true) {first : World} (h : Settling P first)
    {promise : Nat} {id : JsString} {log : List BufferMutation}
    (hfirst : Served promise id log first) (run : Run P options (Keeping id) first world) :
    Served promise id log world := by
  induction run with
  | refl => exact hfirst
  | step run hkeeping hnext ih =>
      have hmid := settling_run hjournal h (run.ordinary fun _ _ => And.left)
      exact served_step hmid (settling_step hjournal hmid hkeeping.1 hnext) hkeeping hnext ih

/-! ### Removals -/

/-- The iteration under way leaves the session out of storage, or fails. -/
def Removes (world : World) (id : JsString) : Prop :=
  match world.drain with
  | .committing save =>
      (world.store.session id = none ∨ id ∈ save.batch.deleted) ∧
        id ∉ save.batch.sessions.map SessionRecord.sessionId
  | .settled _ true => world.store.session id = none
  | .returned _ true => world.store.session id = none
  | _ => True

/-- How far a promise has come for a session that had left the registry before it. -/
structure Withdrawn (promise : Nat) (id : JsString) (world : World) : Prop where
  gone : world.registry.get id = none
  serving : promise ∈ world.drain.waiters → Removes world id
  answered : world.outcomes.get? promise = some true → world.store.session id = none ∧
    ∀ save, world.drain = .committing save →
      id ∉ save.batch.sessions.map SessionRecord.sessionId

/-- A save that starts puts no session in storage that has left the registry. -/
theorem not_saved_of_gone (h : Settling P world) (hdeleted : ∀ id, id ∉ world.registry.deleted)
    {id : JsString} (hgone : world.registry.get id = none) {save : Save}
    (hdrain : world.drain = .committing save) :
    id ∉ save.batch.sessions.map SessionRecord.sessionId := by
  intro hmem
  obtain ⟨session, hsession, rfl⟩ := List.mem_map.1 hmem
  have hsave : save ∈ world.drain.save? := by
    rw [hdrain]
    rfl
  rcases h.removing.still save hsave session hsession with hsome | hqueued
  · rw [hgone] at hsome
    cases hsome
  · exact hdeleted _ hqueued

theorem removes_started (h : Settling P world) (hdeleted : ∀ id, id ∉ world.registry.deleted)
    {taken : List Nat} (hdrain : world.drain = .returned taken true ∨
      ∃ save : Save, world.drain = .committing save ∧ save.waiters = taken)
    {id : JsString} (hgone : world.registry.get id = none) : Removes world id := by
  have hcases := h.removing.gone id hgone
  unfold Removes
  rcases hdrain with hdrain | ⟨save, hdrain, -⟩
  · rw [hdrain] at hcases ⊢
    rcases hcases with hnone | hqueued | ⟨other, hother, -⟩
    · exact hnone
    · exact absurd hqueued (hdeleted id)
    · simp at hother
  · have hout := not_saved_of_gone h hdeleted hgone hdrain
    rw [hdrain] at hcases ⊢
    refine ⟨?_, hout⟩
    rcases hcases with hnone | hqueued | ⟨other, hother, hmem⟩
    · exact Or.inl hnone
    · exact absurd hqueued (hdeleted id)
    · rcases hother with hother | hother
      · cases hother
        exact Or.inr hmem
      · cases hother

theorem removes_step (h : Settling P world) (h' : Settling P next) (hturn : Turn world next)
    {id : JsString} (hgone : next.registry.get id = none) (hremoves : Removes world id) :
    Removes next id := by
  cases hturn with
  | still hdrain hstore _ _ =>
      unfold Removes at hremoves ⊢
      rw [hdrain, hstore]
      exact hremoves
  | joins _ hdrain hstore _ _ _ =>
      unfold Removes at hremoves ⊢
      rw [hdrain, hstore]
      exact hremoves
  | starts taken _ _ hdeleted _ hdrain _ => exact removes_started h' hdeleted hdrain hgone
  | stored save store hdrain hcommit hnext =>
      subst hnext
      have hsave : save ∈ world.drain.save? := by
        rw [hdrain]
        rfl
      have hcommitted := JournalStore.commit_eq_some hcommit
        (h.conserving.inv.save save hsave).distinct
      unfold Removes at hremoves ⊢
      rw [hdrain] at hremoves
      obtain ⟨hcase, hout⟩ := hremoves
      show store.session id = none
      rw [hcommitted.untouched id hout]
      split
      · rfl
      · exact hcase.resolve_right ‹_›
  | failed save _ hnext =>
      subst hnext
      exact trivial
  | returned save saved hdrain hnext hstore _ _ =>
      unfold Removes at hremoves ⊢
      rw [hdrain] at hremoves
      rw [hnext, hstore]
      cases saved with
      | true => exact hremoves
      | false => exact trivial
  | rests _ _ _ hnext _ _ _ _ =>
      unfold Removes
      rw [hnext]
      exact trivial

/-- A session that is neither stored nor about to be stored stays so. -/
theorem absent_step (h' : Settling P next) (hinv : Inv P world) (hturn : Turn world next)
    {id : JsString} (hgone : next.registry.get id = none)
    (hnone : world.store.session id = none)
    (hout : ∀ save, world.drain = .committing save →
      id ∉ save.batch.sessions.map SessionRecord.sessionId) :
    next.store.session id = none ∧ ∀ save, next.drain = .committing save →
      id ∉ save.batch.sessions.map SessionRecord.sessionId := by
  cases hturn with
  | still hdrain hstore _ _ =>
      rw [hdrain, hstore]
      exact ⟨hnone, hout⟩
  | joins _ hdrain hstore _ _ _ =>
      rw [hdrain, hstore]
      exact ⟨hnone, hout⟩
  | starts taken hstore _ hdeleted _ _ _ =>
      rw [hstore]
      exact ⟨hnone, fun save hsave => not_saved_of_gone h' hdeleted hgone hsave⟩
  | stored save store hdrain hcommit hnext =>
      subst hnext
      have hsave : save ∈ world.drain.save? := by
        rw [hdrain]
        rfl
      have hcommitted := JournalStore.commit_eq_some hcommit (hinv.save save hsave).distinct
      refine ⟨?_, fun other hother => by cases hother⟩
      show store.session id = none
      rw [hcommitted.untouched id (hout save hdrain), hnone, ite_self]
  | failed save _ hnext =>
      subst hnext
      exact ⟨hnone, fun other hother => by cases hother⟩
  | returned save saved _ hnext hstore _ _ =>
      rw [hnext, hstore]
      exact ⟨hnone, fun other hother => by cases hother⟩
  | rests _ _ _ hnext hstore _ _ _ =>
      rw [hnext, hstore]
      exact ⟨hnone, fun other hother => by cases hother⟩

theorem withdrawn_step (hjournal : options.journal = true) (h : Settling P world)
    (h' : Settling P next) {id : JsString} {action : Action}
    (hsparing : Sparing id world action) (hnext : world.step P options action = some next)
    {promise : Nat} (hwithdrawn : Withdrawn promise id world) : Withdrawn promise id next := by
  obtain ⟨hordinary, hspared⟩ := hsparing
  have hinv := h.conserving.inv
  have hturn := turn_step h.undiscarded hordinary hnext
  have hgone : next.registry.get id = none := by
    rw [← Option.not_isSome_iff_eq_none]
    intro hsome
    rcases live_step hjournal hinv h.undiscarded hordinary hnext hsome with hold | hdrawn
    · rw [hwithdrawn.gone] at hold
      cases hold
    · exact hspared hdrawn
  refine ⟨hgone, ?_, ?_⟩
  · intro hserving
    rcases hturn.serving hserving with hold | ⟨-, hdeleted, taken, hdrain⟩
    · exact removes_step h h' hturn hgone (hwithdrawn.serving hold)
    · exact removes_started h' hdeleted hdrain hgone
  · intro hanswered
    rcases hturn.answered hanswered with hold | ⟨waiters, hdrain, hmem⟩
    · obtain ⟨hnone, hout⟩ := hwithdrawn.answered hold
      exact absent_step h' hinv hturn hgone hnone hout
    · have hremoves := hwithdrawn.serving (by rwa [hdrain])
      unfold Removes at hremoves
      rw [hdrain] at hremoves
      apply absent_step h' hinv hturn hgone hremoves
      intro save hsave
      rw [hdrain] at hsave
      cases hsave

theorem withdrawn_persist (h : Settling P world) (h' : Settling P world.persist) {id : JsString}
    (hgone : world.registry.get id = none) :
    Withdrawn world.registry.nextId id world.persist := by
  have hgone' : world.persist.registry.get id = none := by
    rwa [Registry.get, persist_sessions]
  obtain ⟨-, hserved, hnone⟩ := fresh_promise h
  refine ⟨hgone', ?_, ?_⟩
  · intro hserving
    rcases (turn_persist world).serving hserving with hold | ⟨-, hdeleted, taken, hdrain⟩
    · exact absurd hold hserved
    · exact removes_started h' hdeleted hdrain hgone'
  · intro hanswered
    rcases (turn_persist world).answered hanswered with hold | ⟨waiters, hdrain, hmem⟩
    · rw [hnone] at hold
      cases hold
    · rw [hdrain] at hserved
      exact absurd hmem hserved

theorem withdrawn_run (hjournal : options.journal = true) {first : World} (h : Settling P first)
    {promise : Nat} {id : JsString} (hfirst : Withdrawn promise id first)
    (run : Run P options (Sparing id) first world) : Withdrawn promise id world := by
  induction run with
  | refl => exact hfirst
  | step run hsparing hnext ih =>
      have hmid := settling_run hjournal h (run.ordinary fun _ _ => And.left)
      exact withdrawn_step hjournal hmid (settling_step hjournal hmid hsparing.1 hnext) hsparing
        hnext ih

/-! ## A promise that rejects -/

/-- The promise is served by a commit that has failed, or has been rejected for one. -/
def Rejecting (promise : Nat) (world : World) : Prop :=
  (∃ save, world.drain = .settled save false ∧ promise ∈ save.waiters) ∨
    (∃ waiters, world.drain = .returned waiters false ∧ promise ∈ waiters) ∨
    world.outcomes.get? promise = some false

theorem Turn.rejecting (h : Turn world next) {promise : Nat} (hrejecting : Rejecting promise next) :
    Rejecting promise world ∨ ∃ save, world.drain = .committing save ∧ promise ∈ save.waiters ∧
      next = { world with drain := .settled save false } := by
  rcases hrejecting with ⟨save, hdrain, hmem⟩ | ⟨waiters, hdrain, hmem⟩ | hanswered
  · cases h with
    | still hsame _ _ _ => exact Or.inl (Or.inl ⟨save, hsame ▸ hdrain, hmem⟩)
    | joins _ hsame _ _ _ _ => exact Or.inl (Or.inl ⟨save, hsame ▸ hdrain, hmem⟩)
    | starts taken _ _ _ _ hstarted _ => simp [hdrain] at hstarted
    | stored other store _ _ hnext =>
        subst hnext
        simp at hdrain
    | failed other hbefore hnext =>
        subst hnext
        simp only [Drain.settled.injEq, and_true] at hdrain
        subst hdrain
        exact Or.inr ⟨_, hbefore, hmem, rfl⟩
    | returned other saved _ hnext _ _ _ => simp [hnext] at hdrain
    | rests _ _ _ hnext _ _ _ _ => simp [hnext] at hdrain
  · cases h with
    | still hsame _ _ _ => exact Or.inl (Or.inr (Or.inl ⟨waiters, hsame ▸ hdrain, hmem⟩))
    | joins _ hsame _ _ _ _ => exact Or.inl (Or.inr (Or.inl ⟨waiters, hsame ▸ hdrain, hmem⟩))
    | starts taken _ _ _ _ hstarted _ => simp [hdrain] at hstarted
    | stored other store _ _ hnext =>
        subst hnext
        simp at hdrain
    | failed other _ hnext =>
        subst hnext
        simp at hdrain
    | returned other saved hbefore hnext _ _ _ =>
        rw [hnext] at hdrain
        cases hdrain
        exact Or.inl (Or.inl ⟨other, hbefore, hmem⟩)
    | rests _ _ _ hnext _ _ _ _ => simp [hnext] at hdrain
  · rcases h.answered hanswered with hold | hreturned
    · exact Or.inl (Or.inr (Or.inr hold))
    · exact Or.inl (Or.inr (Or.inl hreturned))

/-- Every rejection goes back to a commit that failed while it served the promise. -/
theorem rejecting_run (hjournal : options.journal = true) {first : World}
    (h : Settling P first) {promise : Nat} (hfirst : ¬ Rejecting promise first)
    (run : Run P options Ordinary first world) (hrejecting : Rejecting promise world) :
    ∃ failing save, Run P options Ordinary first failing ∧
      failing.drain = .committing save ∧ promise ∈ save.waiters ∧
      Run P options Ordinary { failing with drain := .settled save false } world := by
  induction run with
  | refl => exact absurd hrejecting hfirst
  | @step before after action run hordinary hnext ih =>
      have hturn := turn_step (settling_run hjournal h run).undiscarded hordinary hnext
      rcases hturn.rejecting hrejecting with hbefore | ⟨save, hdrain, hmem, rfl⟩
      · obtain ⟨failing, save, hrun, hdrain, hmem, hrest⟩ := ih hbefore
        exact ⟨failing, save, hrun, hdrain, hmem, hrest.step hordinary hnext⟩
      · exact ⟨before, save, run, hdrain, hmem, .refl _⟩

/-- Steps that keep the session, up to the next commit that succeeds. -/
def Retrying (id : JsString) (_ : World) (action : Action) : Prop :=
  action.ordinary = true ∧ ¬ action.drops id ∧ action ≠ .storeSettles true

/-- What is queued after a failed commit, until the next one succeeds. -/
structure Requeued (failing : World) (id : JsString) (world : World) : Prop where
  live : (world.registry.get id).isSome = true
  stored : world.store.events id = failing.store.events id
  logged : failing.accepted id <+: world.accepted id
  quiet : ∀ save, world.drain ≠ .settled save true
  carries : Carries world id (failing.accepted id).length

theorem Settling.conserved (h : Settling P world) {id : JsString}
    (hlive : (world.registry.get id).isSome = true)
    (hanswered : ∀ save, world.drain ≠ .settled save true) :
    world.store.events id ++ world.registry.pending id = world.accepted id := by
  have hbalanced := h.balanced hlive hanswered
  obtain ⟨record, hget⟩ := Option.isSome_iff_exists.1 hlive
  obtain ⟨hplaced, rfl⟩ := h.placed hget
  exact append_eq_of_covering hplaced.rows hplaced.ends hbalanced

theorem not_settled_startSave (world : World) (save : Save) (saved : Bool) :
    world.startSave.drain ≠ .settled save saved := by
  intro hsettled
  obtain ⟨-, -, -, hdrain⟩ := startSave_drain world
  simp [hsettled] at hdrain

theorem settled_persist {save : Save} {saved : Bool}
    (h : world.persist.drain = .settled save saved) : world.drain = .settled save saved := by
  unfold persist kick at h
  split at h
  · exact absurd h (not_settled_startSave _ _ _)
  · exact h

/-- Storage answers only in the step that takes the commit. -/
theorem stores_of_answered {action : Action} (hnext : world.step P options action = some next)
    (hquiet : ∀ save, world.drain ≠ .settled save true) {save : Save}
    (hdrain : next.drain = .settled save true) : action = .storeSettles true := by
  cases move_of_step hnext with
  | store _ _ => rfl
  | call _ => exact absurd hdrain (hquiet save)
  | persist => exact absurd (settled_persist hdrain) (hquiet save)
  | settle => exact absurd (settled_persist hdrain) (hquiet save)
  | detach _ _ => exact absurd (settled_persist hdrain) (hquiet save)
  | restore _ _ => exact absurd (settled_persist hdrain) (hquiet save)
  | finish => exact absurd hdrain (hquiet save)
  | fail _ => cases hdrain
  | unqueue _ => cases hdrain
  | requeue _ => cases hdrain
  | rest _ _ => cases hdrain
  | restart _ _ => exact absurd hdrain (not_settled_startSave _ _ _)
  | observe _ _ _ => exact absurd hdrain (hquiet save)
  | answer _ _ => exact absurd (settled_persist hdrain) (hquiet save)
  | crash => cases hdrain

theorem settled_of_stored (hnext : world.step P options (.storeSettles true) = some next) :
    ∃ save, next.drain = .settled save true := by
  cases move_of_step hnext with
  | @store save store _ _ => exact ⟨save, rfl⟩
  | observe hobserves _ _ => cases hobserves

theorem requeued_step (h : Settling P world) (h' : Settling P next) {failing : World}
    {id : JsString} {action : Action} (hretrying : Retrying id world action)
    (hnext : world.step P options action = some next) (hrequeued : Requeued failing id world) :
    Requeued failing id next := by
  obtain ⟨hordinary, hkept, hfails⟩ := hretrying
  have hturn := turn_step h.undiscarded hordinary hnext
  have hlive := (grows_step h.conserving.inv h.undiscarded hordinary hnext).live id hkept
    hrequeued.live
  have hlogged := hrequeued.logged.trans (accepted_step hordinary hnext hrequeued.live)
  have hcarries := carries_step h h' hturn hrequeued.live hlive hlogged.length_le
    hrequeued.carries
  have hquiet : ∀ save, next.drain ≠ .settled save true := by
    intro save hdrain
    exact hfails (stores_of_answered hnext hrequeued.quiet hdrain)
  refine ⟨hlive, ?_, hlogged, hquiet, hcarries⟩
  rw [← hrequeued.stored]
  cases hturn with
  | still _ hstore _ _ => rw [hstore]
  | joins _ _ hstore _ _ _ => rw [hstore]
  | starts _ hstore _ _ _ _ _ => rw [hstore]
  | stored save store _ _ hafter =>
      subst hafter
      exact absurd rfl (hquiet save)
  | failed save _ hafter =>
      subst hafter
      rfl
  | returned _ _ _ _ hstore _ _ => rw [hstore]
  | rests _ _ _ _ hstore _ _ _ => rw [hstore]

theorem requeued_run (hjournal : options.journal = true) {first : World} (h : Settling P first)
    {failing : World} {id : JsString} (hfirst : Requeued failing id first)
    (run : Run P options (Retrying id) first world) : Requeued failing id world := by
  induction run with
  | refl => exact hfirst
  | step run hretrying hnext ih =>
      have hmid := settling_run hjournal h (run.ordinary fun _ _ => And.left)
      exact requeued_step hmid (settling_step hjournal hmid hretrying.1 hnext) hretrying hnext ih

/-- The queue that the failed commit left stands in front of what came later. -/
theorem Requeued.queue {failing : World} (hfailing : Settling P failing) {save : Save}
    (hdrain : failing.drain = .committing save) {id : JsString}
    (hlive : (failing.registry.get id).isSome = true) (h : Settling P world)
    (hrequeued : Requeued failing id world) :
    failing.registry.pending id <+: world.registry.pending id := by
  have hbefore := hfailing.conserved hlive (by simp [hdrain])
  have hafter := h.conserved hrequeued.live hrequeued.quiet
  have hlogged := hrequeued.logged
  rw [← hbefore, ← hafter, hrequeued.stored] at hlogged
  exact (List.prefix_append_right_inj _).1 hlogged

theorem numbered_of_prefix {rows log : List BufferMutation} (hrows : rows <+: log)
    (hlog : log.map BufferMutation.seq = List.range log.length) :
    rows.map BufferMutation.seq = List.range rows.length := by
  rw [List.prefix_iff_eq_take.1 hrows, List.map_take, hlog, List.take_range, List.length_take]

/-- The next commit that succeeds stores everything that was accepted when one failed. -/
theorem requeued_stored (hjournal : options.journal = true) {failing : World} {id : JsString}
    (h : Settling P world) (hrequeued : Requeued failing id world)
    (hnext : world.step P options (.storeSettles true) = some next) :
    failing.accepted id <+: next.store.events id ∧ next.store.events id <+: next.accepted id ∧
      (next.store.events id).map BufferMutation.seq =
        List.range (next.store.events id).length := by
  have h' := settling_step hjournal h rfl hnext
  have hturn := turn_step h.undiscarded rfl hnext
  have hlive := (grows_step h.conserving.inv h.undiscarded rfl hnext).live id (fun hdrop => hdrop)
    hrequeued.live
  have hlogged := hrequeued.logged.trans (accepted_step rfl hnext hrequeued.live)
  have hrows := h'.rows hlive
  obtain ⟨record, hget⟩ := Option.isSome_iff_exists.1 hlive
  obtain ⟨hplaced, hid⟩ := h'.placed hget
  have hnumbered := map_seq_of_valid hplaced.describes.valid
  rw [hid] at hnumbered
  have hcarries := carries_step h h' hturn hrequeued.live hlive hlogged.length_le
    hrequeued.carries
  obtain ⟨save, hdrain⟩ := settled_of_stored hnext
  unfold Carries at hcarries
  rw [hdrain] at hcarries
  exact ⟨List.prefix_of_prefix_length_le hlogged hrows hcarries, hrows,
    numbered_of_prefix hrows hnumbered⟩

/-! ## Who answers a promise -/

/-- The promise waits for the next iteration. -/
def Waiting (promise : Nat) (world : World) : Prop :=
  promise ∈ world.waiters ∧ promise ∉ world.drain.waiters ∧ world.outcomes.get? promise = none

/-- The iteration under way will answer the promise. -/
def Serving (promise : Nat) (world : World) : Prop :=
  promise ∉ world.waiters ∧ promise ∈ world.drain.waiters ∧ world.outcomes.get? promise = none

/-- The promise has been answered. -/
def Answered (promise : Nat) (saved : Bool) (world : World) : Prop :=
  promise ∉ world.waiters ∧ promise ∉ world.drain.waiters ∧
    world.outcomes.get? promise = some saved

/-- An iteration of the drain loop starts: with a call of `persist` that finds none under
way, or when the loop comes round and somebody waits. -/
def IterationStarts (world : World) (action : Action) (next : World) : Prop :=
  next.drain ≠ .idle ∧ (world.drain = .idle ∨ action = .drainContinues)

/-- What a step does to a promise that waits. -/
structure WaitStep (promise : Nat) (world : World) (action : Action) (next : World) : Prop where
  starts : IterationStarts world action next → Serving promise next
  waits : ¬ IterationStarts world action next → Waiting promise next

theorem waitStep_same {promise : Nat} (h : Waiting promise world) {action : Action}
    (haction : action ≠ .drainContinues) (hdrain : next.drain = world.drain)
    (hwaiters : ∀ other ∈ world.waiters, other ∈ next.waiters)
    (houtcomes : next.outcomes = world.outcomes) : WaitStep promise world action next where
  starts hstarts := by
    rw [IterationStarts, hdrain] at hstarts
    exact absurd (hstarts.2.resolve_right haction) hstarts.1
  waits _ := by
    refine ⟨hwaiters promise h.1, ?_, ?_⟩
    · rw [hdrain]
      exact h.2.1
    · rw [houtcomes]
      exact h.2.2

/-- A commit goes from one stage to the next with the promises it serves. -/
theorem waitStep_commit {promise : Nat} (h : Waiting promise world) {action : Action}
    (haction : action ≠ .drainContinues) (hbusy : world.drain ≠ .idle)
    (hserved : next.drain.waiters = world.drain.waiters)
    (hwaiters : next.waiters = world.waiters) (houtcomes : next.outcomes = world.outcomes) :
    WaitStep promise world action next where
  starts hstarts := absurd (hstarts.2.resolve_right haction) hbusy
  waits _ := by
    rw [Waiting, hserved, hwaiters, houtcomes]
    exact h

theorem waiters_startSave (world : World) : world.startSave.drain.waiters = world.waiters := by
  obtain ⟨-, -, -, hdrain | ⟨save, hdrain, hsave⟩⟩ := startSave_drain world
  · rw [hdrain]
    rfl
  · rw [hdrain]
    exact hsave

theorem not_idle_startSave (world : World) : world.startSave.drain ≠ .idle := by
  intro hidle
  obtain ⟨-, -, -, hdrain⟩ := startSave_drain world
  simp [hidle] at hdrain

theorem waitStep_persist {promise : Nat} (h : Waiting promise world) {action : Action}
    (haction : action ≠ .drainContinues) (registry : Registry) :
    WaitStep promise world action ({ world with registry }).persist := by
  unfold persist kick
  split
  · rename_i hidle
    have hserving : Serving promise ({ world with registry }).wait.startSave := by
      obtain ⟨-, houtcomes, hwaiters, -⟩ := startSave_drain ({ world with registry }).wait
      refine ⟨?_, ?_, ?_⟩
      · rw [hwaiters]
        exact List.not_mem_nil
      · rw [waiters_startSave]
        exact List.mem_append_left _ h.1
      · rw [houtcomes]
        exact h.2.2
    refine ⟨fun _ => hserving, fun hnot => ?_⟩
    exact absurd ⟨not_idle_startSave _, Or.inl hidle⟩ hnot
  · exact waitStep_same h haction rfl (fun _ hmem => List.mem_append_left _ hmem) rfl

/-- A promise that waits is taken by the first iteration that starts, and waits till then. -/
theorem wait_step {promise : Nat} (h : Waiting promise world) {action : Action}
    (hordinary : action.ordinary = true) (hdiscards : ∀ task, world.discards.get? task = none)
    (hnext : world.step P options action = some next) : WaitStep promise world action next := by
  cases move_of_step hnext with
  | call _ => exact waitStep_same h (by simp) rfl (fun _ hmem => hmem) rfl
  | persist => exact waitStep_persist h (by simp) world.registry
  | settle => cases hordinary
  | detach htask _ =>
      rw [hdiscards] at htask
      cases htask
  | restore htask _ =>
      rw [hdiscards] at htask
      cases htask
  | finish => exact waitStep_same h (by simp) rfl (fun _ hmem => hmem) rfl
  | store hdrain _ =>
      exact waitStep_commit h (by simp) (by simp [hdrain]) (by rw [hdrain]; rfl) rfl rfl
  | fail hdrain =>
      exact waitStep_commit h (by simp) (by simp [hdrain]) (by rw [hdrain]; rfl) rfl rfl
  | unqueue hdrain =>
      exact waitStep_commit h (by simp) (by simp [hdrain]) (by rw [hdrain]; rfl) rfl rfl
  | requeue hdrain =>
      exact waitStep_commit h (by simp) (by simp [hdrain]) (by rw [hdrain]; rfl) rfl rfl
  | rest _ hempty =>
      have hmem := h.1
      rw [hempty] at hmem
      exact absurd hmem List.not_mem_nil
  | @restart waiters saved hdrain _ =>
      have hunserved : promise ∉ waiters := by
        have := h.2.1
        rwa [hdrain] at this
      have hstarted := startSave_drain
        { world with outcomes := settle world.outcomes waiters saved }
      obtain ⟨-, houtcomes, hwaiters, -⟩ := hstarted
      have hserving : Serving promise
          ({ world with outcomes := settle world.outcomes waiters saved }).startSave := by
        refine ⟨?_, ?_, ?_⟩
        · rw [hwaiters]
          exact List.not_mem_nil
        · rw [waiters_startSave]
          exact h.1
        · rw [houtcomes, get?_settle, if_neg hunserved]
          exact h.2.2
      refine ⟨fun _ => hserving, fun hnot => ?_⟩
      exact absurd ⟨not_idle_startSave _, Or.inr rfl⟩ hnot
  | observe hobserves _ _ =>
      refine waitStep_same h ?_ rfl (fun _ hmem => hmem) rfl
      rintro rfl
      cases hobserves
  | answer _ _ => exact waitStep_persist h (by simp) _
  | crash => cases hordinary

/-- What a step does to a promise that an iteration serves: the end of that iteration
answers it, with the outcome of its save. -/
structure ServeStep (promise : Nat) (world : World) (action : Action) (next : World) :
    Prop where
  ends : action = .drainContinues → ∃ waiters saved, world.drain = .returned waiters saved ∧
    Answered promise saved next
  serves : action ≠ .drainContinues → Serving promise next

theorem serveStep_of_serving {promise : Nat} {action : Action}
    (haction : action ≠ .drainContinues) (h : Serving promise next) :
    ServeStep promise world action next where
  ends heq := absurd heq haction
  serves _ := h

theorem serving_persist {promise : Nat} (h : Serving promise world) (hold : promise <
    world.registry.nextId) (registry : Registry)
    (hnextId : registry.nextId = world.registry.nextId) :
    Serving promise ({ world with registry }).persist := by
  unfold persist kick
  split
  · rename_i hidle
    have hmem := h.2.1
    rw [show world.drain = .idle from hidle] at hmem
    exact absurd hmem List.not_mem_nil
  · refine ⟨?_, h.2.1, h.2.2⟩
    intro hmem
    rcases List.mem_append.1 hmem with hwaits | hnew
    · exact h.1 hwaits
    · have heq : promise = registry.nextId := List.mem_singleton.1 hnew
      omega

theorem serve_step {promise : Nat} (h : Serving promise world)
    (hold : promise < world.registry.nextId) {action : Action}
    (hordinary : action.ordinary = true) (hdiscards : ∀ task, world.discards.get? task = none)
    (hnext : world.step P options action = some next) : ServeStep promise world action next := by
  cases move_of_step hnext with
  | call _ => exact serveStep_of_serving (by simp) h
  | persist => exact serveStep_of_serving (by simp) (serving_persist h hold world.registry rfl)
  | settle => cases hordinary
  | detach htask _ =>
      rw [hdiscards] at htask
      cases htask
  | restore htask _ =>
      rw [hdiscards] at htask
      cases htask
  | finish => exact serveStep_of_serving (by simp) h
  | store hdrain _ =>
      apply serveStep_of_serving (by simp)
      rw [Serving, hdrain] at h
      exact h
  | fail hdrain =>
      apply serveStep_of_serving (by simp)
      rw [Serving, hdrain] at h
      exact h
  | unqueue hdrain =>
      apply serveStep_of_serving (by simp)
      rw [Serving, hdrain] at h
      exact h
  | requeue hdrain =>
      apply serveStep_of_serving (by simp)
      rw [Serving, hdrain] at h
      exact h
  | @rest waiters saved hdrain hempty =>
      refine ⟨fun _ => ⟨waiters, saved, hdrain, h.1, List.not_mem_nil, ?_⟩, fun hne => ?_⟩
      · have hmem := h.2.1
        rw [hdrain] at hmem
        exact (get?_settle promise).trans (if_pos hmem)
      · exact absurd rfl hne
  | @restart waiters saved hdrain _ =>
      have hmem := h.2.1
      rw [hdrain] at hmem
      obtain ⟨-, houtcomes, hwaiters, -⟩ := startSave_drain
        { world with outcomes := settle world.outcomes waiters saved }
      refine ⟨fun _ => ⟨waiters, saved, hdrain, ?_, ?_, ?_⟩, fun hne => ?_⟩
      · rw [hwaiters]
        exact List.not_mem_nil
      · rw [waiters_startSave]
        exact h.1
      · rw [houtcomes, get?_settle]
        exact if_pos hmem
      · exact absurd rfl hne
  | observe hobserves _ _ =>
      have haction : action ≠ .drainContinues := by
        rintro rfl
        cases hobserves
      exact serveStep_of_serving haction h
  | answer _ hnextId => exact serveStep_of_serving (by simp) (serving_persist h hold _ hnextId)
  | crash => cases hordinary

/-- An answer stands. -/
theorem answered_step {promise : Nat} {saved : Bool} (h : Answered promise saved world)
    (hold : promise < world.registry.nextId) (hturn : Turn world next) :
    Answered promise saved next := by
  obtain ⟨hwaits, hserves, hanswer⟩ := h
  have hjoined : promise ∉ world.waiters ++ [world.registry.nextId] := by
    intro hmem
    rcases List.mem_append.1 hmem with hin | hnew
    · exact hwaits hin
    · have heq : promise = world.registry.nextId := List.mem_singleton.1 hnew
      omega
  cases hturn with
  | still hdrain _ houtcomes hwaiters =>
      rw [Answered, hdrain, houtcomes, hwaiters]
      exact ⟨hwaits, hserves, hanswer⟩
  | joins _ hdrain _ houtcomes hwaiters _ =>
      rw [Answered, hdrain, houtcomes, hwaiters]
      exact ⟨hjoined, hserves, hanswer⟩
  | starts taken _ _ _ hwaiters hdrain hbefore =>
      have htaken : next.drain.waiters = taken := by
        rcases hdrain with hdrain | ⟨save, hdrain, hsave⟩
        · rw [hdrain]
          rfl
        · rw [hdrain]
          exact hsave
      rw [Answered, htaken, hwaiters]
      refine ⟨List.not_mem_nil, ?_, ?_⟩
      · rcases hbefore with ⟨-, -, rfl, -⟩ | ⟨_, _, -, -, rfl⟩
        · exact hjoined
        · exact hwaits
      · rcases hbefore with ⟨-, houtcomes, -, -⟩ | ⟨waiters, outcome, hreturned, houtcomes, -⟩
        · rw [houtcomes]
          exact hanswer
        · rw [hreturned] at hserves
          rw [houtcomes, get?_settle]
          exact (if_neg hserves).trans hanswer
  | stored save store hdrain _ hnext =>
      subst hnext
      rw [hdrain] at hserves
      exact ⟨hwaits, hserves, hanswer⟩
  | failed save hdrain hnext =>
      subst hnext
      rw [hdrain] at hserves
      exact ⟨hwaits, hserves, hanswer⟩
  | returned save outcome hdrain hnext _ houtcomes hwaiters =>
      rw [hdrain] at hserves
      rw [Answered, hnext, houtcomes, hwaiters]
      exact ⟨hwaits, hserves, hanswer⟩
  | rests waiters outcome hdrain hnext _ houtcomes _ hwaiters =>
      rw [hdrain] at hserves
      rw [Answered, hnext, houtcomes, hwaiters, get?_settle]
      exact ⟨List.not_mem_nil, List.not_mem_nil, (if_neg hserves).trans hanswer⟩

/-- A promise waits, is taken by the first iteration that starts, and is answered when that
iteration ends, once. -/
structure AnsweredInTurn (P : Platform) (options : RegistryOptions) (promise : Nat)
    (world : World) : Prop where
  standing : Waiting promise world ∨ Serving promise world ∨
    ∃ saved, Answered promise saved world
  waits : Waiting promise world → ∀ action next, action.ordinary = true →
    world.step P options action = some next → WaitStep promise world action next
  serves : Serving promise world → ∀ action next, action.ordinary = true →
    world.step P options action = some next → ServeStep promise world action next
  stands : ∀ saved, Answered promise saved world → ∀ action next, action.ordinary = true →
    world.step P options action = some next → Answered promise saved next

theorem answeredInTurn (h : Settling P world) {promise : Nat}
    (hold : promise < world.registry.nextId)
    (hstanding : Waiting promise world ∨ Serving promise world ∨
      ∃ saved, Answered promise saved world) : AnsweredInTurn P options promise world where
  standing := hstanding
  waits hwaits _ _ hordinary hnext := wait_step hwaits hordinary h.undiscarded hnext
  serves hserves _ _ hordinary hnext := serve_step hserves hold hordinary h.undiscarded hnext
  stands _ hanswered _ _ hordinary hnext :=
    answered_step hanswered hold (turn_step h.undiscarded hordinary hnext)

theorem standing_step {promise : Nat} (h : AnsweredInTurn P options promise world)
    {action : Action} (hordinary : action.ordinary = true)
    (hnext : world.step P options action = some next) :
    Waiting promise next ∨ Serving promise next ∨ ∃ saved, Answered promise saved next := by
  rcases h.standing with hwaits | hserves | ⟨saved, hanswered⟩
  · have hstep := h.waits hwaits action next hordinary hnext
    by_cases hstarts : IterationStarts world action next
    · exact Or.inr (Or.inl (hstep.starts hstarts))
    · exact Or.inl (hstep.waits hstarts)
  · have hstep := h.serves hserves action next hordinary hnext
    by_cases hends : action = .drainContinues
    · obtain ⟨_, saved, -, hanswered⟩ := hstep.ends hends
      exact Or.inr (Or.inr ⟨saved, hanswered⟩)
    · exact Or.inr (Or.inl (hstep.serves hends))
  · exact Or.inr (Or.inr ⟨saved, h.stands saved hanswered action next hordinary hnext⟩)

theorem answeredInTurn_run (hjournal : options.journal = true) {first : World}
    (h : Settling P first) {promise : Nat} (hold : promise < first.registry.nextId)
    (hfirst : AnsweredInTurn P options promise first)
    (run : Run P options Ordinary first world) :
    AnsweredInTurn P options promise world ∧ promise < world.registry.nextId := by
  induction run with
  | refl => exact ⟨hfirst, hold⟩
  | step run hordinary hnext ih =>
      obtain ⟨hturns, hlt⟩ := ih
      have hmid := settling_run hjournal h run
      have hlater := (grows_step hmid.conserving.inv hmid.undiscarded hordinary hnext).nextId
      exact ⟨answeredInTurn (settling_step hjournal hmid hordinary hnext) (by omega)
        (standing_step hturns hordinary hnext), by omega⟩

/-- A call of `persist` starts an iteration, or waits for the next one. -/
theorem standing_persist (h : Settling P world) :
    (world.drain = .idle → Serving world.registry.nextId world.persist) ∧
      (world.drain ≠ .idle → Waiting world.registry.nextId world.persist ∧
        world.persist.drain = world.drain) := by
  obtain ⟨-, hserved, hnone⟩ := fresh_promise h
  have hjoined : world.registry.nextId ∈ world.waiters ++ [world.registry.nextId] :=
    List.mem_append_right _ (List.mem_singleton.2 rfl)
  refine ⟨?_, ?_⟩
  · intro hidle
    have hpersist : world.persist = world.wait.startSave := by
      unfold persist kick
      rw [show world.wait.drain = .idle from hidle]
    obtain ⟨-, houtcomes, hwaiters, -⟩ := startSave_drain world.wait
    rw [hpersist]
    refine ⟨?_, ?_, ?_⟩
    · rw [hwaiters]
      exact List.not_mem_nil
    · rw [waiters_startSave]
      exact hjoined
    · rw [houtcomes]
      exact hnone
  · intro hbusy
    have hpersist : world.persist = world.wait := by
      unfold persist kick
      split
      · exact absurd ‹_› hbusy
      · rfl
    rw [hpersist]
    exact ⟨⟨hjoined, hserved, hnone⟩, rfl⟩

/-! ## Acknowledgement -/

/-- After a commit has failed: the queue of a session stays in front, storage stays as it
was, and the next commit that succeeds stores what had been accepted, once and in order. -/
structure Retried (P : Platform) (options : RegistryOptions) (failing : World) (id : JsString)
    (world : World) : Prop where
  stored : world.store.events id = failing.store.events id
  queued : failing.registry.pending id <+: world.registry.pending id
  whole : world.store.events id ++ world.registry.pending id = world.accepted id
  next : ∀ next, world.step P options (.storeSettles true) = some next →
    failing.accepted id <+: next.store.events id ∧
      next.store.events id <+: next.accepted id ∧
      (next.store.events id).map BufferMutation.seq =
        List.range (next.store.events id).length

/-- What a call of `persist` is told. -/
structure Acknowledges (P : Platform) (options : RegistryOptions) (calling : World) : Prop where
  /-- When it resolves, storage has what had been accepted. -/
  events : ∀ id world, (calling.registry.get id).isSome = true →
    Run P options (Keeping id) calling.persist world →
    world.outcomes.get? calling.registry.nextId = some true →
      calling.accepted id <+: world.store.events id
  /-- When it resolves, storage has no session that had been removed. -/
  removals : ∀ id world, calling.registry.get id = none →
    Run P options (Sparing id) calling.persist world →
    world.outcomes.get? calling.registry.nextId = some true →
      world.store.session id = none ∧ world.store.events id = []
  /-- When it rejects, a commit that served it had failed. -/
  rejection : ∀ world, Run P options Ordinary calling.persist world →
    world.outcomes.get? calling.registry.nextId = some false →
      ∃ failing save, Run P options Ordinary calling.persist failing ∧
        failing.drain = .committing save ∧ calling.registry.nextId ∈ save.waiters ∧
        Run P options Ordinary { failing with drain := .settled save false } world
  /-- After any commit that failed, its work is kept for the next one. -/
  retry : ∀ failing save id world, Run P options Ordinary calling.persist failing →
    failing.drain = .committing save → (failing.registry.get id).isSome = true →
    Run P options (Retrying id) { failing with drain := .settled save false } world →
      Retried P options failing id world
  taken : calling.drain = .idle → Serving calling.registry.nextId calling.persist
  waits : calling.drain ≠ .idle → Waiting calling.registry.nextId calling.persist ∧
    calling.persist.drain = calling.drain
  turns : ∀ world, Run P options Ordinary calling.persist world →
    AnsweredInTurn P options calling.registry.nextId world

theorem not_rejecting_persist (h : Settling P world) :
    ¬ Rejecting world.registry.nextId world.persist := by
  obtain ⟨hwaits, hserved, hnone⟩ := fresh_promise h
  obtain ⟨htaken, hwaiting⟩ := standing_persist h
  intro hrejecting
  rcases (turn_persist world).rejecting hrejecting with hbefore | ⟨save, hdrain, hmem, -⟩
  · rcases hbefore with ⟨save, hdrain, hmem⟩ | ⟨waiters, hdrain, hmem⟩ | hanswered
    · rw [hdrain] at hserved
      exact hserved hmem
    · rw [hdrain] at hserved
      exact hserved hmem
    · rw [hnone] at hanswered
      cases hanswered
  · rw [hdrain] at hserved
    exact hserved hmem

theorem retried_run (hjournal : options.journal = true) {failing : World} {save : Save}
    {id : JsString} (h : Settling P failing) (hdrain : failing.drain = .committing save)
    (hlive : (failing.registry.get id).isSome = true)
    (run : Run P options (Retrying id) { failing with drain := .settled save false } world) :
    Retried P options failing id world := by
  have hfail : failing.step P options (.storeSettles false) =
      some { failing with drain := .settled save false } := by
    simp only [step, storeSettles, hdrain]
    rfl
  have hfailed := settling_step hjournal h rfl hfail
  have hfirst : Requeued failing id { failing with drain := .settled save false } :=
    ⟨hlive, rfl, List.prefix_rfl, by simp, trivial⟩
  have hworld := settling_run hjournal hfailed (run.ordinary fun _ _ => And.left)
  have hrequeued := requeued_run hjournal hfailed hfirst run
  exact
    { stored := hrequeued.stored
      queued := hrequeued.queue h hdrain hlive hworld
      whole := hworld.conserved hrequeued.live hrequeued.quiet
      next := fun next hnext => requeued_stored hjournal hworld hrequeued hnext }

/-- `persist` acknowledges what it says, in every interleaving. -/
theorem acknowledges_run (hjournal : options.journal = true) {store : JournalStore}
    (hstore : Durable P store)
    (hanchors : ∀ id session, store.session id = some session →
      session.continuationAnchor = false)
    {nextId : Nat} {calling : World}
    (run : Run P options Ordinary (boot store nextId) calling) :
    Acknowledges P options calling := by
  have hcalling := settling_run hjournal (settling_boot hstore hanchors nextId) run
  have hstep : calling.step P options .persist = some calling.persist := rfl
  have hcalled : Settling P calling.persist := settling_step hjournal hcalling rfl hstep
  obtain ⟨htaken, hwaits⟩ := standing_persist hcalling
  have hold : calling.registry.nextId < calling.persist.registry.nextId := by
    rw [persist_nextId]
    exact Nat.lt_succ_self _
  refine ⟨?_, ?_, ?_, ?_, htaken, hwaits, ?_⟩
  · intro id world hlive later hresolved
    have hserved := served_run hjournal hcalled (served_persist hcalling hcalled hlive) later
    have hworld := settling_run hjournal hcalled (later.ordinary fun _ _ => And.left)
    exact List.prefix_of_prefix_length_le hserved.logged (hworld.rows hserved.live)
      (hserved.answered hresolved)
  · intro id world hgone later hresolved
    have hwithdrawn := withdrawn_run hjournal hcalled
      (withdrawn_persist hcalling hcalled hgone) later
    have hworld := settling_run hjournal hcalled (later.ordinary fun _ _ => And.left)
    obtain ⟨hnone, -⟩ := hwithdrawn.answered hresolved
    refine ⟨hnone, ?_⟩
    by_contra hevents
    have howned := hworld.conserving.inv.durable.owned id hevents
    rw [hnone] at howned
    cases howned
  · intro world later hrejected
    exact rejecting_run hjournal hcalled (not_rejecting_persist hcalling) later
      (Or.inr (Or.inr hrejected))
  · intro failing save id world before hdrain hlive after
    exact retried_run hjournal (settling_run hjournal hcalled before) hdrain hlive after
  · intro world later
    have hfirst : AnsweredInTurn P options calling.registry.nextId calling.persist := by
      apply answeredInTurn hcalled hold
      by_cases hidle : calling.drain = .idle
      · exact Or.inr (Or.inl (htaken hidle))
      · exact Or.inl (hwaits hidle).1
    exact (answeredInTurn_run hjournal hcalled hold hfirst later).1

theorem acknowledges_typing :
    ∃ calling, steps Platform.standard exampleOptions Ordinary (boot JournalStore.empty 0)
        [startWriting, typeLetter, .persist, typeLetter] = some calling ∧
      Acknowledges Platform.standard exampleOptions calling := by
  obtain ⟨calling, hcalling⟩ := Option.isSome_iff_exists.1
    (show (steps Platform.standard exampleOptions Ordinary (boot JournalStore.empty 0)
      [startWriting, typeLetter, .persist, typeLetter]).isSome = true by decide +kernel)
  exact ⟨calling, hcalling, acknowledges_run rfl (durable_empty Platform.standard)
    (fun _ _ h => by cases h) ((Run.refl _).steps hcalling)⟩

end World

end Pmbah.Producer
