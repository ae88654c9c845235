import Pmbah.Producer.Conservation
import Pmbah.Producer.Effects

/-!
# Turns of the drain loop

What one step does to the saves of `persist`: which iteration of
`#drainPersistence` it starts, ends or leaves alone, and which promises it takes
or answers.
-/

namespace Pmbah.Producer

open Js Format Library

/-! ## Growth of a registry -/

/-- No session is dropped, and no promise or object takes a number again. -/
structure Grows (registry next : Registry) (drops : JsString → Prop) : Prop where
  live : ∀ id, ¬ drops id → (registry.get id).isSome = true → (next.get id).isSome = true
  nextId : registry.nextId ≤ next.nextId

theorem SameJournal.grows {registry next : Registry} {drops : JsString → Prop}
    (h : SameJournal registry next) (hnextId : registry.nextId ≤ next.nextId) :
    Grows registry next drops := by
  refine ⟨?_, hnextId⟩
  intro id _ hsome
  obtain ⟨record, hget⟩ := Option.isSome_iff_exists.1 hsome
  obtain ⟨later, hlater, -⟩ := h.get_some hget
  rw [hlater]
  rfl

theorem Grows.trans {registry next last : Registry} {drops : JsString → Prop}
    (h : Grows registry next drops) (h' : Grows next last drops) :
    Grows registry last drops where
  live id hkept hsome := h'.live id hkept (h.live id hkept hsome)
  nextId := h.nextId.trans h'.nextId

theorem isSome_set {id : JsString} {map : OrderedMap JsString SessionRecord} (key : JsString)
    (record : SessionRecord) (h : (map.get? id).isSome = true) :
    ((map.set key record).get? id).isSome = true := by
  rw [OrderedMap.get?_set]
  split
  · rfl
  · exact h

theorem Touch.grows {options : RegistryOptions} {drops : JsString → Prop} {uuid : JsString}
    {registry next : Registry} (h : Touch options drops uuid registry next) :
    Grows registry next drops := by
  cases h with
  | quiet hsessions _ _ hnextId =>
      refine ⟨?_, hnextId⟩
      intro id _ hsome
      rwa [Registry.get, hsessions]
  | write hget _ => exact ⟨fun id _ => isSome_set _ _, Nat.le_refl _⟩
  | @kick kickedId drawn record now hget _ _ _ _ _ =>
      refine ⟨?_, ?_⟩
      · intro id _ hsome
        have hsame := kickCheckpoint_same now drawn hget (.refl record)
        obtain ⟨kept, hkept⟩ := Option.isSome_iff_exists.1 hsome
        obtain ⟨later, hlater, -⟩ := hsame.get_some hkept
        rw [hlater]
        rfl
      · rw [kickCheckpoint_nextId]
        exact Nat.le_succ _
  | insert _ _ _ => exact ⟨fun id _ => isSome_set _ _, Nat.le_succ _⟩
  | @remove removedId nextId hdrops hnextId =>
      refine ⟨?_, hnextId⟩
      intro id hkept hsome
      have hget : (removeSession registry removedId).get id = registry.get id := by
        rw [get_removeSession, if_neg]
        rintro rfl
        exact hkept hdrops
      show ((removeSession registry removedId).get id).isSome = true
      rwa [hget]
  | anchor _ _ _ _ _ hnextId => exact ⟨fun id _ => isSome_set _ _, hnextId⟩

theorem Touches.grows {options : RegistryOptions} {drops : JsString → Prop} {uuid : JsString}
    {registry next : Registry} (h : Touches options drops uuid registry next) :
    Grows registry next drops := by
  induction h with
  | nil => exact ⟨fun _ _ hsome => hsome, Nat.le_refl _⟩
  | cons head _ ih =>
      exact ⟨fun id hkept hsome => ih.live id hkept (head.grows.live id hkept hsome),
        head.grows.nextId.trans ih.nextId⟩

/-! ## Sessions that wait to be saved -/

/-- A queue is as it was, with its session as dirty as before, or the session is dirty. -/
def Marks (registry next : Registry) : Prop :=
  ∀ id, next.pending id ≠ [] →
    (next.pending id = registry.pending id ∧ (id ∈ registry.dirty → id ∈ next.dirty)) ∨
      id ∈ next.dirty

theorem Marks.trans {registry next last : Registry} (h : Marks registry next)
    (h' : Marks next last) : Marks registry last := by
  intro id hpending
  rcases h' id hpending with ⟨hsame, hdirty⟩ | hdirty
  · rw [hsame] at hpending ⊢
    exact (h id hpending).imp (fun hfirst => ⟨hfirst.1, fun hmem => hdirty (hfirst.2 hmem)⟩)
      hdirty
  · exact Or.inr hdirty

theorem SameJournal.marks {registry next : Registry} (h : SameJournal registry next) :
    Marks registry next := by
  intro id _
  refine Or.inl ⟨?_, h.dirty id⟩
  rw [Registry.pending, Registry.pending, h.pendingEvents]

theorem marks_removeSession (registry : Registry) (id : JsString) (nextId : Nat) :
    Marks registry { removeSession registry id with nextId } := by
  intro other hpending
  change (removeSession registry id).pending other ≠ [] at hpending
  rw [World.pending_removeSession] at hpending
  split at hpending
  · exact absurd rfl hpending
  · rename_i hne
    refine Or.inl ⟨?_, fun hmem => OrderedSet.mem_delete.2 ⟨hne, hmem⟩⟩
    show (removeSession registry id).pending other = _
    rw [World.pending_removeSession, if_neg hne]

theorem edits_marks {P : Platform} {options : RegistryOptions} {sweeps : Bool}
    {registry next : Registry} {events : List (JsString × BufferMutation)}
    (h : Edits P options sweeps registry events next) (hevents : events = []) :
    Marks registry next := by
  induction h with
  | nil registry => exact (SameJournal.refl registry).marks
  | cons head _ ih =>
      obtain ⟨hfirst, hrest⟩ := List.append_eq_nil_iff.1 hevents
      refine Marks.trans ?_ (ih hrest)
      cases head with
      | same h => exact h.marks
      | accept _ _ => cases hfirst
      | remove _ => exact marks_removeSession _ _ _
      | anchor _ _ _ _ =>
          intro id _
          exact Or.inl ⟨rfl, fun hmem => OrderedSet.mem_add.2 (Or.inr hmem)⟩

theorem effect_marks {P : Platform} {options : RegistryOptions} {sweeps : Bool}
    {uuid : JsString} {registry next : Registry}
    (h : CallEffect P options sweeps uuid registry [] next) : Marks registry next := by
  cases h with
  | edits h => exact edits_marks h rfl
  | create h _ _ =>
      apply h.marks.trans
      intro id _
      exact Or.inl ⟨rfl, fun hmem => OrderedSet.mem_add.2 (Or.inr hmem)⟩

theorem marks_accepted {options : RegistryOptions} (hjournal : options.journal = true)
    {registry : Registry} {id : JsString} (record : SessionRecord) (event : BufferMutation)
    (tip : B3Hash) (now : Int) (hdirty : id ∈ registry.dirty) :
    Marks registry (acceptEvent options registry id record event tip now) := by
  intro other _
  have hkept : (acceptEvent options registry id record event tip now).dirty =
      registry.dirty := by
    rw [World.acceptEvent_journal hjournal]
  rw [World.pending_accepted hjournal, hkept]
  split
  · rename_i heq
    rw [heq]
    exact Or.inr hdirty
  · exact Or.inl ⟨rfl, fun hmem => hmem⟩

theorem appendMutation_marks {P : Platform} {options : RegistryOptions}
    (hjournal : options.journal = true) (registry : Registry) (id : JsString)
    (mutation : PendingMutation) (capturedAtWallMs : Option Int) (clock : Nat → Int)
    (uuid : JsString) :
    Marks registry
      (appendMutation P options registry id mutation capturedAtWallMs clock uuid).1 := by
  unfold appendMutation requireMutable
  split
  · exact (SameJournal.refl registry).marks
  · split
    · exact (required_error ‹_›).marks
    · rename_i record hrequired
      obtain ⟨rfl, hget, -⟩ := requireInState_ok hrequired
      simp only
      split
      · exact (SameJournal.touch registry id).marks
      · apply (SameJournal.touch registry id).marks.trans
        apply (marks_accepted hjournal record _ _ _ (OrderedSet.mem_add.2 (Or.inl rfl))).trans
        exact (maybeTriggerCheckpoint_same options clock uuid
          (get_acceptEvent options (registry.touch id) id record _ _ _)).marks

theorem recordUnrecordedChange_marks {P : Platform} {options : RegistryOptions}
    (hjournal : options.journal = true) (registry : Registry) (id : JsString)
    (clock : Nat → Int) (uuid : JsString) :
    Marks registry (recordUnrecordedChange P options registry id clock uuid).1 := by
  unfold recordUnrecordedChange requireMutable
  split
  · exact (required_error ‹_›).marks
  · rename_i hrequired
    obtain ⟨rfl, -, -⟩ := requireInState_ok hrequired
    exact (SameJournal.touch registry id).marks.trans
      (appendMutation_marks hjournal _ id _ _ clock uuid)

/-- A call leaves no session with new events that is not dirty. -/
theorem RegistryCall.run_marks {P : Platform} {options : RegistryOptions}
    (hjournal : options.journal = true) {registry : Registry} (hkeyed : Keyed registry)
    (clock : Nat → Int) (uuid : JsString) (call : RegistryCall) :
    Marks registry (call.run P options clock uuid registry).registry := by
  cases call with
  | appendMutation id mutation capturedAtWallMs =>
      exact appendMutation_marks hjournal registry id mutation capturedAtWallMs clock uuid
  | recordUnrecordedChange id => exact recordUnrecordedChange_marks hjournal registry id clock uuid
  | findOrCreate origin descriptor captureSurface find =>
      exact effect_marks (P := P) (RegistryCall.run_effect hjournal hkeyed clock uuid
        (.findOrCreate origin descriptor captureSurface find))
  | resume id origin descriptor resumeOptions =>
      exact effect_marks (P := P) (RegistryCall.run_effect hjournal hkeyed clock uuid
        (.resume id origin descriptor resumeOptions))
  | sign id textBinding =>
      exact effect_marks (P := P) (RegistryCall.run_effect hjournal hkeyed clock uuid
        (.sign id textBinding))
  | markUploading id =>
      exact effect_marks (P := P) (RegistryCall.run_effect hjournal hkeyed clock uuid
        (.markUploading id))
  | markUploaded id response =>
      exact effect_marks (P := P) (RegistryCall.run_effect hjournal hkeyed clock uuid
        (.markUploaded id response))
  | markFailedUpload id reason =>
      exact effect_marks (P := P) (RegistryCall.run_effect hjournal hkeyed clock uuid
        (.markFailedUpload id reason))
  | markObservationRejected id code =>
      exact effect_marks (P := P) (RegistryCall.run_effect hjournal hkeyed clock uuid
        (.markObservationRejected id code))
  | continueFrom id location =>
      exact effect_marks (P := P) (RegistryCall.run_effect hjournal hkeyed clock uuid
        (.continueFrom id location))
  | discard id =>
      exact effect_marks (P := P) (RegistryCall.run_effect hjournal hkeyed clock uuid
        (.discard id))
  | sweep sweepOptions =>
      exact effect_marks (P := P) (RegistryCall.run_effect hjournal hkeyed clock uuid
        (.sweep sweepOptions))

/-! ## Sessions that have left -/

/-- A session that leaves the registry has its deletion queued. -/
structure Retires (registry next : Registry) : Prop where
  deleted : ∀ id ∈ registry.deleted, id ∈ next.deleted
  live : ∀ id, (registry.get id).isSome = true →
    (next.get id).isSome = true ∨ id ∈ next.deleted

theorem Retires.trans {registry next last : Registry} (h : Retires registry next)
    (h' : Retires next last) : Retires registry last where
  deleted id hid := h'.deleted id (h.deleted id hid)
  live id hsome := by
    rcases h.live id hsome with hnext | hdeleted
    · exact h'.live id hnext
    · exact Or.inr (h'.deleted id hdeleted)

theorem Retires.get_none {registry next : Registry} (h : Retires registry next) {id : JsString}
    (hget : next.get id = none) (hdeleted : id ∉ next.deleted) : registry.get id = none := by
  rw [← Option.not_isSome_iff_eq_none]
  intro hsome
  rcases h.live id hsome with hnext | hmem
  · rw [hget] at hnext
    cases hnext
  · exact hdeleted hmem

theorem SameJournal.retires {registry next : Registry} (h : SameJournal registry next) :
    Retires registry next where
  deleted id hid := by rwa [h.deleted]
  live id hsome := by
    obtain ⟨record, hget⟩ := Option.isSome_iff_exists.1 hsome
    obtain ⟨later, hlater, -⟩ := h.get_some hget
    rw [hlater]
    exact Or.inl rfl

theorem retires_insertNew (registry : Registry) (record : SessionRecord) :
    Retires registry (insertNew registry record) where
  deleted _ hid := hid
  live _ hsome := Or.inl (isSome_set _ _ hsome)

theorem edits_retires {P : Platform} {options : RegistryOptions} (hjournal : options.journal = true)
    {sweeps : Bool} {registry next : Registry} {events : List (JsString × BufferMutation)}
    (h : Edits P options sweeps registry events next) : Retires registry next := by
  induction h with
  | nil registry => exact (SameJournal.refl registry).retires
  | @cons registry _ _ _ _ head _ ih =>
      refine Retires.trans ?_ ih
      cases head with
      | same h => exact h.retires
      | accept _ _ =>
          rw [World.acceptEvent_journal hjournal]
          exact ⟨fun _ hid => hid, fun _ hsome => Or.inl (isSome_set _ _ hsome)⟩
      | @remove removedId _ nextId _ =>
          refine ⟨fun _ hid => OrderedSet.mem_add.2 (Or.inr hid), ?_⟩
          intro other hsome
          by_cases heq : other = removedId
          · exact Or.inr (OrderedSet.mem_add.2 (Or.inl heq))
          · left
            show ((removeSession registry removedId).get other).isSome = true
            rwa [get_removeSession, if_neg heq]
      | anchor _ _ _ _ => exact ⟨fun _ hid => hid, fun _ hsome => Or.inl (isSome_set _ _ hsome)⟩

theorem effect_retires {P : Platform} {options : RegistryOptions}
    (hjournal : options.journal = true) {sweeps : Bool} {uuid : JsString}
    {registry next : Registry} {events : List (JsString × BufferMutation)}
    (h : CallEffect P options sweeps uuid registry events next) : Retires registry next := by
  cases h with
  | edits h => exact edits_retires hjournal h
  | create h _ _ => exact h.retires.trans (retires_insertNew _ _)

/-! ## Steps of the drain loop -/

/-- The promises that the current iteration answers. -/
def Drain.waiters : Drain → List Nat
  | .idle => []
  | .committing save => save.waiters
  | .settled save _ => save.waiters
  | .returned waiters _ => waiters

namespace World

variable {P : Platform} {options : RegistryOptions} {world next : World}

/-- A call of `persist`, `findOrCreate`, `appendMutation`, `discard` or any other method
but `sweep` and `discardPersisted`, and what the registry does by itself. -/
def Action.ordinary : Action → Bool
  | .call made _ _ => !made.sweeps
  | .discardPersisted _ => false
  | .crash => false
  | _ => true

/-- What a step does to the saves. -/
inductive Turn (world next : World) : Prop where
  | still (hdrain : next.drain = world.drain) (hstore : next.store = world.store)
      (houtcomes : next.outcomes = world.outcomes) (hwaiters : next.waiters = world.waiters)
  | joins (hbusy : world.drain ≠ .idle) (hdrain : next.drain = world.drain)
      (hstore : next.store = world.store) (houtcomes : next.outcomes = world.outcomes)
      (hwaiters : next.waiters = world.waiters ++ [world.registry.nextId])
      (hnextId : next.registry.nextId = world.registry.nextId + 1)
  | starts (taken : List Nat) (hstore : next.store = world.store)
      (hdirty : ∀ id, id ∉ next.registry.dirty) (hdeleted : ∀ id, id ∉ next.registry.deleted)
      (hwaiters : next.waiters = [])
      (hdrain : next.drain = .returned taken true ∨
        ∃ save : Save, next.drain = .committing save ∧ save.waiters = taken)
      (hbefore : (world.drain = .idle ∧ next.outcomes = world.outcomes ∧
          taken = world.waiters ++ [world.registry.nextId] ∧
          next.registry.nextId = world.registry.nextId + 1) ∨
        ∃ waiters saved, world.drain = .returned waiters saved ∧
          next.outcomes = settle world.outcomes waiters saved ∧ taken = world.waiters)
  | stored (save : Save) (store : JournalStore) (hdrain : world.drain = .committing save)
      (hcommit : world.store.commit save.batch = some store)
      (hnext : next =
        { world with
          store, drain := .settled save true, landed := world.landed.addAll (appendIds save) })
  | failed (save : Save) (hdrain : world.drain = .committing save)
      (hnext : next = { world with drain := .settled save false })
  | returned (save : Save) (saved : Bool) (hdrain : world.drain = .settled save saved)
      (hnext : next.drain = .returned save.waiters saved) (hstore : next.store = world.store)
      (houtcomes : next.outcomes = world.outcomes) (hwaiters : next.waiters = world.waiters)
  | rests (waiters : List Nat) (saved : Bool) (hdrain : world.drain = .returned waiters saved)
      (hnext : next.drain = .idle) (hstore : next.store = world.store)
      (houtcomes : next.outcomes = settle world.outcomes waiters saved)
      (hempty : world.waiters = []) (hwaiters : next.waiters = [])

theorem startSave_clean (world : World) (id : JsString) :
    id ∉ world.startSave.registry.dirty ∧ id ∉ world.startSave.registry.deleted := by
  unfold startSave
  simp only
  split
  · rename_i hnothing
    simp only [Bool.and_eq_true, List.isEmpty_iff] at hnothing
    refine ⟨?_, ?_⟩
    · intro hmem
      rw [← OrderedSet.mem_members, hnothing.1.1] at hmem
      exact absurd hmem List.not_mem_nil
    · intro hmem
      rw [← OrderedSet.mem_members, hnothing.1.2] at hmem
      exact absurd hmem List.not_mem_nil
  · refine ⟨?_, ?_⟩
    · intro hmem
      obtain ⟨hout, hin⟩ := OrderedSet.mem_deleteAll.1 hmem
      exact hout (OrderedSet.mem_members.2 hin)
    · intro hmem
      obtain ⟨hout, hin⟩ := OrderedSet.mem_deleteAll.1 hmem
      exact hout (OrderedSet.mem_members.2 hin)

/-- A save takes every waiter. -/
theorem startSave_drain (world : World) :
    world.startSave.store = world.store ∧ world.startSave.outcomes = world.outcomes ∧
      world.startSave.waiters = [] ∧
      (world.startSave.drain = .returned world.waiters true ∨
        ∃ save : Save, world.startSave.drain = .committing save ∧
          save.waiters = world.waiters) := by
  unfold startSave
  simp only
  split
  · exact ⟨rfl, rfl, rfl, Or.inl rfl⟩
  · exact ⟨rfl, rfl, rfl, Or.inr ⟨_, rfl, rfl⟩⟩

@[simp] theorem startSave_nextId (world : World) :
    world.startSave.registry.nextId = world.registry.nextId := by
  unfold startSave
  simp only
  split
  · rfl
  · rfl

/-- A change of the registry, then a call of `persist`. -/
theorem turn_registry_persist (world : World) {registry : Registry}
    (hnextId : registry.nextId = world.registry.nextId) :
    Turn world ({ world with registry }).persist := by
  unfold persist kick
  split
  · rename_i hidle
    obtain ⟨hstore, houtcomes, hwaiters, hdrain⟩ := startSave_drain ({ world with registry }).wait
    refine .starts _ hstore (fun id => (startSave_clean _ id).1)
      (fun id => (startSave_clean _ id).2) hwaiters hdrain (Or.inl ⟨hidle, houtcomes, ?_, ?_⟩)
    · rw [← hnextId]
      rfl
    · rw [startSave_nextId, ← hnextId]
      rfl
  · rename_i hbusy
    refine .joins hbusy rfl rfl rfl ?_ ?_
    · rw [← hnextId]
      rfl
    · rw [← hnextId]
      rfl

@[simp] theorem startSave_accepted (world : World) :
    world.startSave.accepted = world.accepted := by
  unfold startSave
  simp only
  split
  · rfl
  · rfl

@[simp] theorem persist_accepted (world : World) : world.persist.accepted = world.accepted := by
  unfold persist kick
  split
  · rw [startSave_accepted]
    rfl
  · rfl

theorem turn_persist (world : World) : Turn world world.persist :=
  turn_registry_persist world rfl


/-- Every step takes one turn of the drain loop, or none. -/
theorem turn_step (hdiscards : ∀ task, world.discards.get? task = none) {action : Action}
    (hordinary : action.ordinary = true) (hnext : world.step P options action = some next) :
    Turn world next := by
  cases move_of_step hnext with
  | call _ => exact .still rfl rfl rfl rfl
  | persist => exact turn_persist world
  | settle => cases hordinary
  | detach htask _ =>
      rw [hdiscards] at htask
      cases htask
  | restore htask _ =>
      rw [hdiscards] at htask
      cases htask
  | finish => exact .still rfl rfl rfl rfl
  | store hdrain hcommit => exact .stored _ _ hdrain hcommit rfl
  | fail hdrain => exact .failed _ hdrain rfl
  | unqueue hdrain => exact .returned _ true hdrain rfl rfl rfl rfl
  | requeue hdrain => exact .returned _ false hdrain rfl rfl rfl rfl
  | rest hdrain hempty => exact .rests _ _ hdrain rfl rfl rfl hempty hempty
  | @restart waiters saved hdrain _ =>
      obtain ⟨hstore, houtcomes, hwaiters, hstarted⟩ :=
        startSave_drain { world with outcomes := settle world.outcomes waiters saved }
      exact .starts _ hstore (fun id => (startSave_clean _ id).1)
        (fun id => (startSave_clean _ id).2) hwaiters hstarted
        (Or.inr ⟨waiters, saved, hdrain, houtcomes, rfl⟩)
  | observe _ _ _ => exact .still rfl rfl rfl rfl
  | answer _ hnextId => exact turn_registry_persist world hnextId
  | crash => cases hordinary

/-! ## Growth of a world -/

/-- The sessions that a step may drop. -/
def Action.drops : Action → JsString → Prop
  | .call made _ _ => made.drops
  | _ => fun _ => False

/-- The step draws this identifier. -/
def Action.draws : Action → JsString → Prop
  | .call _ _ uuid, id => uuid = id
  | _, _ => False

theorem persist_nextId (world : World) :
    world.persist.registry.nextId = world.registry.nextId + 1 := by
  unfold persist kick
  split
  · rw [startSave_nextId]
    rfl
  · rfl

theorem grows_persist (world : World) {drops : JsString → Prop} :
    Grows world.registry world.persist.registry drops := by
  refine ⟨?_, ?_⟩
  · intro id _ hsome
    rwa [Registry.get, persist_sessions]
  · rw [persist_nextId]
    exact Nat.le_succ _

theorem grows_step (hinv : Inv P world) (hdiscards : ∀ task, world.discards.get? task = none)
    {action : Action} (hordinary : action.ordinary = true)
    (hnext : world.step P options action = some next) :
    Grows world.registry next.registry action.drops := by
  cases move_of_step hnext with
  | @call made clock uuid hfree =>
      exact (made.run_touches P options hinv.keyed (get_eq_none_of_not_inUse hfree) clock).grows
  | persist => exact grows_persist world
  | settle => cases hordinary
  | detach htask _ =>
      rw [hdiscards] at htask
      cases htask
  | restore htask _ =>
      rw [hdiscards] at htask
      cases htask
  | finish => exact (SameJournal.refl _).grows (Nat.le_refl _)
  | store _ _ => exact (SameJournal.refl _).grows (Nat.le_refl _)
  | fail _ => exact (SameJournal.refl _).grows (Nat.le_refl _)
  | @unqueue save hdrain =>
      have hsave : save ∈ world.drain.save? := by
        rw [hdrain]
        rfl
      obtain ⟨pendingEvents, hregistry, -, -⟩ :=
        unqueueAll_eq (hinv.save save hsave).distinct.appends world.registry
      unfold afterReturn
      rw [hregistry]
      exact ⟨fun _ _ hsome => hsome, Nat.le_refl _⟩
  | requeue _ => exact ⟨fun _ _ hsome => hsome, Nat.le_refl _⟩
  | rest _ _ => exact (SameJournal.refl _).grows (Nat.le_refl _)
  | restart _ _ =>
      refine ⟨?_, ?_⟩
      · intro id _ hsome
        rwa [Registry.get, startSave_sessions]
      · rw [startSave_nextId]
  | observe _ hsame hnextId => exact hsame.grows hnextId
  | @answer _ _ registry hsame hnextId =>
      have hgrows : Grows world.registry registry fun _ => False := hsame.grows hnextId.ge
      exact hgrows.trans (grows_persist { world with registry })
  | crash => cases hordinary

/-- A step creates no session but under the identifier it draws. -/
theorem live_step (hjournal : options.journal = true) (hinv : Inv P world)
    (hdiscards : ∀ task, world.discards.get? task = none) {action : Action}
    (hordinary : action.ordinary = true) (hnext : world.step P options action = some next)
    {id : JsString} (hlive : (next.registry.get id).isSome = true) :
    (world.registry.get id).isSome = true ∨ action.draws id := by
  cases move_of_step hnext with
  | @call made clock uuid _ =>
      have heffect := made.run_effect (P := P) hjournal hinv.keyed clock uuid
      exact (effect_live hjournal heffect hlive).imp_right Eq.symm
  | persist =>
      left
      rwa [Registry.get, persist_sessions] at hlive
  | settle => cases hordinary
  | detach htask _ =>
      rw [hdiscards] at htask
      cases htask
  | restore htask _ =>
      rw [hdiscards] at htask
      cases htask
  | finish => exact Or.inl hlive
  | store _ _ => exact Or.inl hlive
  | fail _ => exact Or.inl hlive
  | @unqueue save hdrain =>
      have hsave : save ∈ world.drain.save? := by
        rw [hdrain]
        rfl
      obtain ⟨pendingEvents, hregistry, -, -⟩ :=
        unqueueAll_eq (hinv.save save hsave).distinct.appends world.registry
      unfold afterReturn at hlive
      rw [hregistry] at hlive
      exact Or.inl hlive
  | requeue _ => exact Or.inl hlive
  | rest _ _ => exact Or.inl hlive
  | restart _ _ =>
      left
      rwa [Registry.get, startSave_sessions] at hlive
  | observe _ hsame _ =>
      left
      rwa [← show _ = (world.registry.get id).isSome from SameJournal.isSome_get hsame id]
  | answer hsame _ =>
      left
      rw [Registry.get, persist_sessions] at hlive
      rwa [← show _ = (world.registry.get id).isSome from SameJournal.isSome_get hsame id]
  | crash => cases hordinary

end World

end Pmbah.Producer
