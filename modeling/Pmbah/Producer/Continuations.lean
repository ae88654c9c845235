import Pmbah.Producer.Loops

/-!
# What an active session continues

The record that an active session names as its parent, and what the methods of
a registry do to it.  A method writes down every session whose continuation it
ends, so a stored session that still seems to continue a record waits for a
save.
-/

namespace Pmbah.Producer

open Js Format Library

/-- The record that an active session continues. -/
def SessionRecord.continues (record : SessionRecord) : Option JsString :=
  if record.state = .active then record.parentRecord else none

theorem continues_of_not_active {record : SessionRecord} (h : record.state ≠ .active) :
    record.continues = none :=
  if_neg h

theorem continues_eq_some {record : SessionRecord} {hash : JsString} :
    record.continues = some hash ↔
      record.state = .active ∧ record.parentRecord = some hash := by
  unfold SessionRecord.continues
  split
  · rename_i hactive
    exact (and_iff_right hactive).symm
  · rename_i hother
    exact iff_of_false (by simp) fun h => hother h.1

/-- No two keys have one value. -/
def Single (values : JsString → Option JsString) : Prop :=
  ∀ first last value, values first = some value → values last = some value → first = last

theorem Single.mono {values fewer : JsString → Option JsString} (h : Single values)
    (hfewer : ∀ key value, fewer key = some value → values key = some value) : Single fewer :=
  fun first last value hfirst hlast =>
    h first last value (hfewer first value hfirst) (hfewer last value hlast)

theorem Single.update {values : JsString → Option JsString} (h : Single values)
    (key : JsString) {value : Option JsString}
    (hnew : ∀ other, other ≠ key → value.isSome = true → values other ≠ value) :
    Single fun other => if other = key then value else values other := by
  intro first last shared hfirst hlast
  simp only at hfirst hlast
  by_cases hfirstKey : first = key
  · by_cases hlastKey : last = key
    · rw [hfirstKey, hlastKey]
    · rw [if_pos hfirstKey] at hfirst
      rw [if_neg hlastKey] at hlast
      rw [hfirst] at hnew
      exact absurd hlast (hnew last hlastKey rfl)
  · rw [if_neg hfirstKey] at hfirst
    by_cases hlastKey : last = key
    · rw [if_pos hlastKey] at hlast
      rw [hlast] at hnew
      exact absurd hfirst (hnew first hfirstKey rfl)
    · rw [if_neg hlastKey] at hlast
      exact h first last shared hfirst hlast

/-- What a session of the registry continues. -/
def Registry.continues (registry : Registry) (id : JsString) : Option JsString :=
  (registry.get id).bind SessionRecord.continues

variable {P : Platform} {options : RegistryOptions} {registry next : Registry}

theorem registry_continues {id : JsString} {record : SessionRecord}
    (hget : registry.get id = some record) : registry.continues id = record.continues := by
  rw [Registry.continues, hget]
  rfl

theorem continues_put (registry : Registry) (id other : JsString) (record : SessionRecord) :
    (registry.put id record).continues other =
      if other = id then record.continues else registry.continues other := by
  rw [Registry.continues, get_put]
  split
  · rfl
  · rfl

/-! ## Changes that keep continuations apart -/

/-- A change that lets no second session continue a record, and leaves in the
queues of the next save whatever it changes of a continuation.  A deletion that is
taken back is a session to save. -/
structure Heeds (registry next : Registry) : Prop where
  keyed : Keyed registry → Keyed next
  single : Single registry.continues → Single next.continues
  live : ∀ id, (registry.get id).isSome = true → (next.get id).isSome = true ∨ id ∈ next.deleted
  written : ∀ id hash, registry.continues id = some hash →
    next.continues id = some hash ∨ id ∈ next.dirty ∨ id ∈ next.deleted
  dirty : ∀ id ∈ registry.dirty, id ∈ next.dirty ∨ id ∈ next.deleted
  deleted : ∀ id ∈ registry.deleted,
    id ∈ next.deleted ∨ id ∈ next.dirty ∧ (next.get id).isSome = true

namespace Heeds

/-- A change of what continuations do not depend on. -/
theorem of_eq (hsessions : next.sessions = registry.sessions)
    (hdirty : ∀ id ∈ registry.dirty, id ∈ next.dirty) (hdeleted : next.deleted = registry.deleted) :
    Heeds registry next := by
  have hget : next.get = registry.get := by
    funext id
    rw [Registry.get, hsessions, Registry.get]
  have hcontinues : next.continues = registry.continues := by
    funext id
    rw [Registry.continues, hget, Registry.continues]
  refine ⟨?_, ?_, ?_, ?_, ?_, ?_⟩
  · intro hkeyed id record h
    rw [hget] at h
    exact hkeyed id record h
  · rw [hcontinues]
    exact id
  · rw [hget]
    exact fun id h => Or.inl h
  · rw [hcontinues]
    exact fun id hash h => Or.inl h
  · exact fun id h => Or.inl (hdirty id h)
  · rw [hdeleted]
    exact fun id h => Or.inl h

theorem refl (registry : Registry) : Heeds registry registry := of_eq rfl (fun _ h => h) rfl

theorem trans {last : Registry} (h : Heeds registry next) (h' : Heeds next last) :
    Heeds registry last := by
  have hgone : ∀ id, id ∈ next.deleted → id ∈ last.dirty ∨ id ∈ last.deleted :=
    fun id hid => (h'.deleted id hid).symm.imp_left And.left
  refine ⟨fun hkeyed => h'.keyed (h.keyed hkeyed), fun hsingle => h'.single (h.single hsingle),
    ?_, ?_, ?_, ?_⟩
  · intro id hlive
    rcases h.live id hlive with hstill | hdeleted
    · exact h'.live id hstill
    · exact (h'.deleted id hdeleted).symm.imp_left And.right
  · intro id hash hcontinues
    rcases h.written id hash hcontinues with hstill | hdirty | hdeleted
    · exact h'.written id hash hstill
    · exact Or.inr (h'.dirty id hdirty)
    · exact Or.inr (hgone id hdeleted)
  · exact fun id hid => (h.dirty id hid).elim (h'.dirty id) (hgone id)
  · intro id hid
    rcases h.deleted id hid with hdeleted | ⟨hdirty, hlive⟩
    · exact h'.deleted id hdeleted
    · rcases h'.dirty id hdirty with hdirty | hdeleted
      · exact (h'.live id hlive).symm.imp_right fun hlive => ⟨hdirty, hlive⟩
      · exact Or.inl hdeleted

theorem touch (registry : Registry) (id : JsString) : Heeds registry (registry.touch id) :=
  of_eq rfl (fun _ h => OrderedSet.mem_add.2 (Or.inr h)) rfl

theorem rename (registry : Registry) (nextId : Nat) : Heeds registry { registry with nextId } :=
  of_eq rfl (fun _ h => h) rfl

/-- A session is written over one that is there.  It continues what that one did, or
nothing if it waits for a save. -/
theorem put {id : JsString} {record written : SessionRecord}
    (hget : registry.get id = some record) (hid : written.sessionId = record.sessionId)
    (h : written.continues = record.continues ∨
      written.continues = none ∧ id ∈ registry.dirty) :
    Heeds registry (registry.put id written) := by
  have hold : registry.continues id = record.continues := registry_continues hget
  refine ⟨?_, ?_, ?_, ?_, ?_, fun _ h => Or.inl h⟩
  · intro hkeyed other found hfound
    rw [get_put] at hfound
    split at hfound
    · rename_i heq
      rw [Option.some.injEq] at hfound
      rw [← hfound, heq, hid]
      exact hkeyed id record hget
    · exact hkeyed other found hfound
  · intro hsingle
    apply hsingle.mono
    intro other hash hcontinues
    rw [continues_put] at hcontinues
    split at hcontinues
    · rename_i heq
      rcases h with hsame | ⟨hnone, -⟩
      · rw [heq, hold, ← hsame, hcontinues]
      · rw [hnone] at hcontinues
        cases hcontinues
    · exact hcontinues
  · intro other hlive
    left
    rw [get_put]
    split
    · rfl
    · exact hlive
  · intro other hash hcontinues
    rw [continues_put]
    split
    · rename_i heq
      rcases h with hsame | ⟨-, hdirty⟩
      · left
        rw [hsame, ← hold, ← heq, hcontinues]
      · exact Or.inr (Or.inl (heq ▸ hdirty))
    · exact Or.inl hcontinues
  · exact fun other hdirty => Or.inl hdirty

theorem put_touch {id : JsString} {record written : SessionRecord} (other : JsString)
    (hget : registry.get id = some record) (hid : written.sessionId = record.sessionId)
    (h : written.continues = record.continues) :
    Heeds registry ((registry.put id written).touch other) :=
  (put hget hid (Or.inl h)).trans (touch _ other)

/-- Checkpoints write their part of a session. -/
theorem observe {id : JsString} {record : SessionRecord} (hget : registry.get id = some record)
    (observation : SessionObservation) :
    Heeds registry (registry.put id { record with observation }) :=
  put hget rfl (Or.inl rfl)

/-- A new session that continues nothing, or what no session continues. -/
theorem insertNew {record : SessionRecord}
    (h : ∀ other, record.continues.isSome = true → registry.continues other ≠ record.continues) :
    Heeds registry (insertNew registry record) := by
  have hcontinues : (Producer.insertNew registry record).continues = fun other =>
      if other = record.sessionId then record.continues else registry.continues other := by
    funext other
    exact continues_put registry record.sessionId other record
  have hget : ∀ other, (Producer.insertNew registry record).get other =
      if other = record.sessionId then some record else registry.get other :=
    fun other => get_put registry record.sessionId other record
  have hdirty : ∀ other, other ∈ (Producer.insertNew registry record).dirty ↔
      other = record.sessionId ∨ other ∈ registry.dirty := fun other => OrderedSet.mem_add
  refine ⟨?_, ?_, ?_, ?_, ?_, fun _ h => Or.inl h⟩
  · intro hkeyed other found hfound
    rw [hget] at hfound
    split at hfound
    · rename_i heq
      rw [Option.some.injEq] at hfound
      rw [← hfound, heq]
    · exact hkeyed other found hfound
  · intro hsingle
    rw [hcontinues]
    exact hsingle.update record.sessionId fun other _ => h other
  · intro other hlive
    left
    rw [hget]
    split
    · rfl
    · exact hlive
  · intro other hash hbefore
    rw [hcontinues, hdirty]
    by_cases heq : other = record.sessionId
    · exact Or.inr (Or.inl (Or.inl heq))
    · left
      simp only [if_neg heq]
      exact hbefore
  · exact fun other hother => Or.inl ((hdirty other).2 (Or.inr hother))

theorem remove (registry : Registry) (id : JsString) (nextId : Nat) :
    Heeds registry { removeSession registry id with nextId } := by
  have hget : ∀ other, (removeSession registry id).get other =
      if other = id then none else registry.get other := get_removeSession registry id
  have hdeleted : ∀ other, other ∈ registry.deleted.add id ↔
      other = id ∨ other ∈ registry.deleted := fun other => OrderedSet.mem_add
  refine ⟨?_, ?_, ?_, ?_, ?_, ?_⟩
  · intro hkeyed other found hfound
    change (removeSession registry id).get other = some found at hfound
    rw [hget] at hfound
    split at hfound
    · cases hfound
    · exact hkeyed other found hfound
  · intro hsingle
    apply hsingle.mono
    intro other hash hcontinues
    change ((removeSession registry id).get other).bind _ = some hash at hcontinues
    rw [hget] at hcontinues
    split at hcontinues
    · cases hcontinues
    · exact hcontinues
  · intro other hlive
    show ((removeSession registry id).get other).isSome = true ∨ other ∈ registry.deleted.add id
    rw [hget, hdeleted]
    by_cases heq : other = id
    · exact Or.inr (Or.inl heq)
    · rw [if_neg heq]
      exact Or.inl hlive
  · intro other hash hcontinues
    show ((removeSession registry id).get other).bind _ = some hash ∨ _ ∨
      other ∈ registry.deleted.add id
    rw [hget, hdeleted]
    by_cases heq : other = id
    · exact Or.inr (Or.inr (Or.inl heq))
    · rw [if_neg heq]
      exact Or.inl hcontinues
  · intro other hother
    show other ∈ registry.dirty.delete id ∨ other ∈ registry.deleted.add id
    rw [OrderedSet.mem_delete, hdeleted]
    by_cases heq : other = id
    · exact Or.inr (Or.inl heq)
    · exact Or.inl ⟨heq, hother⟩
  · exact fun other hother => Or.inl ((hdeleted other).2 (Or.inr hother))

end Heeds

/-! ## The methods -/

theorem requireInState_heeds (registry : Registry) (id : JsString)
    (allowed : List SessionState) : Heeds registry (requireInState registry id allowed).1 := by
  rcases requireInState_cases registry id allowed with hrefused | htouched
  · rw [hrefused]
    exact .refl registry
  · rw [htouched]
    exact .touch registry id

theorem required_heeds {id : JsString} {allowed : List SessionState}
    {result : Except JsError SessionRecord}
    (h : requireInState registry id allowed = (next, result)) : Heeds registry next := by
  have := requireInState_heeds registry id allowed
  rwa [h] at this

/-- A method that writes a session may end its continuation. -/
theorem written_heeds {id : JsString} {allowed : List SessionState}
    {record written : SessionRecord}
    (h : requireInState registry id allowed = (next, .ok record))
    (hid : written.sessionId = record.sessionId)
    (hcontinues : written.continues = record.continues ∨ written.continues = none) :
    Heeds registry (next.put id written) := by
  apply (required_heeds h).trans
  obtain ⟨rfl, hget, -⟩ := requireInState_ok h
  refine Heeds.put hget hid ?_
  · exact hcontinues.imp_right fun hnone => ⟨hnone, OrderedSet.mem_add.2 (Or.inl rfl)⟩

theorem setStage_heeds (registry : Registry) (promise : Nat) (loop : CheckpointLoop)
    (stage : LoopStage) : Heeds registry (setStage registry promise loop stage) :=
  .of_eq rfl (fun _ h => h) rfl

theorem postRound_heeds (registry : Registry) (promise : Nat) (loop : CheckpointLoop)
    (uuid : JsString) : Heeds registry (postRound registry promise loop uuid) := by
  unfold postRound
  simp only
  split
  · exact .of_eq rfl (fun _ h => h) rfl
  · rename_i record hget
    split
    · exact (Heeds.observe hget _).trans (.of_eq rfl (fun _ h => h) rfl)
    · exact .of_eq rfl (fun _ h => h) rfl

theorem kickCheckpoint_heeds {id : JsString} {record : SessionRecord} (now : Int)
    (uuid : JsString) {observation : SessionObservation} (hget : registry.get id = some record) :
    Heeds registry (kickCheckpoint registry id { record with observation } now uuid) := by
  unfold kickCheckpoint
  simp only
  have htouched : (registry.touch id).get id = some record := hget
  apply ((Heeds.touch registry id).trans (Heeds.observe htouched _)).trans
  apply (Heeds.rename _ _).trans
  exact (postRound_heeds _ _ _ uuid).trans (.of_eq rfl (fun _ h => h) rfl)

theorem maybeTriggerCheckpoint_heeds (options : RegistryOptions) {id : JsString}
    {record : SessionRecord} (clock : Nat → Int) (uuid : JsString)
    (hget : registry.get id = some record) :
    Heeds registry (maybeTriggerCheckpoint options registry id record clock uuid) := by
  unfold maybeTriggerCheckpoint
  split
  · exact .refl registry
  · split
    · exact .refl registry
    · split
      · exact .observe hget _
      · exact kickCheckpoint_heeds _ uuid hget

theorem checkpointAnswered_heeds (options : RegistryOptions) (registry : Registry)
    (promise : Nat) (loop : CheckpointLoop) (result : CheckpointResult) (save : Nat) :
    Heeds registry (checkpointAnswered options registry promise loop result save).1 := by
  unfold checkpointAnswered
  split
  · exact setStage_heeds registry promise loop .ended
  · rename_i record hget
    have htouched : (registry.touch loop.sessionId).get loop.sessionId = some record := hget
    simp only
    split
    · exact ((Heeds.touch registry _).trans (Heeds.observe htouched _)).trans
        (setStage_heeds _ promise loop _)
    · exact ((Heeds.touch registry _).trans (Heeds.observe htouched _)).trans
        (setStage_heeds _ promise loop _)

theorem checkpointSaved_heeds (registry : Registry) (promise : Nat) (loop : CheckpointLoop)
    (again : Option Nat) (saved : Bool) (now : Int) (uuid : JsString) :
    Heeds registry (checkpointSaved registry promise loop again saved now uuid) := by
  unfold checkpointSaved
  split
  · exact setStage_heeds registry promise loop .ended
  · split
    · exact setStage_heeds registry promise loop .ended
    · split
      · exact postRound_heeds registry promise loop uuid
      · rename_i record hget
        split
        · exact (Heeds.observe hget _).trans (postRound_heeds _ promise loop uuid)
        · exact postRound_heeds registry promise loop uuid

theorem loopFinished_heeds (registry : Registry) (promise : Nat) (loop : CheckpointLoop) :
    Heeds registry (loopFinished registry promise loop) := by
  unfold loopFinished
  simp only
  split
  · have hreleased : Heeds registry
        { registry with
          loops := registry.loops.delete promise
          inFlight := registry.inFlight.delete loop.sessionId } :=
      .of_eq rfl (fun _ h => h) rfl
    split
    · exact hreleased
    · rename_i record hget
      split
      · apply hreleased.trans
        apply Heeds.put_touch
        · exact hget
        · rfl
        · rfl
      · exact .of_eq rfl (fun _ h => h) rfl
  · exact .of_eq rfl (fun _ h => h) rfl

theorem flushRound_heeds (registry : Registry) (flush : ObservationFlush) (now : Int)
    (uuid : JsString) : Heeds registry (flushRound registry flush now uuid).1 := by
  apply flushRound_relates
  · exact .of_eq rfl (fun _ h => h) rfl
  · exact .refl registry
  · exact fun record hget => kickCheckpoint_heeds now uuid hget

/-! ### Calls -/

theorem continues_newRecord (options : RegistryOptions) (objectId : Nat) (sessionId : JsString)
    (origin : FieldOrigin) (descriptor : FieldDescriptor) (captureSurface : JsString)
    (certainty : IdentityCertainty) (base last : Int) (gap : Bool)
    (parentRecord : Option JsString) :
    (newRecord options objectId sessionId origin descriptor captureSurface certainty base last
      gap parentRecord).continues = parentRecord :=
  if_pos rfl

theorem findOrCreate_heeds (options : RegistryOptions) (registry : Registry)
    (origin : FieldOrigin) (descriptor : FieldDescriptor) (captureSurface : JsString)
    (find : FindOptions) (clock : Nat → Int) (uuid : JsString) :
    Heeds registry
      (findOrCreate options registry origin descriptor captureSurface find clock uuid).1 := by
  have hfound := findOrCreate_cases options registry origin descriptor captureSurface find
    clock uuid
  generalize (findOrCreate options registry origin descriptor captureSurface find clock uuid).1 =
    left at hfound ⊢
  cases hfound with
  | refused => exact .refl registry
  | created =>
      apply Heeds.insertNew
      intro other hsome
      rw [continues_newRecord] at hsome
      cases hsome
  | found hget =>
      apply Heeds.put_touch
      · exact hget
      · rfl
      · rfl

theorem resume_heeds (registry : Registry) (id : JsString) (origin : FieldOrigin)
    (descriptor : FieldDescriptor) (resumeOptions : ResumeOptions) :
    Heeds registry (resume registry id origin descriptor resumeOptions).1 := by
  unfold resume requireMutable
  split
  · rename_i h
    exact required_heeds h
  · rename_i h
    exact written_heeds h rfl (Or.inl rfl)

theorem recomputeObservationState_continues (options : RegistryOptions)
    (record : SessionRecord) :
    (recomputeObservationState options record).sessionId = record.sessionId ∧
      (recomputeObservationState options record).continues = record.continues := by
  unfold recomputeObservationState
  split
  · exact ⟨rfl, rfl⟩
  · exact ⟨rfl, rfl⟩

theorem acceptEvent_heeds (options : RegistryOptions) {id : JsString} {record : SessionRecord}
    (event : BufferMutation) (tip : B3Hash) (now : Int) (hget : registry.get id = some record) :
    Heeds registry (acceptEvent options registry id record event tip now) := by
  have hwritten : (recordEvent options record event tip now).sessionId = record.sessionId ∧
      (recordEvent options record event tip now).continues = record.continues :=
    recomputeObservationState_continues options _
  unfold acceptEvent
  simp only
  split
  · let queued : Registry :=
      { registry with
        pendingEvents :=
          registry.pendingEvents.set id (registry.pending id ++ [event]) }
    have hqueued : Heeds registry queued := .of_eq rfl (fun _ h => h) rfl
    have hkept : queued.get id = some record := hget
    exact hqueued.trans (Heeds.put hkept hwritten.1 (Or.inl hwritten.2))
  · exact Heeds.put hget hwritten.1 (Or.inl hwritten.2)

theorem appendMutation_heeds (registry : Registry) (id : JsString) (mutation : PendingMutation)
    (capturedAtWallMs : Option Int) (clock : Nat → Int) (uuid : JsString) :
    Heeds registry
      (appendMutation P options registry id mutation capturedAtWallMs clock uuid).1 := by
  unfold appendMutation requireMutable
  split
  · exact .refl registry
  · split
    · rename_i h
      exact required_heeds h
    · rename_i h
      obtain ⟨rfl, hget, -⟩ := requireInState_ok h
      have hrequired := required_heeds h
      simp only
      split
      · exact hrequired
      · have htouched : (registry.touch id).get id = some _ := hget
        apply hrequired.trans
        apply (acceptEvent_heeds options _ _ _ htouched).trans
        exact maybeTriggerCheckpoint_heeds options clock uuid (get_acceptEvent _ _ _ _ _ _ _)

theorem recordUnrecordedChange_heeds (registry : Registry) (id : JsString)
    (clock : Nat → Int) (uuid : JsString) :
    Heeds registry (recordUnrecordedChange P options registry id clock uuid).1 := by
  unfold recordUnrecordedChange requireMutable
  split
  · rename_i h
    exact required_heeds h
  · rename_i h
    exact (required_heeds h).trans (appendMutation_heeds _ id unrecordedChange none clock uuid)

theorem signRecord_frozen {record frozen : SessionRecord} {textBinding : Option Json}
    {now : Int} {uuid : JsString} {manifest : Json}
    (h : signRecord P options record textBinding now uuid = .ok (frozen, manifest)) :
    frozen.sessionId = record.sessionId ∧ frozen.continues = none := by
  unfold signRecord at h
  split at h
  · cases h
  · simp only at h
    repeat' split at h
    all_goals try cases h
    exact ⟨rfl, rfl⟩

theorem sign_heeds (registry : Registry) (id : JsString) (textBinding : Option Json)
    (now : Int) (uuid : JsString) :
    Heeds registry (sign P options registry id textBinding now uuid).1 := by
  unfold sign
  split
  · rename_i h
    exact required_heeds h
  · rename_i h
    split
    · exact required_heeds h
    · rename_i hsign
      obtain ⟨hid, hnone⟩ := signRecord_frozen hsign
      exact written_heeds h hid (Or.inr hnone)

theorem markUploading_heeds (registry : Registry) (id : JsString) :
    Heeds registry (markUploading registry id).1 := by
  unfold markUploading
  split
  · rename_i h
    exact required_heeds h
  · rename_i h
    exact written_heeds h rfl (Or.inr rfl)

theorem markUploaded_heeds (registry : Registry) (id : JsString)
    (response : IngestRecordResponse) (now : Int) :
    Heeds registry (markUploaded registry id response now).1 := by
  unfold markUploaded
  split
  · rename_i h
    exact required_heeds h
  · rename_i h
    exact written_heeds h rfl (Or.inr rfl)

theorem markFailedUpload_heeds (registry : Registry) (id reason : JsString) :
    Heeds registry (markFailedUpload registry id reason).1 := by
  unfold markFailedUpload
  split
  · rename_i h
    exact required_heeds h
  · rename_i h
    exact written_heeds h rfl (Or.inr rfl)

theorem markObservationRejected_heeds (registry : Registry) (id : JsString)
    (code : ObservationRejection) :
    Heeds registry (markObservationRejected registry id code).1 := by
  unfold markObservationRejected
  split
  · rename_i h
    exact required_heeds h
  · rename_i h
    exact written_heeds h rfl (Or.inl rfl)

/-- A new continuation starts only where no active session continues the record. -/
theorem continueFrom_heeds (options : RegistryOptions) (registry : Registry) (id : JsString)
    (location : Location) (clock : Nat → Int) (uuid : JsString) :
    Heeds registry (continueFrom options registry id location clock uuid).1 := by
  unfold continueFrom
  split
  · rename_i h
    exact required_heeds h
  · rename_i required previous h
    apply (required_heeds h).trans
    split
    · exact .refl _
    · rename_i response _
      split
      · rename_i existingId existing hfind
        have hget : required.get existingId = some existing :=
          OrderedMap.mem_entries_iff.1 (List.mem_of_find?_eq_some hfind)
        apply Heeds.put_touch
        · exact hget
        · rfl
        · rfl
      · rename_i hfind
        apply Heeds.insertNew
        intro other _ hsame
        rw [continues_newRecord] at hsame
        obtain ⟨record, hget, hcontinues⟩ := Option.bind_eq_some_iff.1 hsame
        obtain ⟨hactive, hparent⟩ := continues_eq_some.1 hcontinues
        have hnone := List.find?_eq_none.1 hfind (other, record) (OrderedMap.mem_entries_iff.2 hget)
        apply hnone
        rw [hactive, hparent]
        simp

theorem discard_heeds (registry : Registry) (id : JsString) :
    Heeds registry (discard registry id).1 := by
  unfold discard
  split
  · exact .refl registry
  · exact .remove registry id _

theorem sweepOne_heeds (options : RegistryOptions) (sweepOptions : SweepOptions) (now : Int)
    (registry : Registry) (record : SessionRecord) :
    Heeds registry (sweepOne options sweepOptions now registry record) := by
  have hswept := sweepOne_cases options sweepOptions now registry record
  generalize sweepOne options sweepOptions now registry record = left at hswept ⊢
  cases hswept with
  | anchored huploaded =>
      have hnone : (anchorOf options registry.nextId record).continues = none := by
        apply continues_of_not_active
        intro hactive
        exact absurd (huploaded.symm.trans hactive) (by decide)
      have hinsert : Heeds registry
          (insertNew registry (anchorOf options registry.nextId record)) := by
        apply Heeds.insertNew
        intro other hsome
        rw [hnone] at hsome
        cases hsome
      exact hinsert.trans (.of_eq rfl (fun _ h => h) rfl)
  | removed => exact .remove registry record.sessionId _

theorem sweep_heeds (options : RegistryOptions) (registry : Registry)
    (sweepOptions : SweepOptions) (now : Int) :
    Heeds registry (sweep options registry sweepOptions now) := by
  unfold sweep
  generalize registry.sessions.values.filter _ = records
  induction records generalizing registry with
  | nil => exact .refl registry
  | cons record records ih => exact (sweepOne_heeds _ _ _ registry record).trans (ih _)

/-- No call lets a second session continue a record. -/
theorem RegistryCall.run_heeds (clock : Nat → Int) (uuid : JsString) (registry : Registry)
    (call : RegistryCall) :
    Heeds registry (call.run P options clock uuid registry).registry := by
  cases call with
  | findOrCreate origin descriptor captureSurface find =>
      exact findOrCreate_heeds options registry origin descriptor captureSurface find clock uuid
  | resume id origin descriptor resumeOptions =>
      exact resume_heeds registry id origin descriptor resumeOptions
  | appendMutation id mutation capturedAtWallMs =>
      exact appendMutation_heeds registry id mutation capturedAtWallMs clock uuid
  | recordUnrecordedChange id => exact recordUnrecordedChange_heeds registry id clock uuid
  | sign id textBinding => exact sign_heeds registry id textBinding (clock 0) uuid
  | markUploading id => exact markUploading_heeds registry id
  | markUploaded id response => exact markUploaded_heeds registry id response (clock 0)
  | markFailedUpload id reason => exact markFailedUpload_heeds registry id reason
  | markObservationRejected id code => exact markObservationRejected_heeds registry id code
  | continueFrom id location => exact continueFrom_heeds options registry id location clock uuid
  | discard id => exact discard_heeds registry id
  | sweep sweepOptions => exact sweep_heeds options registry sweepOptions (clock 0)

end Pmbah.Producer
