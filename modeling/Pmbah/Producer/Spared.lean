import Pmbah.Producer.Commitments

/-!
# Calls that spare a session

A call that neither edits a session nor rejects its observation, and does not expire it,
leaves what checkpoints are about as it was, whatever it does to other sessions.
-/

namespace Pmbah.Producer

open Js Format Library

variable {P : Platform} {options : RegistryOptions} {registry next : Registry}
  {detached : SessionRecord → Prop} {id sessionId : JsString}

/-- The call gives the session no edit, does not reject its observation and lets it stay. -/
def RegistryCall.Spares (id : JsString) (registry : Registry) (clock : Nat → Int) :
    RegistryCall → Prop
  | .appendMutation sessionId _ _ => sessionId ≠ id
  | .recordUnrecordedChange sessionId => sessionId ≠ id
  | .markObservationRejected sessionId _ => sessionId ≠ id
  | .sweep sweepOptions => ∀ record ∈ registry.get id,
      expired (clock 0) sweepOptions.ttlMs sweepOptions.uploadedGraceMs record = false
  | _ => True

instance (id : JsString) (registry : Registry) (clock : Nat → Int) (call : RegistryCall) :
    Decidable (call.Spares id registry clock) := by
  unfold RegistryCall.Spares
  split
  all_goals infer_instance

/-- The session as checkpoints see it. -/
structure SameCover (record later : SessionRecord) : Prop where
  observation : later.observation = record.observation
  eventCount : sessionEventCount later = sessionEventCount record
  anchor : later.continuationAnchor = record.continuationAnchor

theorem SameCover.refl (record : SessionRecord) : SameCover record record := ⟨rfl, rfl, rfl⟩

/-- What has been done spares the session: it is as it was, if it is still there, and no
activation for it has come or gone. -/
structure Aside (registry next : Registry) (id : JsString) : Prop where
  get : ∀ later, next.get id = some later →
    ∃ record, registry.get id = some record ∧ SameCover record later
  loops : ∀ promise loop, loop.sessionId = id →
    (next.loops.get? promise = some loop ↔ registry.loops.get? promise = some loop)
  inFlight : ∀ promise, next.inFlight.get? id = some promise →
    registry.inFlight.get? id = some promise

namespace Aside

theorem of_get (hget : next.get id = registry.get id) (hloops : next.loops = registry.loops)
    (hinFlight : next.inFlight = registry.inFlight) : Aside registry next id where
  get later hlater := ⟨later, hget ▸ hlater, .refl later⟩
  loops promise loop _ := by rw [hloops]
  inFlight promise hmap := by rwa [hinFlight] at hmap

theorem refl (registry : Registry) (id : JsString) : Aside registry registry id :=
  of_get rfl rfl rfl

theorem trans {last : Registry} (h : Aside registry next id) (h' : Aside next last id) :
    Aside registry last id where
  get later hlater := by
    obtain ⟨between, hbetween, hsame⟩ := h'.get later hlater
    obtain ⟨record, hrecord, hbefore⟩ := h.get between hbetween
    exact ⟨record, hrecord, hsame.observation.trans hbefore.observation,
      hsame.eventCount.trans hbefore.eventCount, hsame.anchor.trans hbefore.anchor⟩
  loops promise loop hid := (h'.loops promise loop hid).trans (h.loops promise loop hid)
  inFlight promise hmap := h.inFlight promise (h'.inFlight promise hmap)

theorem put {record written : SessionRecord} (hget : registry.get sessionId = some record)
    (hsame : sessionId = id → SameCover record written) :
    Aside registry (registry.put sessionId written) id where
  get later hlater := by
    rw [get_put] at hlater
    split at hlater
    · rename_i hid
      cases hlater
      exact ⟨record, hid ▸ hget, hsame hid.symm⟩
    · exact ⟨later, hlater, .refl later⟩
  loops _ _ _ := Iff.rfl
  inFlight _ hmap := hmap

theorem touch (registry : Registry) (sessionId id : JsString) :
    Aside registry (registry.touch sessionId) id :=
  of_get rfl rfl rfl

theorem insert {record : SessionRecord} (hne : record.sessionId ≠ id) :
    Aside registry (insertNew registry record) id :=
  of_get (OrderedMap.get?_set_ne _ _ hne.symm) rfl rfl

theorem remove (registry : Registry) (sessionId : JsString) (nextId : Nat) (id : JsString) :
    Aside registry { removeSession registry sessionId with nextId } id where
  get later hlater := by
    have hget : Registry.get { removeSession registry sessionId with nextId } id =
        if id = sessionId then none else registry.get id := get_removeSession registry sessionId id
    rw [hget] at hlater
    split at hlater
    · cases hlater
    · exact ⟨later, hlater, .refl later⟩
  loops _ _ _ := Iff.rfl
  inFlight promise hmap := by
    change (registry.inFlight.delete sessionId).get? id = some promise at hmap
    rw [OrderedMap.get?_delete] at hmap
    split at hmap
    · cases hmap
    · exact hmap

/-- An activation for another session. -/
theorem kick (hnumbered : ∀ promise loop, registry.loops.get? promise = some loop →
      promise < registry.nextId) {record written : SessionRecord} {stage : LoopStage}
    (hkick : KickedBy registry sessionId record written stage next) (hne : sessionId ≠ id) :
    Aside registry next id where
  get later hlater := by
    rw [hkick.get, if_neg hne.symm] at hlater
    exact ⟨later, hlater, .refl later⟩
  loops promise loop hid := by
    rw [hkick.loops, OrderedMap.get?_set]
    split
    · rename_i hpromise
      constructor
      · intro hloop
        cases hloop
        exact absurd hid hne
      · intro hloop
        have := hnumbered promise loop hloop
        omega
    · rfl
  inFlight promise hmap := by
    rwa [hkick.inFlight, OrderedMap.get?_set_ne _ _ hne.symm] at hmap

end Aside

/-! ## Activations of other sessions -/

theorem RoundBy.aside {lost : Prop} {promise : Nat} {loop : CheckpointLoop} {stage : LoopStage}
    (hround : RoundBy lost registry promise loop stage next) (hne : loop.sessionId ≠ id)
    (hloop : registry.loops.get? promise = some loop) : Aside registry next id where
  get later hlater := by
    rw [hround.other id hne.symm] at hlater
    exact ⟨later, hlater, .refl later⟩
  loops p found hid := by
    rw [hround.loops, OrderedMap.get?_set]
    split
    · rename_i hp
      rw [hp, hloop]
      constructor
      · intro heq
        cases heq
        exact absurd hid hne
      · intro heq
        cases heq
        exact absurd hid hne
    · rfl
  inFlight p hmap := by rwa [hround.inFlight] at hmap

theorem FinishedBy.aside {promise : Nat} {loop : CheckpointLoop}
    (hfinished : FinishedBy registry promise loop next) (hne : loop.sessionId ≠ id)
    (hloop : registry.loops.get? promise = some loop) : Aside registry next id where
  get later hlater := by
    rw [hfinished.other id hne.symm] at hlater
    exact ⟨later, hlater, .refl later⟩
  loops p found hid := by
    rw [hfinished.loops, OrderedMap.get?_delete]
    split
    · rename_i hp
      rw [hp, hloop]
      constructor
      · intro hnow
        cases hnow
      · intro heq
        cases heq
        exact absurd hid hne
    · rfl
  inFlight p hmap := by
    rw [hfinished.inFlight] at hmap
    split at hmap
    · cases hmap
    · exact hmap

/-! ## The calls -/

theorem requireInState_aside (registry : Registry) (sessionId : JsString)
    (allowed : List SessionState) (id : JsString) :
    Aside registry (requireInState registry sessionId allowed).1 id := by
  rcases requireInState_cases registry sessionId allowed with hrefused | htouched
  · rw [hrefused]
    exact .refl registry id
  · rw [htouched]
    exact .touch registry sessionId id

theorem refused_aside {allowed : List SessionState} {thrown : JsError}
    (h : requireInState registry sessionId allowed = (next, .error thrown)) :
    Aside registry next id := by
  have hrequired := requireInState_aside registry sessionId allowed id
  rwa [h] at hrequired

theorem written_aside {allowed : List SessionState} {record written : SessionRecord}
    (h : requireInState registry sessionId allowed = (next, .ok record))
    (hsame : sessionId = id → SameCover record written) :
    Aside registry (next.put sessionId written) id := by
  obtain ⟨rfl, hget, -⟩ := requireInState_ok h
  apply (Aside.touch registry sessionId id).trans
  apply Aside.put
  · exact hget
  · exact hsame

theorem findOrCreate_aside (hkeyed : Keyed registry) (origin : FieldOrigin)
    (descriptor : FieldDescriptor) (captureSurface : JsString) (find : FindOptions)
    (clock : Nat → Int) {uuid : JsString} (hne : uuid ≠ id) :
    Aside registry
      (findOrCreate options registry origin descriptor captureSurface find clock uuid).1 id := by
  have hfound := findOrCreate_cases options registry origin descriptor captureSurface find
    clock uuid
  generalize (findOrCreate options registry origin descriptor captureSurface find clock uuid).1 =
    left at hfound ⊢
  cases hfound with
  | refused => exact .refl registry id
  | @created sessionId _ _ _ _ _ _ hid =>
      have hother : sessionId ≠ id := hid hkeyed ▸ hne
      exact .insert hother
  | @found existing _ _ _ _ _ hget =>
      refine Aside.trans (.put hget fun _ => ?_) (.touch _ existing id)
      exact ⟨rfl, rfl, rfl⟩

theorem acceptEvent_aside {record : SessionRecord} (hget : registry.get sessionId = some record)
    (hne : sessionId ≠ id) (event : BufferMutation) (tip : B3Hash) (now : Int) :
    Aside registry (acceptEvent options registry sessionId record event tip now) id := by
  have hother : ∀ written, sessionId = id → SameCover record written :=
    fun _ hid => absurd hid hne
  unfold acceptEvent
  simp only
  split
  · let queued : Registry :=
      { registry with
        pendingEvents :=
          registry.pendingEvents.set sessionId (registry.pending sessionId ++ [event]) }
    have hqueued : Aside registry queued id := .of_get rfl rfl rfl
    apply hqueued.trans
    apply Aside.put
    · exact hget
    · exact hother _
  · exact .put hget (hother _)

theorem maybeTriggerCheckpoint_aside
    (hnumbered : ∀ promise loop, registry.loops.get? promise = some loop →
      promise < registry.nextId) {record : SessionRecord}
    (hget : registry.get sessionId = some record) (hne : sessionId ≠ id) (clock : Nat → Int)
    (uuid : JsString) :
    Aside registry (maybeTriggerCheckpoint options registry sessionId record clock uuid) id := by
  unfold maybeTriggerCheckpoint
  split
  · exact .refl registry id
  split
  · exact .refl registry id
  split
  · exact .put hget fun hid => absurd hid hne
  · obtain ⟨written, stage, hkick⟩ :=
      kickCheckpoint_spec registry sessionId record (clock 2) uuid
    exact .kick hnumbered hkick hne

theorem appendMutation_aside
    (hnumbered : ∀ promise loop, registry.loops.get? promise = some loop →
      promise < registry.nextId) (hne : sessionId ≠ id)
    (mutation : PendingMutation) (capturedAtWallMs : Option Int) (clock : Nat → Int)
    (uuid : JsString) :
    Aside registry
      (appendMutation P options registry sessionId mutation capturedAtWallMs clock uuid).1 id := by
  unfold appendMutation requireMutable
  split
  · exact .refl registry id
  split
  · exact refused_aside ‹_›
  · rename_i hrequired
    obtain ⟨rfl, hget, -⟩ := requireInState_ok hrequired
    simp only
    split
    · exact .touch registry sessionId id
    · have htouched : (registry.touch sessionId).get sessionId = some _ := hget
      apply (Aside.touch registry sessionId id).trans
      apply (acceptEvent_aside htouched hne _ _ _).trans
      apply maybeTriggerCheckpoint_aside
      · intro promise loop hloop
        unfold acceptEvent at hloop ⊢
        simp only at hloop ⊢
        split
        · rw [if_pos ‹_›] at hloop
          exact hnumbered promise loop hloop
        · rw [if_neg ‹_›] at hloop
          exact hnumbered promise loop hloop
      · exact get_acceptEvent options _ sessionId _ _ _ _
      · exact hne

theorem recordUnrecordedChange_aside
    (hnumbered : ∀ promise loop, registry.loops.get? promise = some loop →
      promise < registry.nextId) (hne : sessionId ≠ id) (clock : Nat → Int) (uuid : JsString) :
    Aside registry (recordUnrecordedChange P options registry sessionId clock uuid).1 id := by
  unfold recordUnrecordedChange requireMutable
  split
  · exact refused_aside ‹_›
  · rename_i hrequired
    obtain ⟨rfl, -, -⟩ := requireInState_ok hrequired
    have hstill : ∀ promise loop, (registry.touch sessionId).loops.get? promise = some loop →
        promise < (registry.touch sessionId).nextId := hnumbered
    apply (Aside.touch registry sessionId id).trans
    exact appendMutation_aside hstill hne _ _ clock uuid

theorem signRecord_sameCover {record frozen : SessionRecord} {textBinding : Option Json}
    {now : Int} {drawn : JsString} {manifest : Json}
    (h : signRecord P options record textBinding now drawn = .ok (frozen, manifest)) :
    SameCover record frozen := by
  unfold signRecord at h
  simp only at h
  repeat' split at h
  all_goals first
    | cases h
      exact ⟨rfl, rfl, rfl⟩
    | cases h

theorem sign_aside (registry : Registry) (sessionId : JsString) (textBinding : Option Json)
    (now : Int) (drawn : JsString) (id : JsString) :
    Aside registry (sign P options registry sessionId textBinding now drawn).1 id := by
  unfold sign
  split
  · exact refused_aside ‹_›
  · rename_i hrequired
    split
    · obtain ⟨rfl, -, -⟩ := requireInState_ok hrequired
      exact .touch registry sessionId id
    · rename_i hsigned
      exact written_aside hrequired fun _ => signRecord_sameCover hsigned

theorem continueFrom_aside (registry : Registry) (sessionId : JsString) (location : Location)
    (clock : Nat → Int) {uuid : JsString} (hne : uuid ≠ id) :
    Aside registry (continueFrom options registry sessionId location clock uuid).1 id := by
  unfold continueFrom
  split
  · exact refused_aside ‹_›
  · rename_i hrequired
    obtain ⟨rfl, -, -⟩ := requireInState_ok hrequired
    split
    · exact .touch registry sessionId id
    · apply (Aside.touch registry sessionId id).trans
      split
      · rename_i existingId existing hfind
        have hget : (registry.touch sessionId).get existingId = some existing :=
          OrderedMap.mem_entries_iff.1 (List.mem_of_find?_eq_some hfind)
        refine Aside.trans (.put hget fun _ => ?_) (.touch _ existing.sessionId id)
        exact ⟨rfl, rfl, rfl⟩
      · exact .insert hne

theorem discard_aside (registry : Registry) (sessionId id : JsString) :
    Aside registry (discard registry sessionId).1 id := by
  unfold discard
  split
  · exact .refl registry id
  · exact .remove registry sessionId _ id

theorem sweep_aside (hkeyed : Keyed registry) (sweepOptions : SweepOptions) (now : Int)
    (hstays : ∀ record ∈ registry.get id,
      expired now sweepOptions.ttlMs sweepOptions.uploadedGraceMs record = false) :
    Aside registry (sweep options registry sweepOptions now) id := by
  apply sweep_relates (R := fun registry left => Aside registry left id) hkeyed
  · exact fun registry => .refl registry id
  · exact fun first second third h h' => h.trans h'
  · intro between record left hget hexpired _ hswept
    have hne : record.sessionId ≠ id := by
      intro hid
      rw [hid] at hget
      rw [hstays record hget] at hexpired
      cases hexpired
    cases hswept with
    | anchored => exact .of_get (OrderedMap.get?_set_ne _ _ hne.symm) rfl rfl
    | removed => exact .remove between record.sessionId between.nextId id

theorem RegistryCall.run_aside (P : Platform) (options : RegistryOptions)
    (htracked : Tracked registry detached) (clock : Nat → Int) {uuid : JsString}
    (hne : uuid ≠ id) (call : RegistryCall) (hspares : call.Spares id registry clock) :
    Aside registry (call.run P options clock uuid registry).registry id := by
  cases call with
  | findOrCreate origin descriptor captureSurface find =>
      exact findOrCreate_aside htracked.keyed origin descriptor captureSurface find clock hne
  | resume sessionId origin descriptor resumeOptions =>
      show Aside registry (Producer.resume registry sessionId origin descriptor resumeOptions).1 id
      unfold Producer.resume requireMutable
      split
      · exact refused_aside ‹_›
      · apply written_aside ‹_›
        exact fun _ => ⟨rfl, rfl, rfl⟩
  | appendMutation sessionId mutation capturedAtWallMs =>
      exact appendMutation_aside htracked.numbered hspares mutation capturedAtWallMs clock uuid
  | recordUnrecordedChange sessionId =>
      exact recordUnrecordedChange_aside htracked.numbered hspares clock uuid
  | sign sessionId textBinding => exact sign_aside registry sessionId textBinding _ uuid id
  | markUploading sessionId =>
      show Aside registry (Producer.markUploading registry sessionId).1 id
      unfold Producer.markUploading
      split
      · exact refused_aside ‹_›
      · apply written_aside ‹_›
        exact fun _ => ⟨rfl, rfl, rfl⟩
  | markUploaded sessionId response =>
      show Aside registry (Producer.markUploaded registry sessionId response (clock 0)).1 id
      unfold Producer.markUploaded
      split
      · exact refused_aside ‹_›
      · apply written_aside ‹_›
        exact fun _ => ⟨rfl, rfl, rfl⟩
  | markFailedUpload sessionId reason =>
      show Aside registry (Producer.markFailedUpload registry sessionId reason).1 id
      unfold Producer.markFailedUpload
      split
      · exact refused_aside ‹_›
      · apply written_aside ‹_›
        exact fun _ => ⟨rfl, rfl, rfl⟩
  | markObservationRejected sessionId code =>
      show Aside registry (Producer.markObservationRejected registry sessionId code).1 id
      unfold Producer.markObservationRejected
      split
      · exact refused_aside ‹_›
      · apply written_aside ‹_›
        exact fun hid => absurd hid hspares
  | continueFrom sessionId location =>
      exact continueFrom_aside registry sessionId location clock hne
  | discard sessionId => exact discard_aside registry sessionId id
  | sweep sweepOptions => exact sweep_aside htracked.keyed sweepOptions (clock 0) hspares

end Pmbah.Producer
