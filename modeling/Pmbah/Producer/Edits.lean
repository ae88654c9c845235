import Pmbah.Producer.CallCases

/-!
# What a call can do to the journal

Every synchronous method comes down to a few kinds of change of what the
journal is about: the logs that the sessions describe, the queues, and the work
that waits for the next save.
-/

namespace Pmbah.Producer

open Js Format Library

def RegistryCall.sweeps : RegistryCall → Bool
  | .sweep _ => true
  | _ => false

variable {P : Platform} {options : RegistryOptions} {sweeps : Bool} {registry next : Registry}

/-- Two views of a session over one log. -/
structure SameLog (left right : SessionRecord) : Prop where
  sessionId : right.sessionId = left.sessionId
  eventCount : right.eventCount = left.eventCount
  lastEventT : right.lastEventT = left.lastEventT
  tip : right.lastEventChainTip = left.lastEventChainTip
  anchor : right.continuationAnchor = left.continuationAnchor
  chain : eventChainFormatVersion right.formatVersion = eventChainFormatVersion left.formatVersion

theorem SameLog.refl (record : SessionRecord) : SameLog record record :=
  ⟨rfl, rfl, rfl, rfl, rfl, rfl⟩

theorem SameLog.trans {first second third : SessionRecord} (h : SameLog first second)
    (h' : SameLog second third) : SameLog first third :=
  ⟨h'.1.trans h.1, h'.2.trans h.2, h'.3.trans h.3, h'.4.trans h.4, h'.5.trans h.5,
    h'.6.trans h.6⟩

/-- Nothing has changed for the journal, except that more sessions may wait to be saved. -/
structure SameJournal (registry next : Registry) : Prop where
  get : ∀ id, Option.Rel SameLog (registry.get id) (next.get id)
  pendingEvents : next.pendingEvents = registry.pendingEvents
  deleted : next.deleted = registry.deleted
  clearEvents : next.clearEvents = registry.clearEvents
  dirty : ∀ id ∈ registry.dirty, id ∈ next.dirty

namespace SameJournal

theorem get_refl (record : Option SessionRecord) : Option.Rel SameLog record record := by
  cases record with
  | none => exact .none
  | some record => exact .some (SameLog.refl record)

/-- A change of what the journal does not look at. -/
theorem of_eq (hsessions : next.sessions = registry.sessions)
    (hpending : next.pendingEvents = registry.pendingEvents)
    (hdeleted : next.deleted = registry.deleted)
    (hclear : next.clearEvents = registry.clearEvents)
    (hdirty : next.dirty = registry.dirty) : SameJournal registry next where
  get id := by
    rw [Registry.get, Registry.get, hsessions]
    exact get_refl _
  pendingEvents := hpending
  deleted := hdeleted
  clearEvents := hclear
  dirty id hid := by rwa [hdirty]

theorem rename (registry : Registry) (nextId : Nat) :
    SameJournal registry { registry with nextId } :=
  of_eq rfl rfl rfl rfl rfl

theorem refl (registry : Registry) : SameJournal registry registry :=
  of_eq rfl rfl rfl rfl rfl

theorem trans {third : Registry} (h : SameJournal registry next)
    (h' : SameJournal next third) : SameJournal registry third where
  get id := by
    have hfirst := h.get id
    have hsecond := h'.get id
    revert hfirst hsecond
    generalize registry.get id = first
    generalize next.get id = second
    generalize third.get id = last
    intro hfirst hsecond
    cases hfirst with
    | none =>
        cases hsecond with
        | none => exact .none
    | some hfirst =>
        cases hsecond with
        | some hsecond => exact .some (hfirst.trans hsecond)
  pendingEvents := h'.pendingEvents.trans h.pendingEvents
  deleted := h'.deleted.trans h.deleted
  clearEvents := h'.clearEvents.trans h.clearEvents
  dirty id hid := h'.dirty id (h.dirty id hid)

theorem touch (registry : Registry) (id : JsString) :
    SameJournal registry (registry.touch id) where
  get _ := get_refl _
  pendingEvents := rfl
  deleted := rfl
  clearEvents := rfl
  dirty _ hother := OrderedSet.mem_add.2 (Or.inr hother)

theorem put {id : JsString} {record written : SessionRecord}
    (hget : registry.get id = some record) (h : SameLog record written) :
    SameJournal registry (registry.put id written) where
  get other := by
    by_cases hother : other = id
    · subst hother
      rw [hget, Registry.get, Registry.put, OrderedMap.get?_set_self]
      exact .some h
    · rw [Registry.get, Registry.get, Registry.put, OrderedMap.get?_set_ne _ _ hother]
      exact get_refl _
  pendingEvents := rfl
  deleted := rfl
  clearEvents := rfl
  dirty _ hid := hid

theorem touch_put {id : JsString} {record written : SessionRecord}
    (hget : registry.get id = some record) (h : SameLog record written) :
    SameJournal registry ((registry.touch id).put id written) := by
  apply (touch registry id).trans
  apply put
  · exact hget
  · exact h

theorem put_touch {id : JsString} {record written : SessionRecord} (other : JsString)
    (hget : registry.get id = some record) (h : SameLog record written) :
    SameJournal registry ((registry.put id written).touch other) :=
  (put hget h).trans (touch _ other)

/-- A session that is there before is there after, over the same log. -/
theorem get_some (h : SameJournal registry next) {id : JsString} {record : SessionRecord}
    (hget : registry.get id = some record) :
    ∃ later, next.get id = some later ∧ SameLog record later := by
  have hrel := h.get id
  rw [hget] at hrel
  revert hrel
  generalize next.get id = later
  intro hrel
  cases hrel with
  | some hsame => exact ⟨_, rfl, hsame⟩

theorem get_some' (h : SameJournal registry next) {id : JsString} {later : SessionRecord}
    (hget : next.get id = some later) :
    ∃ record, registry.get id = some record ∧ SameLog record later := by
  have hrel := h.get id
  rw [hget] at hrel
  revert hrel
  generalize registry.get id = record
  intro hrel
  cases hrel with
  | some hsame => exact ⟨_, rfl, hsame⟩

end SameJournal

/-! ## Kinds of change -/

/-- What `sweep` makes of an uploaded session whose link is kept. -/
def anchored (registry : Registry) (id : JsString) (anchor : SessionRecord) (nextId : Nat) :
    Registry :=
  { (registry.put id anchor).touch id with
    clearEvents := registry.clearEvents.add id
    nextId := nextId }

/-- One change, with the event it accepts; only a sweep leaves anchors. -/
inductive Edit (P : Platform) (options : RegistryOptions) (sweeps : Bool) :
    Registry → List (JsString × BufferMutation) → Registry → Prop where
  | same {registry next : Registry} (h : SameJournal registry next) :
      Edit P options sweeps registry [] next
  | accept {registry : Registry} {id : JsString} {record : SessionRecord}
      {mutation : PendingMutation} {now : Int} {event : BufferMutation} {tip : B3Hash}
      (hget : registry.get id = some record)
      (hnext : nextEvent P options (registry.pending id) record mutation now =
        .ok (event, tip)) :
      Edit P options sweeps registry [(id, event)]
        (acceptEvent options registry id record event tip now)
  | remove {registry : Registry} {id : JsString} {record : SessionRecord} {nextId : Nat}
      (hget : registry.get id = some record) :
      Edit P options sweeps registry [] { removeSession registry id with nextId }
  | anchor {registry : Registry} {id : JsString} {record kept : SessionRecord} {nextId : Nat}
      (hget : registry.get id = some record) (hid : kept.sessionId = record.sessionId)
      (hkept : kept.continuationAnchor = true) (hsweeps : sweeps = true) :
      Edit P options sweeps registry [] (anchored registry id kept nextId)

inductive Edits (P : Platform) (options : RegistryOptions) (sweeps : Bool) :
    Registry → List (JsString × BufferMutation) → Registry → Prop where
  | nil (registry : Registry) : Edits P options sweeps registry [] registry
  | cons {registry next last : Registry} {first rest : List (JsString × BufferMutation)}
      (head : Edit P options sweeps registry first next) (tail : Edits P options sweeps next rest last) :
      Edits P options sweeps registry (first ++ rest) last

theorem Edit.edits {accepted : List (JsString × BufferMutation)}
    (h : Edit P options sweeps registry accepted next) : Edits P options sweeps registry accepted next := by
  simpa using Edits.cons h (.nil next)

theorem SameJournal.edits (h : SameJournal registry next) : Edits P options sweeps registry [] next :=
  (Edit.same h).edits

/-- A record with an empty log, as it is created over a journal. -/
structure IsNew (record : SessionRecord) : Prop where
  eventCount : record.eventCount = some 0
  lastEventT : record.lastEventT = some 0
  tip : record.lastEventChainTip = none
  anchor : record.continuationAnchor = false

/-- What a call does: changes of sessions that exist, or a new session under the
identifier it draws. -/
inductive CallEffect (P : Platform) (options : RegistryOptions) (sweeps : Bool)
    (uuid : JsString) :
    Registry → List (JsString × BufferMutation) → Registry → Prop where
  | edits {registry next : Registry} {accepted : List (JsString × BufferMutation)}
      (h : Edits P options sweeps registry accepted next) :
      CallEffect P options sweeps uuid registry accepted next
  | create {registry next : Registry} {record : SessionRecord}
      (h : SameJournal registry next) (hid : record.sessionId = uuid) (hnew : IsNew record) :
      CallEffect P options sweeps uuid registry [] (insertNew next record)

/-! ## The calls -/

theorem requireInState_same (registry : Registry) (id : JsString)
    (allowed : List SessionState) :
    SameJournal registry (requireInState registry id allowed).1 := by
  rcases requireInState_cases registry id allowed with hrefused | htouched
  · rw [hrefused]
    exact .refl registry
  · rw [htouched]
    exact .touch registry id

/-- A method that writes a session over the same log changes nothing for the journal. -/
theorem written_effect {id uuid : JsString} {allowed : List SessionState}
    {record written : SessionRecord}
    (h : requireInState registry id allowed = (next, .ok record))
    (hsame : SameLog record written) :
    CallEffect P options sweeps uuid registry [] (next.put id written) := by
  obtain ⟨rfl, hget, -⟩ := requireInState_ok h
  exact .edits (SameJournal.touch_put hget hsame).edits

theorem required_error {id : JsString} {allowed : List SessionState} {thrown : JsError}
    (h : requireInState registry id allowed = (next, .error thrown)) :
    SameJournal registry next := by
  have := requireInState_same registry id allowed
  rwa [h] at this

/-! ## Checkpoints -/

/-- The part of a session that checkpoints write. -/
theorem sameLog_observation (record : SessionRecord) (observation : SessionObservation) :
    SameLog record { record with observation } :=
  ⟨rfl, rfl, rfl, rfl, rfl, rfl⟩

theorem setStage_same (registry : Registry) (promise : Nat) (loop : CheckpointLoop)
    (stage : LoopStage) : SameJournal registry (setStage registry promise loop stage) :=
  .of_eq rfl rfl rfl rfl rfl

theorem postRound_same (registry : Registry) (promise : Nat) (loop : CheckpointLoop)
    (uuid : JsString) : SameJournal registry (postRound registry promise loop uuid) := by
  unfold postRound
  simp only
  split
  · exact .of_eq rfl rfl rfl rfl rfl
  · rename_i record hget
    split
    · exact (SameJournal.put hget (sameLog_observation record _)).trans
        (.of_eq rfl rfl rfl rfl rfl)
    · exact .of_eq rfl rfl rfl rfl rfl

theorem kickCheckpoint_same {id : JsString} {record kept : SessionRecord} (now : Int)
    (uuid : JsString) (hget : registry.get id = some kept) (hsame : SameLog kept record) :
    SameJournal registry (kickCheckpoint registry id record now uuid) := by
  unfold kickCheckpoint
  simp only
  have hput : SameJournal registry ((registry.touch id).put id
      { record with
        observation :=
          { record.observation with
            inFlight := true, queued := false, lastAttemptAtWallMs := some now } }) :=
    .touch_put hget (hsame.trans (sameLog_observation record _))
  apply hput.trans
  apply SameJournal.trans (.rename _ _)
  exact (postRound_same _ _ _ uuid).trans (.of_eq rfl rfl rfl rfl rfl)

theorem maybeTriggerCheckpoint_same (options : RegistryOptions) {id : JsString}
    {record : SessionRecord} (clock : Nat → Int) (uuid : JsString)
    (hget : registry.get id = some record) :
    SameJournal registry (maybeTriggerCheckpoint options registry id record clock uuid) := by
  unfold maybeTriggerCheckpoint
  split
  · exact .refl registry
  · split
    · exact .refl registry
    · split
      · exact .put hget (sameLog_observation record _)
      · exact kickCheckpoint_same _ uuid hget (.refl record)

theorem applyCheckpointResult_sameLog (options : RegistryOptions) (record : SessionRecord)
    (result : CheckpointResult) :
    SameLog record (applyCheckpointResult options record result) :=
  sameLog_observation record _

theorem checkpointAnswered_same (options : RegistryOptions) (registry : Registry)
    (promise : Nat) (loop : CheckpointLoop) (result : CheckpointResult) (save : Nat) :
    SameJournal registry
      (checkpointAnswered options registry promise loop result save).1 := by
  unfold checkpointAnswered
  split
  · exact setStage_same registry promise loop .ended
  · rename_i record hget
    simp only
    have happlied := applyCheckpointResult_sameLog options record result
    split
    · exact (SameJournal.touch_put hget happlied).trans (setStage_same _ promise loop _)
    · exact (SameJournal.touch_put hget (happlied.trans (sameLog_observation _ _))).trans
        (setStage_same _ promise loop _)

theorem checkpointSaved_same (registry : Registry) (promise : Nat) (loop : CheckpointLoop)
    (again : Option Nat) (saved : Bool) (now : Int) (uuid : JsString) :
    SameJournal registry (checkpointSaved registry promise loop again saved now uuid) := by
  unfold checkpointSaved
  split
  · exact setStage_same registry promise loop .ended
  · split
    · exact setStage_same registry promise loop .ended
    · split
      · exact postRound_same registry promise loop uuid
      · rename_i record hget
        split
        · exact (SameJournal.put hget (sameLog_observation record _)).trans
            (postRound_same _ promise loop uuid)
        · exact postRound_same registry promise loop uuid

theorem loopFinished_same (registry : Registry) (promise : Nat) (loop : CheckpointLoop) :
    SameJournal registry (loopFinished registry promise loop) := by
  unfold loopFinished
  simp only
  split
  · have hreleased : SameJournal registry
        { registry with
          loops := registry.loops.delete promise
          inFlight := registry.inFlight.delete loop.sessionId } :=
      .of_eq rfl rfl rfl rfl rfl
    split
    · exact hreleased
    · rename_i record hget
      split
      · apply hreleased.trans
        apply SameJournal.put_touch
        · exact hget
        · exact sameLog_observation record _
      · exact .of_eq rfl rfl rfl rfl rfl
  · exact .of_eq rfl rfl rfl rfl rfl

theorem flushRound_same (registry : Registry) (flush : ObservationFlush) (now : Int)
    (uuid : JsString) : SameJournal registry (flushRound registry flush now uuid).1 := by
  apply flushRound_relates
  · exact .of_eq rfl rfl rfl rfl rfl
  · exact .refl registry
  · intro record hget
    exact kickCheckpoint_same now uuid hget (sameLog_observation record _)

/-! ## Creating, finding and editing -/

theorem isNew_newRecord (hjournal : options.journal = true) (objectId : Nat)
    (sessionId : JsString) (origin : FieldOrigin) (descriptor : FieldDescriptor)
    (captureSurface : JsString) (certainty : IdentityCertainty) (base last : Int) (gap : Bool)
    (parentRecord : Option JsString) :
    IsNew (newRecord options objectId sessionId origin descriptor captureSurface certainty base
      last gap parentRecord) where
  eventCount := by rw [newRecord, if_pos hjournal]
  lastEventT := by rw [newRecord, if_pos hjournal]
  tip := rfl
  anchor := rfl

theorem findOrCreate_effect (hjournal : options.journal = true) (hkeyed : Keyed registry)
    (origin : FieldOrigin) (descriptor : FieldDescriptor) (captureSurface : JsString)
    (find : FindOptions) (clock : Nat → Int) (uuid : JsString) :
    CallEffect P options sweeps uuid registry []
      (findOrCreate options registry origin descriptor captureSurface find clock uuid).1 := by
  have hfound := findOrCreate_cases options registry origin descriptor captureSurface find
    clock uuid
  generalize (findOrCreate options registry origin descriptor captureSurface find clock uuid).1 =
    left at hfound ⊢
  cases hfound with
  | refused => exact .edits (.nil registry)
  | created hid =>
      exact .create (.refl registry) (hid hkeyed) (isNew_newRecord hjournal _ _ _ _ _ _ _ _ _ _)
  | @found id record _ _ _ _ hget =>
      apply CallEffect.edits
      apply SameJournal.edits
      exact .put_touch id hget ⟨rfl, rfl, rfl, rfl, rfl, rfl⟩

theorem resume_effect (registry : Registry) (id : JsString) (origin : FieldOrigin)
    (descriptor : FieldDescriptor) (resumeOptions : ResumeOptions) (uuid : JsString) :
    CallEffect P options sweeps uuid registry []
      (resume registry id origin descriptor resumeOptions).1 := by
  unfold resume requireMutable
  split
  · rename_i h
    exact .edits (required_error h).edits
  · rename_i h
    apply written_effect h
    exact ⟨rfl, rfl, rfl, rfl, rfl, rfl⟩

theorem get_acceptEvent (options : RegistryOptions) (registry : Registry) (id : JsString)
    (record : SessionRecord) (event : BufferMutation) (tip : B3Hash) (now : Int) :
    (acceptEvent options registry id record event tip now).get id =
      some (recordEvent options record event tip now) := by
  unfold acceptEvent
  simp only
  split
  · exact OrderedMap.get?_set_self _ _ _
  · exact OrderedMap.get?_set_self _ _ _

theorem appendMutation_edits (registry : Registry) (id : JsString) (mutation : PendingMutation)
    (capturedAtWallMs : Option Int) (clock : Nat → Int) (uuid : JsString) :
    Edits P options sweeps registry
      (acceptedBy id (appendMutation P options registry id mutation capturedAtWallMs clock
        uuid)).accepted.toList
      (appendMutation P options registry id mutation capturedAtWallMs clock uuid).1 := by
  unfold appendMutation requireMutable
  split
  · exact .nil registry
  · split
    · rename_i h
      exact (required_error h).edits
    · rename_i record h
      obtain ⟨rfl, hget, -⟩ := requireInState_ok h
      simp only
      split
      · exact (SameJournal.touch registry id).edits
      · rename_i event tip hnext
        have haccept : Edit P options sweeps (registry.touch id) [(id, event)] _ :=
          .accept hget hnext
        have htrigger := maybeTriggerCheckpoint_same options clock uuid
          (get_acceptEvent options (registry.touch id) id record event tip
            (capturedAtWallMs.getD (clock 0)))
        have hedits := Edits.cons (.same (.touch registry id))
          (.cons haccept htrigger.edits)
        simpa [acceptedBy, Except.toOption] using hedits

theorem recordUnrecordedChange_edits (registry : Registry) (id : JsString)
    (clock : Nat → Int) (uuid : JsString) :
    Edits P options sweeps registry
      (acceptedBy id (recordUnrecordedChange P options registry id clock uuid)).accepted.toList
      (recordUnrecordedChange P options registry id clock uuid).1 := by
  unfold recordUnrecordedChange requireMutable
  split
  · rename_i h
    exact (required_error h).edits
  · rename_i h
    obtain ⟨rfl, -, -⟩ := requireInState_ok h
    exact Edits.cons (.same (.touch registry id))
      (appendMutation_edits (registry.touch id) id unrecordedChange none clock uuid)

/-! ## Signing and its outcome -/

theorem signRecord_sameLog {record frozen : SessionRecord} {textBinding : Option Json}
    {now : Int} {uuid : JsString} {manifest : Json}
    (h : signRecord P options record textBinding now uuid = .ok (frozen, manifest)) :
    SameLog record frozen := by
  unfold signRecord at h
  split at h
  · cases h
  · simp only at h
    repeat' split at h
    all_goals try cases h
    refine ⟨rfl, rfl, rfl, rfl, rfl, ?_⟩
    simp only [freeze, signedVersion]
    split
    · rename_i hversion
      have hold : record.formatVersion = .v0_2 := by
        simp only [Bool.and_eq_true, beq_iff_eq] at hversion
        exact hversion.2
      rw [hold]
      rfl
    · rfl

theorem sign_effect (registry : Registry) (id : JsString) (textBinding : Option Json)
    (now : Int) (uuid : JsString) :
    CallEffect P options sweeps uuid registry []
      (sign P options registry id textBinding now uuid).1 := by
  unfold sign
  split
  · rename_i h
    exact .edits (required_error h).edits
  · rename_i registry' record h
    split
    · have := requireInState_same registry id [.active, .failedUpload]
      rw [h] at this
      exact .edits this.edits
    · rename_i frozen manifest hsign
      exact written_effect h (signRecord_sameLog hsign)

theorem markUploading_effect (registry : Registry) (id uuid : JsString) :
    CallEffect P options sweeps uuid registry [] (markUploading registry id).1 := by
  unfold markUploading
  split
  · rename_i h
    exact .edits (required_error h).edits
  · rename_i h
    apply written_effect h
    exact ⟨rfl, rfl, rfl, rfl, rfl, rfl⟩

theorem markUploaded_effect (registry : Registry) (id : JsString)
    (response : IngestRecordResponse) (now : Int) (uuid : JsString) :
    CallEffect P options sweeps uuid registry [] (markUploaded registry id response now).1 := by
  unfold markUploaded
  split
  · rename_i h
    exact .edits (required_error h).edits
  · rename_i h
    apply written_effect h
    exact ⟨rfl, rfl, rfl, rfl, rfl, rfl⟩

theorem markFailedUpload_effect (registry : Registry) (id reason uuid : JsString) :
    CallEffect P options sweeps uuid registry [] (markFailedUpload registry id reason).1 := by
  unfold markFailedUpload
  split
  · rename_i h
    exact .edits (required_error h).edits
  · rename_i h
    apply written_effect h
    exact ⟨rfl, rfl, rfl, rfl, rfl, rfl⟩

theorem markObservationRejected_effect (registry : Registry) (id : JsString)
    (code : ObservationRejection) (uuid : JsString) :
    CallEffect P options sweeps uuid registry [] (markObservationRejected registry id code).1 := by
  unfold markObservationRejected
  split
  · rename_i h
    exact .edits (required_error h).edits
  · rename_i h
    apply written_effect h
    exact sameLog_observation _ _

theorem continueFrom_effect (hjournal : options.journal = true) (registry : Registry)
    (id : JsString) (location : Location) (clock : Nat → Int) (uuid : JsString) :
    CallEffect P options sweeps uuid registry []
      (continueFrom options registry id location clock uuid).1 := by
  unfold continueFrom
  split
  · rename_i h
    exact .edits (required_error h).edits
  · rename_i registry' record h
    have hrequired : SameJournal registry registry' := by
      have := requireInState_same registry id [.uploaded]
      rwa [h] at this
    split
    · exact .edits hrequired.edits
    · split
      · rename_i existingId existing hfind
        have hget : registry'.get existingId = some existing :=
          OrderedMap.mem_entries_iff.1 (List.mem_of_find?_eq_some hfind)
        apply CallEffect.edits
        apply SameJournal.edits
        apply hrequired.trans
        apply SameJournal.put_touch _ hget
        exact ⟨rfl, rfl, rfl, rfl, rfl, rfl⟩
      · exact .create hrequired rfl (isNew_newRecord hjournal _ _ _ _ _ _ _ _ _ _)

/-! ## Removing -/

theorem discard_effect (registry : Registry) (id uuid : JsString) :
    CallEffect P options sweeps uuid registry [] (discard registry id).1 := by
  unfold discard
  split
  · exact .edits (.nil registry)
  · rename_i record hget
    exact .edits (Edit.remove hget).edits

theorem Edits.trans {last : Registry} {first rest : List (JsString × BufferMutation)}
    (h : Edits P options sweeps registry first next) (h' : Edits P options sweeps next rest last) :
    Edits P options sweeps registry (first ++ rest) last := by
  induction h with
  | nil => exact h'
  | cons head _ ih =>
      rw [List.append_assoc]
      exact .cons head (ih h')

theorem sweep_effect (hkeyed : Keyed registry) (sweepOptions : SweepOptions) (now : Int)
    (uuid : JsString) :
    CallEffect P options true uuid registry [] (sweep options registry sweepOptions now) := by
  apply CallEffect.edits
  apply sweep_relates (R := fun registry left => Edits P options true registry [] left) hkeyed
  · exact .nil
  · exact fun first second third h h' => h.trans h'
  · intro between record left _ _ hget hswept
    apply Edit.edits
    cases hswept with
    | anchored => exact .anchor hget rfl rfl rfl
    | removed => exact .remove hget

/-- Every call is one of the effects. -/
theorem RegistryCall.run_effect (hjournal : options.journal = true) (hkeyed : Keyed registry)
    (clock : Nat → Int) (uuid : JsString) (call : RegistryCall) :
    CallEffect P options call.sweeps uuid registry
      (call.run P options clock uuid registry).accepted.toList
      (call.run P options clock uuid registry).registry := by
  cases call with
  | findOrCreate origin descriptor captureSurface find =>
      exact findOrCreate_effect hjournal hkeyed origin descriptor captureSurface find clock uuid
  | resume id origin descriptor resumeOptions =>
      exact resume_effect registry id origin descriptor resumeOptions uuid
  | appendMutation id mutation capturedAtWallMs =>
      exact .edits (appendMutation_edits registry id mutation capturedAtWallMs clock uuid)
  | recordUnrecordedChange id =>
      exact .edits (recordUnrecordedChange_edits registry id clock uuid)
  | sign id textBinding => exact sign_effect registry id textBinding (clock 0) uuid
  | markUploading id => exact markUploading_effect registry id uuid
  | markUploaded id response => exact markUploaded_effect registry id response (clock 0) uuid
  | markFailedUpload id reason => exact markFailedUpload_effect registry id reason uuid
  | markObservationRejected id code =>
      exact markObservationRejected_effect registry id code uuid
  | continueFrom id location =>
      exact continueFrom_effect hjournal registry id location clock uuid
  | discard id => exact discard_effect registry id uuid
  | sweep sweepOptions => exact sweep_effect hkeyed sweepOptions (clock 0) uuid

end Pmbah.Producer
