import Pmbah.Producer.Edits

/-!
# What a call can do to sessions and checkpoint loops

Every synchronous method comes down to a few kinds of change of the record
objects, of their observation and of the loops that `#kickCheckpoint` starts,
with a journal or without one.
-/

namespace Pmbah.Producer

open Js Format Library

/-- The sessions that a call may drop. -/
def RegistryCall.drops : RegistryCall → JsString → Prop
  | .discard sessionId, id => id = sessionId
  | .sweep _, _ => True
  | _, _ => False

variable {P : Platform} {options : RegistryOptions} {drops : JsString → Prop} {uuid : JsString}
  {registry next : Registry} {record : SessionRecord}

/-- What an event that is built from a record has become. -/
theorem nextEvent_ok {queue : List BufferMutation} {mutation : PendingMutation} {now : Int}
    {event : BufferMutation} {tip : B3Hash}
    (h : nextEvent P options queue record mutation now = .ok (event, tip)) :
    event.Valid ∧ event.seq = sessionEventCount record ∧
      sessionLastEventTime record ≤ event.t ∧
      advanceChain P record.lastEventChainTip event record.sessionId record.formatVersion =
        .ok tip := by
  simp only [nextEvent] at h
  split at h
  · cases h
  split at h
  · cases h
  rename_i built hbuilt
  obtain ⟨hvalid, hseq, ht, -⟩ := buildNextMutation_ok hbuilt
  cases hadvance : advanceChain P record.lastEventChainTip built record.sessionId
      record.formatVersion with
  | error thrown =>
      rw [hadvance] at h
      cases h
  | ok next =>
      rw [hadvance] at h
      obtain ⟨rfl, rfl⟩ := Prod.mk.inj (Except.ok.inj h)
      have hprevious := previous_le_eventTimeAt (sessionLastEventTime record) now record.baseWallMs
      rw [← ht] at hprevious
      exact ⟨hvalid, hseq, Int.ofNat_le.1 hprevious, hadvance⟩

/-! ## Kinds of change -/

/-- How a method rewrites the observation of a record. -/
inductive Reobserved (record : SessionRecord) : SessionObservation → Prop where
  | kept : Reobserved record record.observation
  | recomputed (state : ObservationLocalState) (hactive : record.state = .active)
      (hpinned : record.observation.state = .diverged → state = .diverged) :
      Reobserved record { record.observation with state }
  | queued (hactive : record.state = .active) (hflight : record.observation.inFlight = true) :
      Reobserved record { record.observation with queued := true }
  | rejected (code : ObservationRejection) (hfrozen : record.state ≠ .active) :
      Reobserved record (rejectObservation record.observation code)

/-- A session later on: its history has at most grown, and no more of it is committed. -/
structure Grown (record later : SessionRecord) : Prop where
  eventCount : sessionEventCount record ≤ sessionEventCount later
  tip : record.lastEventChainTip.isSome = true → later.lastEventChainTip.isSome = true
  anchor : later.continuationAnchor = record.continuationAnchor
  committed : later.observation.lastCommittedEventCount ≤
    record.observation.lastCommittedEventCount

theorem Grown.trans {first second third : SessionRecord} (h : Grown first second)
    (h' : Grown second third) : Grown first third where
  eventCount := h.eventCount.trans h'.eventCount
  tip htip := h'.tip (h.tip htip)
  anchor := h'.anchor.trans h.anchor
  committed := h'.committed.trans h.committed

/-- A change of what a checkpoint does not look at. -/
theorem Grown.of_eq {record later : SessionRecord}
    (heventCount : sessionEventCount later = sessionEventCount record)
    (htip : later.lastEventChainTip = record.lastEventChainTip)
    (hanchor : later.continuationAnchor = record.continuationAnchor)
    (hcommitted : later.observation.lastCommittedEventCount ≤
      record.observation.lastCommittedEventCount) : Grown record later where
  eventCount := heventCount.ge
  tip h := by rwa [htip]
  anchor := hanchor
  committed := hcommitted

/-- The same record object after a method has written to it. -/
structure Rewritten (record written : SessionRecord) : Prop where
  objectId : written.objectId = record.objectId
  sessionId : written.sessionId = record.sessionId
  frozen : record.state ≠ .active → written.state ≠ .active
  observation : Reobserved record written.observation
  grown : Grown record written

/-- One change of a registry; a record that is new is a new object. -/
inductive Touch (options : RegistryOptions) (drops : JsString → Prop) (uuid : JsString) :
    Registry → Registry → Prop where
  | quiet {registry next : Registry} (hsessions : next.sessions = registry.sessions)
      (hinFlight : next.inFlight = registry.inFlight) (hloops : next.loops = registry.loops)
      (hnextId : registry.nextId ≤ next.nextId) : Touch options drops uuid registry next
  | write {registry : Registry} {id : JsString} {record written : SessionRecord}
      (hget : registry.get id = some record) (h : Rewritten record written) :
      Touch options drops uuid registry (registry.put id written)
  | kick {registry : Registry} {id drawn : JsString} {record : SessionRecord} {now : Int}
      (hget : registry.get id = some record) (hactive : record.state = .active)
      (hwired : options.checkpoint = true) (hopen : record.observation.state ≠ .diverged)
      (hidle : record.observation.inFlight = false) (hne : id ≠ uuid) :
      Touch options drops uuid registry (kickCheckpoint registry id record now drawn)
  | insert {registry : Registry} {record : SessionRecord} (hid : record.sessionId = uuid)
      (hobject : record.objectId = registry.nextId)
      (hempty : record.observation = emptyObservation options.checkpoint) :
      Touch options drops uuid registry (insertNew registry record)
  | remove {registry : Registry} {id : JsString} {nextId : Nat} (hdrops : drops id)
      (hnextId : registry.nextId ≤ nextId) :
      Touch options drops uuid registry { removeSession registry id with nextId }
  | anchor {registry : Registry} {id : JsString} {record kept : SessionRecord} {nextId : Nat}
      (hget : registry.get id = some record) (hid : kept.sessionId = record.sessionId)
      (hfrozen : kept.state ≠ .active) (hkept : kept.continuationAnchor = true)
      (hempty : kept.observation = emptyObservation options.checkpoint)
      (hnextId : registry.nextId ≤ nextId) :
      Touch options drops uuid registry (anchored registry id kept nextId)

inductive Touches (options : RegistryOptions) (drops : JsString → Prop) (uuid : JsString) :
    Registry → Registry → Prop where
  | nil (registry : Registry) : Touches options drops uuid registry registry
  | cons {registry next last : Registry} (head : Touch options drops uuid registry next)
      (tail : Touches options drops uuid next last) : Touches options drops uuid registry last

theorem Touch.touches (h : Touch options drops uuid registry next) :
    Touches options drops uuid registry next :=
  .cons h (.nil next)

theorem Touches.trans {last : Registry} (h : Touches options drops uuid registry next)
    (h' : Touches options drops uuid next last) : Touches options drops uuid registry last := by
  induction h with
  | nil => exact h'
  | cons head _ ih => exact .cons head (ih h')

theorem Touches.write {id : JsString} {record written : SessionRecord}
    (hget : registry.get id = some record) (h : Rewritten record written) :
    Touches options drops uuid registry (registry.put id written) :=
  (Touch.write hget h).touches

theorem Touch.touch (registry : Registry) (id : JsString) :
    Touch options drops uuid registry (registry.touch id) :=
  .quiet rfl rfl rfl (Nat.le_refl _)

theorem Rewritten.of_kept {record written : SessionRecord}
    (hobject : written.objectId = record.objectId) (hid : written.sessionId = record.sessionId)
    (hfrozen : record.state ≠ .active → written.state ≠ .active)
    (heventCount : sessionEventCount written = sessionEventCount record)
    (htip : written.lastEventChainTip = record.lastEventChainTip)
    (hanchor : written.continuationAnchor = record.continuationAnchor)
    (hobservation : written.observation = record.observation) : Rewritten record written where
  objectId := hobject
  sessionId := hid
  frozen := hfrozen
  observation := by
    rw [hobservation]
    exact .kept
  grown := by
    apply Grown.of_eq heventCount htip hanchor
    rw [hobservation]

/-! ## The calls -/

theorem requireInState_touches (registry : Registry) (id : JsString)
    (allowed : List SessionState) :
    Touches options drops uuid registry (requireInState registry id allowed).1 := by
  rcases requireInState_cases registry id allowed with hrefused | htouched
  · rw [hrefused]
    exact .nil registry
  · rw [htouched]
    exact (Touch.touch registry id).touches

theorem refused_touches {id : JsString} {allowed : List SessionState} {thrown : JsError}
    (h : requireInState registry id allowed = (next, .error thrown)) :
    Touches options drops uuid registry next := by
  have hrequired : Touches options drops uuid registry (requireInState registry id allowed).1 :=
    requireInState_touches registry id allowed
  rwa [h] at hrequired

/-- A method that is let through and writes to the record. -/
theorem written_touches {id : JsString} {allowed : List SessionState}
    {record written : SessionRecord}
    (h : requireInState registry id allowed = (next, .ok record))
    (hwritten : record.state ∈ allowed → Rewritten record written) :
    Touches options drops uuid registry (next.put id written) := by
  obtain ⟨rfl, hget, hallowed⟩ := requireInState_ok h
  apply Touches.cons (Touch.touch registry id)
  apply Touches.write
  · exact hget
  · exact hwritten hallowed

theorem findOrCreate_touches (hkeyed : Keyed registry) (origin : FieldOrigin)
    (descriptor : FieldDescriptor) (captureSurface : JsString) (find : FindOptions)
    (clock : Nat → Int) :
    Touches options drops uuid registry
      (findOrCreate options registry origin descriptor captureSurface find clock uuid).1 := by
  have hfound := findOrCreate_cases options registry origin descriptor captureSurface find
    clock uuid
  generalize (findOrCreate options registry origin descriptor captureSurface find clock uuid).1 =
    left at hfound ⊢
  cases hfound with
  | refused => exact .nil registry
  | created hid =>
      apply Touch.touches
      apply Touch.insert
      · exact hid hkeyed
      · rfl
      · rfl
  | @found id _ _ _ _ _ hget =>
      refine Touches.trans (.write hget ?_) (Touch.touch _ id).touches
      exact .of_kept rfl rfl (fun h => h) rfl rfl rfl rfl

theorem resume_touches (registry : Registry) (id : JsString) (origin : FieldOrigin)
    (descriptor : FieldDescriptor) (resumeOptions : ResumeOptions) :
    Touches options drops uuid registry
      (resume registry id origin descriptor resumeOptions).1 := by
  unfold resume requireMutable
  split
  · exact refused_touches ‹_›
  · apply written_touches ‹_›
    intro _
    exact .of_kept rfl rfl (fun h => h) rfl rfl rfl rfl

/-! ### Edits -/

theorem recordEvent_grown (options : RegistryOptions) {record : SessionRecord}
    {event : BufferMutation} (hseq : event.seq = sessionEventCount record) (tip : B3Hash)
    (now : Int) : Grown record (recordEvent options record event tip now) := by
  have hcount : sessionEventCount record ≤ sessionEventCount (recordEvent options record event
      tip now) := by
    unfold recordEvent recomputeObservationState sessionEventCount at *
    cases hjournal : options.journal with
    | true =>
        simp only [if_true]
        split
        · exact hseq.ge.trans (Nat.le_succ _)
        · exact hseq.ge.trans (Nat.le_succ _)
    | false =>
        simp only [Bool.false_eq_true, if_false]
        cases hcounted : record.eventCount with
        | none =>
            split
            · simp
            · simp
        | some count =>
            split
            · rfl
            · rfl
  refine ⟨hcount, fun _ => ?_, ?_, ?_⟩
  · unfold recordEvent recomputeObservationState
    simp only
    split
    · rfl
    · rfl
  · unfold recordEvent recomputeObservationState
    simp only
    split
    · rfl
    · rfl
  · unfold recordEvent recomputeObservationState
    simp only
    split
    · exact Nat.le_refl _
    · exact Nat.le_refl _

theorem recordEvent_rewritten (options : RegistryOptions) {record : SessionRecord}
    (hactive : record.state = .active) {event : BufferMutation}
    (hseq : event.seq = sessionEventCount record) (tip : B3Hash) (now : Int) :
    Rewritten record (recordEvent options record event tip now) := by
  have hgrown := recordEvent_grown options hseq tip now
  unfold recordEvent recomputeObservationState at hgrown ⊢
  simp only at hgrown ⊢
  split
  · rename_i hkept
    rw [if_pos hkept] at hgrown
    exact ⟨rfl, rfl, fun h => h, .kept, hgrown⟩
  · rename_i hopen
    rw [if_neg hopen] at hgrown
    refine ⟨rfl, rfl, fun h => h, .recomputed _ hactive ?_, hgrown⟩
    intro hdiverged
    simp [hdiverged] at hopen

theorem recordEvent_state (options : RegistryOptions) (record : SessionRecord)
    (event : BufferMutation) (tip : B3Hash) (now : Int) :
    (recordEvent options record event tip now).state = record.state := by
  unfold recordEvent recomputeObservationState
  simp only
  split
  · rfl
  · rfl

theorem acceptEvent_touches (options : RegistryOptions) {id : JsString}
    {record : SessionRecord} (hget : registry.get id = some record)
    (hactive : record.state = .active) {event : BufferMutation}
    (hseq : event.seq = sessionEventCount record) (tip : B3Hash) (now : Int) :
    Touches options drops uuid registry
      (acceptEvent options registry id record event tip now) := by
  have hrewritten := recordEvent_rewritten options hactive hseq tip now
  unfold acceptEvent
  simp only
  split
  · let queued : Registry :=
      { registry with
        pendingEvents := registry.pendingEvents.set id (registry.pending id ++ [event]) }
    have hqueued : Touch options drops uuid registry queued :=
      .quiet rfl rfl rfl (Nat.le_refl _)
    apply Touches.cons hqueued
    apply Touches.write
    · exact hget
    · exact hrewritten
  · exact .write hget hrewritten

theorem maybeTriggerCheckpoint_touches {id : JsString} {record : SessionRecord}
    (hget : registry.get id = some record) (hactive : record.state = .active) (hne : id ≠ uuid)
    (clock : Nat → Int) (drawn : JsString) :
    Touches options drops uuid registry
      (maybeTriggerCheckpoint options registry id record clock drawn) := by
  unfold maybeTriggerCheckpoint
  split
  · exact .nil registry
  · rename_i hopen
    simp only [Bool.or_eq_true, Bool.not_eq_true', beq_iff_eq, not_or,
      Bool.not_eq_false] at hopen
    split
    · exact .nil registry
    · split
      · rename_i hflight
        apply Touches.write hget
        exact ⟨rfl, rfl, fun h => h, .queued hactive hflight, .of_eq rfl rfl rfl (Nat.le_refl _)⟩
      · rename_i hidle
        exact (Touch.kick hget hactive hopen.1 hopen.2
          (Bool.eq_false_of_not_eq_true hidle) hne).touches

theorem appendMutation_touches (hfree : registry.get uuid = none) (id : JsString)
    (mutation : PendingMutation) (capturedAtWallMs : Option Int) (clock : Nat → Int)
    (drawn : JsString) :
    Touches options drops uuid registry
      (appendMutation P options registry id mutation capturedAtWallMs clock drawn).1 := by
  unfold appendMutation requireMutable
  split
  · exact .nil registry
  · split
    · exact refused_touches ‹_›
    · rename_i hrequired
      obtain ⟨rfl, hget, hallowed⟩ := requireInState_ok hrequired
      rw [List.mem_singleton] at hallowed
      simp only
      split
      · exact (Touch.touch registry id).touches
      · rename_i hnext
        apply Touches.cons (Touch.touch registry id)
        have htouched : (registry.touch id).get id = some _ := hget
        apply (acceptEvent_touches options htouched hallowed (nextEvent_ok hnext).2.1 _ _).trans
        apply maybeTriggerCheckpoint_touches
        · exact get_acceptEvent options _ id _ _ _ _
        · rw [recordEvent_state, hallowed]
        · rintro rfl
          rw [hfree] at hget
          cases hget

theorem recordUnrecordedChange_touches (hfree : registry.get uuid = none) (id : JsString)
    (clock : Nat → Int) (drawn : JsString) :
    Touches options drops uuid registry
      (recordUnrecordedChange P options registry id clock drawn).1 := by
  unfold recordUnrecordedChange requireMutable
  split
  · exact refused_touches ‹_›
  · rename_i hrequired
    obtain ⟨rfl, -, -⟩ := requireInState_ok hrequired
    apply Touches.cons (Touch.touch registry id)
    have hstill : (registry.touch id).get uuid = none := hfree
    exact appendMutation_touches hstill id _ _ clock drawn

/-! ### Signing and its outcome -/

theorem freeze_rewritten (options : RegistryOptions) (record : SessionRecord)
    (version : FormatVersion) (textBinding : Option Json) (duration : Int) (drawn : JsString) :
    Rewritten record (freeze options record version textBinding duration drawn) :=
  .of_kept rfl rfl (fun _ h => by cases h) rfl rfl rfl rfl

theorem signRecord_rewritten {record frozen : SessionRecord} {textBinding : Option Json}
    {now : Int} {drawn : JsString} {manifest : Json}
    (h : signRecord P options record textBinding now drawn = .ok (frozen, manifest)) :
    Rewritten record frozen := by
  unfold signRecord at h
  simp only at h
  repeat' split at h
  all_goals first
    | cases h
      exact freeze_rewritten options record _ _ _ drawn
    | cases h

theorem sign_touches (registry : Registry) (id : JsString) (textBinding : Option Json)
    (now : Int) (drawn : JsString) :
    Touches options drops uuid registry
      (sign P options registry id textBinding now drawn).1 := by
  unfold sign
  split
  · exact refused_touches ‹_›
  · rename_i hrequired
    obtain ⟨rfl, hget, -⟩ := requireInState_ok hrequired
    split
    · exact (Touch.touch registry id).touches
    · rename_i hsigned
      apply Touches.cons (Touch.touch registry id)
      apply Touches.write
      · exact hget
      · exact signRecord_rewritten hsigned

theorem markUploading_touches (registry : Registry) (id : JsString) :
    Touches options drops uuid registry (markUploading registry id).1 := by
  unfold markUploading
  split
  · exact refused_touches ‹_›
  · apply written_touches ‹_›
    intro _
    exact .of_kept rfl rfl (fun _ h => by cases h) rfl rfl rfl rfl

theorem markUploaded_touches (registry : Registry) (id : JsString)
    (response : IngestRecordResponse) (now : Int) :
    Touches options drops uuid registry (markUploaded registry id response now).1 := by
  unfold markUploaded
  split
  · exact refused_touches ‹_›
  · apply written_touches ‹_›
    intro _
    exact .of_kept rfl rfl (fun _ h => by cases h) rfl rfl rfl rfl

theorem markFailedUpload_touches (registry : Registry) (id reason : JsString) :
    Touches options drops uuid registry (markFailedUpload registry id reason).1 := by
  unfold markFailedUpload
  split
  · exact refused_touches ‹_›
  · apply written_touches ‹_›
    intro _
    exact .of_kept rfl rfl (fun _ h => by cases h) rfl rfl rfl rfl

theorem markObservationRejected_touches (registry : Registry) (id : JsString)
    (code : ObservationRejection) :
    Touches options drops uuid registry (markObservationRejected registry id code).1 := by
  unfold markObservationRejected
  split
  · exact refused_touches ‹_›
  · apply written_touches ‹_›
    intro hallowed
    refine ⟨rfl, rfl, fun h => h, .rejected code ?_, .of_eq rfl rfl rfl ?_⟩
    · intro hactive
      simp [hactive] at hallowed
    · cases code with
      | mismatch => exact Nat.le_refl _
      | unavailable => exact Nat.zero_le _

theorem continueFrom_touches (registry : Registry) (id : JsString) (location : Location)
    (clock : Nat → Int) :
    Touches options drops uuid registry
      (continueFrom options registry id location clock uuid).1 := by
  unfold continueFrom
  split
  · exact refused_touches ‹_›
  · rename_i registry' record hrequired
    obtain ⟨rfl, -, -⟩ := requireInState_ok hrequired
    split
    · exact (Touch.touch registry id).touches
    · apply Touches.cons (Touch.touch registry id)
      split
      · rename_i existingId existing hfind
        have hget : (registry.touch id).get existingId = some existing :=
          OrderedMap.mem_entries_iff.1 (List.mem_of_find?_eq_some hfind)
        refine Touches.trans (.write hget ?_) (Touch.touch _ _).touches
        exact .of_kept rfl rfl (fun h => h) rfl rfl rfl rfl
      · apply Touch.touches
        apply Touch.insert
        · rfl
        · rfl
        · rfl

/-! ### Removing -/

theorem discard_touches (registry : Registry) (id : JsString) (hdrops : drops id) :
    Touches options drops uuid registry (discard registry id).1 := by
  unfold discard
  split
  · exact .nil registry
  · exact (Touch.remove hdrops (Nat.le_succ _)).touches

theorem sweep_touches (hkeyed : Keyed registry) (sweepOptions : SweepOptions) (now : Int)
    (hdrops : ∀ id, drops id) :
    Touches options drops uuid registry (sweep options registry sweepOptions now) := by
  apply sweep_relates (R := Touches options drops uuid) hkeyed
  · exact .nil
  · exact fun first second third h h' => h.trans h'
  · intro between record left _ _ hget hswept
    apply Touch.touches
    cases hswept with
    | anchored huploaded =>
        refine .anchor hget rfl (fun hactive => ?_) rfl rfl (Nat.le_succ _)
        rw [show (anchorOf options between.nextId record).state = record.state from rfl,
          huploaded] at hactive
        cases hactive
    | removed => exact .remove (hdrops _) (Nat.le_refl _)

/-- Every call is a sequence of these changes. -/
theorem RegistryCall.run_touches (P : Platform) (options : RegistryOptions)
    (hkeyed : Keyed registry) (hfree : registry.get uuid = none) (clock : Nat → Int)
    (call : RegistryCall) :
    Touches options call.drops uuid registry (call.run P options clock uuid registry).registry := by
  cases call with
  | findOrCreate origin descriptor captureSurface find =>
      exact findOrCreate_touches hkeyed origin descriptor captureSurface find clock
  | resume id origin descriptor resumeOptions =>
      exact resume_touches registry id origin descriptor resumeOptions
  | appendMutation id mutation capturedAtWallMs =>
      exact appendMutation_touches hfree id mutation capturedAtWallMs clock uuid
  | recordUnrecordedChange id => exact recordUnrecordedChange_touches hfree id clock uuid
  | sign id textBinding => exact sign_touches registry id textBinding (clock 0) uuid
  | markUploading id => exact markUploading_touches registry id
  | markUploaded id response => exact markUploaded_touches registry id response (clock 0)
  | markFailedUpload id reason => exact markFailedUpload_touches registry id reason
  | markObservationRejected id code => exact markObservationRejected_touches registry id code
  | continueFrom id location => exact continueFrom_touches registry id location clock
  | discard id => exact discard_touches registry id rfl
  | sweep sweepOptions => exact sweep_touches hkeyed sweepOptions (clock 0) fun _ => trivial

end Pmbah.Producer
