import Pmbah.Producer.Divergence
import Pmbah.Producer.SignedRecords

/-!
# What is signed stays signed

Once a session has been signed nothing reopens it: whatever the registry does next,
signing it again gives the same draft, until the session is uploaded or removed.
-/

namespace Pmbah.Producer

open Js Format Library

variable {P : Platform} {options : RegistryOptions} {registry next : Registry}
  {id uuid : JsString} {record written later : SessionRecord}

/-! ## Records -/

/-- Everything that a retry signs. -/
structure SameSigned (record later : SessionRecord) : Prop where
  sessionId : later.sessionId = record.sessionId
  formatVersion : later.formatVersion = record.formatVersion
  baseWallMs : later.baseWallMs = record.baseWallMs
  producer : later.producer = record.producer
  events : later.events = record.events
  eventCount : later.eventCount = record.eventCount
  lastEventT : later.lastEventT = record.lastEventT
  tip : later.lastEventChainTip = record.lastEventChainTip
  uploadId : later.uploadId = record.uploadId
  textBinding : later.signedTextBinding = record.signedTextBinding
  durationMs : later.signedDurationMs = record.signedDurationMs
  parentRecord : later.parentRecord = record.parentRecord

theorem SameSigned.refl (record : SessionRecord) : SameSigned record record :=
  ⟨rfl, rfl, rfl, rfl, rfl, rfl, rfl, rfl, rfl, rfl, rfl, rfl⟩

theorem SameSigned.symm (h : SameSigned record later) : SameSigned later record :=
  ⟨h.1.symm, h.2.symm, h.3.symm, h.4.symm, h.5.symm, h.6.symm, h.7.symm, h.8.symm, h.9.symm,
    h.10.symm, h.11.symm, h.12.symm⟩

theorem SameSigned.trans {first second third : SessionRecord} (h : SameSigned first second)
    (h' : SameSigned second third) : SameSigned first third :=
  ⟨h'.1.trans h.1, h'.2.trans h.2, h'.3.trans h.3, h'.4.trans h.4, h'.5.trans h.5,
    h'.6.trans h.6, h'.7.trans h.7, h'.8.trans h.8, h'.9.trans h.9, h'.10.trans h.10,
    h'.11.trans h.11, h'.12.trans h.12⟩

/-- A frozen session with all that `sign` sets. -/
def Sealed (options : RegistryOptions) (record : SessionRecord) : Prop :=
  record.state ≠ .active ∧ record.signedDurationMs.isSome = true ∧
    (options.journal = true → record.uploadId.isSome = true)

instance (options : RegistryOptions) (record : SessionRecord) :
    Decidable (Sealed options record) :=
  inferInstanceAs (Decidable (_ ∧ _ ∧ (_ → _)))

theorem Sealed.of_same (h : Sealed options record) (hsame : SameSigned record later)
    (hstate : later.state ≠ .active) : Sealed options later := by
  refine ⟨hstate, ?_, ?_⟩
  · rw [hsame.durationMs]
    exact h.2.1
  · rw [hsame.uploadId]
    exact h.2.2

/-- A sealed session stays sealed, and as it was signed while it is not uploaded. -/
structure Stays (options : RegistryOptions) (record later : SessionRecord) : Prop where
  kept : Sealed options record → Sealed options later
  uploaded : record.state = .uploaded → later.state = .uploaded
  signed : Sealed options record → later.state ≠ .uploaded → SameSigned record later

theorem Stays.refl (options : RegistryOptions) (record : SessionRecord) :
    Stays options record record :=
  ⟨fun h => h, fun h => h, fun _ _ => .refl record⟩

theorem Stays.trans {first second third : SessionRecord} (h : Stays options first second)
    (h' : Stays options second third) : Stays options first third where
  kept hsealed := h'.kept (h.kept hsealed)
  uploaded hup := h'.uploaded (h.uploaded hup)
  signed hsealed hnot :=
    (h.signed hsealed fun hup => hnot (h'.uploaded hup)).trans (h'.signed (h.kept hsealed) hnot)

/-- What was signed is written back, in a state that comes next. -/
theorem Stays.of_same (h : SameSigned record written) (hactive : written.state ≠ .active)
    (huploaded : record.state = .uploaded → written.state = .uploaded) :
    Stays options record written :=
  ⟨fun hsealed => hsealed.of_same h hactive, huploaded, fun _ _ => h⟩

theorem Stays.of_state (h : SameSigned record written) (hstate : written.state = record.state) :
    Stays options record written :=
  ⟨fun hsealed => hsealed.of_same h (hstate.symm ▸ hsealed.1), fun hup => hstate.trans hup,
    fun _ _ => h⟩

/-- An active session may be written at will. -/
theorem Stays.of_active (h : record.state = .active) : Stays options record written where
  kept hsealed := absurd h hsealed.1
  uploaded hup := absurd (h.symm.trans hup) (by decide)
  signed hsealed := absurd h hsealed.1

theorem Stays.observe (options : RegistryOptions) (record : SessionRecord)
    (observation : SessionObservation) : Stays options record { record with observation } :=
  .of_state ⟨rfl, rfl, rfl, rfl, rfl, rfl, rfl, rfl, rfl, rfl, rfl, rfl⟩ rfl

/-! ## Registries -/

/-- What the next registry holds under the id has come of what was there. -/
def Guards (options : RegistryOptions) (id : JsString) (registry next : Registry) : Prop :=
  ∀ later, next.get id = some later → ∃ record,
    registry.get id = some record ∧ Stays options record later

namespace Guards

theorem of_eq (hsessions : next.sessions = registry.sessions) :
    Guards options id registry next := by
  intro later hlater
  rw [Registry.get, hsessions] at hlater
  exact ⟨later, hlater, .refl options later⟩

theorem refl (registry : Registry) : Guards options id registry registry := of_eq rfl

theorem trans {last : Registry} (h : Guards options id registry next)
    (h' : Guards options id next last) : Guards options id registry last := by
  intro later hlater
  obtain ⟨between, hbetween, hstays'⟩ := h' later hlater
  obtain ⟨record, hrecord, hstays⟩ := h between hbetween
  exact ⟨record, hrecord, hstays.trans hstays'⟩

theorem touch (registry : Registry) (other : JsString) :
    Guards options id registry (registry.touch other) := of_eq rfl

theorem rename (registry : Registry) (nextId : Nat) :
    Guards options id registry { registry with nextId } := of_eq rfl

theorem put {other : JsString} (hget : registry.get other = some record)
    (h : Stays options record written) :
    Guards options id registry (registry.put other written) := by
  intro later hlater
  rw [get_put] at hlater
  split at hlater
  · rename_i heq
    cases hlater
    exact ⟨record, heq ▸ hget, h⟩
  · exact ⟨later, hlater, .refl options later⟩

theorem insertNew (hne : record.sessionId ≠ id) :
    Guards options id registry (insertNew registry record) := by
  intro later hlater
  have hlater : (registry.put record.sessionId record).get id = some later := hlater
  rw [get_put, if_neg hne.symm] at hlater
  exact ⟨later, hlater, .refl options later⟩

theorem remove (registry : Registry) (other : JsString) (nextId : Nat) :
    Guards options id registry { removeSession registry other with nextId } := by
  intro later hlater
  change (removeSession registry other).get id = some later at hlater
  rw [get_removeSession] at hlater
  split at hlater
  · cases hlater
  · exact ⟨later, hlater, .refl options later⟩

end Guards

theorem requireInState_guards (registry : Registry) (other : JsString)
    (allowed : List SessionState) :
    Guards options id registry (requireInState registry other allowed).1 := by
  rcases requireInState_cases registry other allowed with hrefused | htouched
  · rw [hrefused]
    exact .refl registry
  · rw [htouched]
    exact .touch registry other

theorem required_guards {other : JsString} {allowed : List SessionState}
    {result : Except JsError SessionRecord}
    (h : requireInState registry other allowed = (next, result)) :
    Guards options id registry next := by
  have hrequired : Guards options id registry (requireInState registry other allowed).1 :=
    requireInState_guards registry other allowed
  rwa [h] at hrequired

/-- A method writes the session whose state it has required. -/
theorem written_guards {other : JsString} {allowed : List SessionState}
    (h : requireInState registry other allowed = (next, .ok record))
    (hstays : record.state ∈ allowed → Stays options record written) :
    Guards options id registry (next.put other written) := by
  apply (required_guards h).trans
  obtain ⟨rfl, hget, hallowed⟩ := requireInState_ok h
  exact Guards.put hget (hstays hallowed)

/-! ### Checkpoints -/

theorem postRound_guards (registry : Registry) (promise : Nat) (loop : CheckpointLoop)
    (uuid : JsString) : Guards options id registry (postRound registry promise loop uuid) := by
  unfold postRound
  simp only
  split
  · exact .of_eq rfl
  · rename_i record hget
    split
    · exact (Guards.put hget (.observe options record _)).trans (.of_eq rfl)
    · exact .of_eq rfl

theorem kickCheckpoint_guards {other : JsString} (now : Int) (uuid : JsString)
    {observation : SessionObservation} (hget : registry.get other = some record) :
    Guards options id registry
      (kickCheckpoint registry other { record with observation } now uuid) := by
  unfold kickCheckpoint
  simp only
  have htouched : (registry.touch other).get other = some record := hget
  apply ((Guards.touch registry other).trans
    (Guards.put htouched (.observe options record _))).trans
  apply (Guards.rename _ _).trans
  exact (postRound_guards _ _ _ uuid).trans (.of_eq rfl)

theorem maybeTriggerCheckpoint_guards (options : RegistryOptions) {other : JsString}
    (clock : Nat → Int) (uuid : JsString) (hget : registry.get other = some record) :
    Guards options id registry
      (maybeTriggerCheckpoint options registry other record clock uuid) := by
  unfold maybeTriggerCheckpoint
  split
  · exact .refl registry
  · split
    · exact .refl registry
    · split
      · exact .put hget (.observe options record _)
      · exact kickCheckpoint_guards _ uuid hget

theorem setStage_guards (registry : Registry) (promise : Nat) (loop : CheckpointLoop)
    (stage : LoopStage) : Guards options id registry (setStage registry promise loop stage) :=
  .of_eq rfl

theorem checkpointAnswered_guards (options : RegistryOptions) (registry : Registry)
    (promise : Nat) (loop : CheckpointLoop) (result : CheckpointResult) (save : Nat) :
    Guards options id registry
      (checkpointAnswered options registry promise loop result save).1 := by
  unfold checkpointAnswered
  split
  · exact setStage_guards registry promise loop .ended
  · rename_i record hget
    have htouched : (registry.touch loop.sessionId).get loop.sessionId = some record := hget
    simp only
    split
    · exact ((Guards.touch registry _).trans
        (Guards.put htouched (.observe options record _))).trans
        (setStage_guards _ promise loop _)
    · exact ((Guards.touch registry _).trans
        (Guards.put htouched (.observe options record _))).trans
        (setStage_guards _ promise loop _)

theorem checkpointSaved_guards (registry : Registry) (promise : Nat) (loop : CheckpointLoop)
    (again : Option Nat) (saved : Bool) (now : Int) (uuid : JsString) :
    Guards options id registry (checkpointSaved registry promise loop again saved now uuid) := by
  unfold checkpointSaved
  split
  · exact setStage_guards registry promise loop .ended
  · split
    · exact setStage_guards registry promise loop .ended
    · split
      · exact postRound_guards registry promise loop uuid
      · rename_i record hget
        split
        · exact (Guards.put hget (.observe options record _)).trans
            (postRound_guards _ promise loop uuid)
        · exact postRound_guards registry promise loop uuid

theorem loopFinished_guards (registry : Registry) (promise : Nat) (loop : CheckpointLoop) :
    Guards options id registry (loopFinished registry promise loop) := by
  unfold loopFinished
  simp only
  split
  · have hreleased : Guards options id registry
        { registry with
          loops := registry.loops.delete promise
          inFlight := registry.inFlight.delete loop.sessionId } := .of_eq rfl
    split
    · exact hreleased
    · rename_i record hget
      split
      · apply hreleased.trans
        apply (Guards.put hget (.observe options record _)).trans
        exact .touch _ _
      · exact .of_eq rfl
  · exact .of_eq rfl

theorem flushRound_guards (registry : Registry) (flush : ObservationFlush) (now : Int)
    (uuid : JsString) : Guards options id registry (flushRound registry flush now uuid).1 := by
  apply flushRound_relates
  · exact .of_eq rfl
  · exact .refl registry
  · exact fun record hget => kickCheckpoint_guards now uuid hget

/-! ### Calls -/

theorem findOrCreate_guards (hkeyed : Keyed registry) (hne : uuid ≠ id) (origin : FieldOrigin)
    (descriptor : FieldDescriptor) (captureSurface : JsString) (find : FindOptions)
    (clock : Nat → Int) :
    Guards options id registry
      (findOrCreate options registry origin descriptor captureSurface find clock uuid).1 := by
  have hfound := findOrCreate_cases options registry origin descriptor captureSurface find
    clock uuid
  generalize (findOrCreate options registry origin descriptor captureSurface find clock uuid).1 =
    left at hfound ⊢
  cases hfound with
  | refused => exact .refl registry
  | @created sessionId _ _ _ _ _ _ hid =>
      have hother : sessionId ≠ id := hid hkeyed ▸ hne
      exact .insertNew hother
  | @found existing _ _ _ _ _ hget =>
      refine (Guards.put hget ?_).trans (.touch _ existing)
      exact .of_state ⟨rfl, rfl, rfl, rfl, rfl, rfl, rfl, rfl, rfl, rfl, rfl, rfl⟩ rfl

theorem resume_guards (registry : Registry) (other : JsString) (origin : FieldOrigin)
    (descriptor : FieldDescriptor) (resumeOptions : ResumeOptions) :
    Guards options id registry (resume registry other origin descriptor resumeOptions).1 := by
  unfold resume requireMutable
  split
  · rename_i h
    exact required_guards h
  · rename_i h
    refine written_guards h fun _ => ?_
    exact .of_state ⟨rfl, rfl, rfl, rfl, rfl, rfl, rfl, rfl, rfl, rfl, rfl, rfl⟩ rfl

theorem acceptEvent_guards (options : RegistryOptions) {other : JsString}
    (event : BufferMutation) (tip : B3Hash) (now : Int)
    (hget : registry.get other = some record) (hactive : record.state = .active) :
    Guards options id registry (acceptEvent options registry other record event tip now) := by
  unfold acceptEvent
  simp only
  split
  · let queued : Registry :=
      { registry with
        pendingEvents :=
          registry.pendingEvents.set other (registry.pending other ++ [event]) }
    have hqueued : Guards options id registry queued := .of_eq rfl
    have hkept : queued.get other = some record := hget
    exact hqueued.trans (Guards.put hkept (.of_active hactive))
  · exact Guards.put hget (.of_active hactive)

theorem appendMutation_guards (registry : Registry) (other : JsString)
    (mutation : PendingMutation) (capturedAtWallMs : Option Int) (clock : Nat → Int)
    (uuid : JsString) :
    Guards options id registry
      (appendMutation P options registry other mutation capturedAtWallMs clock uuid).1 := by
  unfold appendMutation requireMutable
  split
  · exact .refl registry
  · split
    · rename_i h
      exact required_guards h
    · rename_i h
      obtain ⟨rfl, hget, hstate⟩ := requireInState_ok h
      have hrequired : Guards options id registry (registry.touch other) := required_guards h
      simp only
      split
      · exact hrequired
      · have htouched : (registry.touch other).get other = some _ := hget
        apply hrequired.trans
        apply (acceptEvent_guards options _ _ _ htouched (List.mem_singleton.1 hstate)).trans
        exact maybeTriggerCheckpoint_guards options clock uuid (get_acceptEvent _ _ _ _ _ _ _)

theorem recordUnrecordedChange_guards (registry : Registry) (other : JsString)
    (clock : Nat → Int) (uuid : JsString) :
    Guards options id registry (recordUnrecordedChange P options registry other clock uuid).1 := by
  unfold recordUnrecordedChange requireMutable
  split
  · rename_i h
    exact required_guards h
  · rename_i h
    exact (required_guards h).trans (appendMutation_guards _ other unrecordedChange none clock uuid)

/-- A retry freezes what is frozen already. -/
theorem freeze_again (h : Sealed options record) (hfailed : record.state = .failedUpload)
    (textBinding : Option Json) (now : Int) (uuid : JsString) :
    SameSigned record (freeze options record (signedVersion options record)
      (signedBinding record textBinding) (signedDuration options record now) uuid) := by
  obtain ⟨duration, hduration⟩ := Option.isSome_iff_exists.1 h.2.1
  have hversion : signedVersion options record = record.formatVersion := by
    unfold signedVersion
    rw [hfailed, if_neg]
    simp
  refine ⟨rfl, hversion, rfl, rfl, rfl, rfl, rfl, rfl, ?_, ?_, ?_, rfl⟩
  · show (if options.journal then some (record.uploadId.getD uuid) else record.uploadId) =
      record.uploadId
    split
    · rename_i hjournal
      obtain ⟨uploadId, hupload⟩ := Option.isSome_iff_exists.1 (h.2.2 hjournal)
      rw [hupload]
      rfl
    · rfl
  · exact if_pos hfailed
  · show some (signedDuration options record now) = record.signedDurationMs
    unfold signedDuration
    rw [if_pos hfailed, hduration]

theorem sign_guards (registry : Registry) (other : JsString) (textBinding : Option Json)
    (now : Int) (uuid : JsString) :
    Guards options id registry (sign P options registry other textBinding now uuid).1 := by
  unfold sign
  split
  · rename_i h
    exact required_guards h
  · rename_i required record h
    split
    · exact required_guards h
    · rename_i frozen manifest hsign
      refine written_guards h fun hallowed => ?_
      rw [(signRecord_ok hsign).1]
      by_cases hactive : record.state = .active
      · exact .of_active hactive
      · have hfailed : record.state = .failedUpload := by simpa [hactive] using hallowed
        refine ⟨fun hsealed => ?_, fun hup => absurd (hfailed.symm.trans hup) (by decide),
          fun hsealed _ => freeze_again hsealed hfailed textBinding now uuid⟩
        exact hsealed.of_same (freeze_again hsealed hfailed textBinding now uuid) (by simp [freeze])

theorem markUploading_guards (registry : Registry) (other : JsString) :
    Guards options id registry (markUploading registry other).1 := by
  unfold markUploading
  split
  · rename_i h
    exact required_guards h
  · rename_i required record h
    refine written_guards h fun hallowed => ?_
    refine .of_same ⟨rfl, rfl, rfl, rfl, rfl, rfl, rfl, rfl, rfl, rfl, rfl, rfl⟩ (by simp) ?_
    intro hup
    rw [hup] at hallowed
    simp at hallowed

theorem markUploaded_guards (registry : Registry) (other : JsString)
    (response : IngestRecordResponse) (now : Int) :
    Guards options id registry (markUploaded registry other response now).1 := by
  unfold markUploaded
  split
  · rename_i h
    exact required_guards h
  · rename_i h
    refine written_guards h fun _ => ?_
    exact .of_same ⟨rfl, rfl, rfl, rfl, rfl, rfl, rfl, rfl, rfl, rfl, rfl, rfl⟩ (by simp)
      fun _ => rfl

theorem markFailedUpload_guards (registry : Registry) (other reason : JsString) :
    Guards options id registry (markFailedUpload registry other reason).1 := by
  unfold markFailedUpload
  split
  · rename_i h
    exact required_guards h
  · rename_i required record h
    refine written_guards h fun hallowed => ?_
    refine .of_same ⟨rfl, rfl, rfl, rfl, rfl, rfl, rfl, rfl, rfl, rfl, rfl, rfl⟩ (by simp) ?_
    intro hup
    rw [hup] at hallowed
    simp at hallowed

theorem markObservationRejected_guards (registry : Registry) (other : JsString)
    (code : ObservationRejection) :
    Guards options id registry (markObservationRejected registry other code).1 := by
  unfold markObservationRejected
  split
  · rename_i h
    exact required_guards h
  · rename_i record h
    exact written_guards h fun _ => .observe options record _

theorem continueFrom_guards (hne : uuid ≠ id) (registry : Registry) (other : JsString)
    (location : Location) (clock : Nat → Int) :
    Guards options id registry (continueFrom options registry other location clock uuid).1 := by
  unfold continueFrom
  split
  · rename_i h
    exact required_guards h
  · rename_i required previous h
    apply (required_guards h).trans
    split
    · exact .refl _
    · split
      · rename_i existingId existing hfind
        have hget : required.get existingId = some existing :=
          OrderedMap.mem_entries_iff.1 (List.mem_of_find?_eq_some hfind)
        refine (Guards.put hget ?_).trans (.touch _ _)
        exact .of_state ⟨rfl, rfl, rfl, rfl, rfl, rfl, rfl, rfl, rfl, rfl, rfl, rfl⟩ rfl
      · exact .insertNew hne

theorem discard_guards (registry : Registry) (other : JsString) :
    Guards options id registry (discard registry other).1 := by
  unfold discard
  split
  · exact .refl registry
  · exact .remove registry other _

/-- An anchor is left only of an uploaded session. -/
theorem anchorOf_stays (objectId : Nat) (hup : record.state = .uploaded) :
    Stays options record (anchorOf options objectId record) :=
  ⟨fun h => h, fun h => h, fun _ hnot => absurd hup hnot⟩

theorem sweep_guards (hkeyed : Keyed registry) (sweepOptions : SweepOptions) (now : Int) :
    Guards options id registry (sweep options registry sweepOptions now) := by
  apply sweep_relates (R := Guards options id) hkeyed
  · exact .refl
  · exact fun first second third h h' => h.trans h'
  · intro between record left _ _ hget hswept
    cases hswept with
    | anchored huploaded =>
        have hput : Guards options id between (between.put record.sessionId
            (anchorOf options between.nextId record)) :=
          Guards.put hget (anchorOf_stays between.nextId huploaded)
        exact hput.trans (.of_eq rfl)
    | removed => exact .remove between record.sessionId _

/-- A call that draws another id. -/
theorem RegistryCall.run_guards (hkeyed : Keyed registry) (hne : uuid ≠ id) (clock : Nat → Int)
    (call : RegistryCall) :
    Guards options id registry (call.run P options clock uuid registry).registry := by
  cases call with
  | findOrCreate origin descriptor captureSurface find =>
      exact findOrCreate_guards hkeyed hne origin descriptor captureSurface find clock
  | resume other origin descriptor resumeOptions =>
      exact resume_guards registry other origin descriptor resumeOptions
  | appendMutation other mutation capturedAtWallMs =>
      exact appendMutation_guards registry other mutation capturedAtWallMs clock uuid
  | recordUnrecordedChange other => exact recordUnrecordedChange_guards registry other clock uuid
  | sign other textBinding => exact sign_guards registry other textBinding (clock 0) uuid
  | markUploading other => exact markUploading_guards registry other
  | markUploaded other response => exact markUploaded_guards registry other response (clock 0)
  | markFailedUpload other reason => exact markFailedUpload_guards registry other reason
  | markObservationRejected other code => exact markObservationRejected_guards registry other code
  | continueFrom other location => exact continueFrom_guards hne registry other location clock
  | discard other => exact discard_guards registry other
  | sweep sweepOptions => exact sweep_guards hkeyed sweepOptions (clock 0)

/-! ## Processes -/

namespace Process

variable {process next : Process}

/-- A record of the session, in the registry or taken out of it. -/
def Holds (process : Process) (id : JsString) (record : SessionRecord) : Prop :=
  process.registry.get id = some record ∨
    Detached process.discards record ∧ record.sessionId = id

/-- What the next process holds of the session has come of what was there. -/
def Remains (options : RegistryOptions) (id : JsString) (process next : Process) : Prop :=
  ∀ later, next.Holds id later → ∃ record, process.Holds id record ∧ Stays options record later

theorem Remains.trans {last : Process} (h : Remains options id process next)
    (h' : Remains options id next last) : Remains options id process last := by
  intro later hlater
  obtain ⟨between, hbetween, hstays'⟩ := h' later hlater
  obtain ⟨record, hrecord, hstays⟩ := h between hbetween
  exact ⟨record, hrecord, hstays.trans hstays'⟩

theorem Remains.refl (process : Process) : Remains options id process process :=
  fun later hlater => ⟨later, hlater, .refl options later⟩

/-- A change of the registry. -/
theorem Remains.of_guards (h : Guards options id process.registry next.registry)
    (hdiscards : ∀ record, Detached next.discards record → Detached process.discards record) :
    Remains options id process next := by
  intro later hlater
  rcases hlater with hlive | ⟨hdetached, hid⟩
  · obtain ⟨record, hrecord, hstays⟩ := h later hlive
    exact ⟨record, Or.inl hrecord, hstays⟩
  · exact ⟨later, Or.inr ⟨hdiscards later hdetached, hid⟩, .refl options later⟩

theorem Remains.detach (hsound : Sound process) (task : Nat) (ids : List JsString) :
    Remains options id process (process.detached task ids) := by
  have htaken := detach_taken hsound.tracked.keyed ids
  intro later hlater
  rcases hlater with hlive | ⟨hdetached, hid⟩
  · have hlive : (World.detach process.registry ids).1.get id = some later := hlive
    rw [htaken.get] at hlive
    split at hlive
    · cases hlive
    · exact ⟨later, Or.inl hlive, .refl options later⟩
  · obtain ⟨other, promise, pending, removed, hother, hmem⟩ := hdetached
    change (process.discards.set task _).get? other = _ at hother
    rw [OrderedMap.get?_set] at hother
    split at hother
    · cases hother
      obtain ⟨-, kept, objectId, hkept, rfl⟩ := htaken.removed later hmem
      rw [hid] at hkept
      exact ⟨kept, Or.inl hkept,
        .of_state ⟨rfl, rfl, rfl, rfl, rfl, rfl, rfl, rfl, rfl, rfl, rfl, rfl⟩ rfl⟩
    · exact ⟨later, Or.inr ⟨⟨other, _, _, _, hother, hmem⟩, hid⟩, .refl options later⟩

theorem Remains.restore (hsound : Sound process) {task promise : Nat}
    {pending : List (JsString × Option (List BufferMutation))} {removed : List SessionRecord}
    (htask : process.discards.get? task = some (.deleting promise pending removed)) :
    Remains options id process (process.restored task pending removed) := by
  have hback := hsound.putBack htask
  intro later hlater
  rcases hlater with hlive | ⟨hdetached, hid⟩
  · have hlive : (removed.foldl (World.restoreOne pending) process.registry).get id =
        some later := hlive
    by_cases hid : id ∈ removed.map SessionRecord.sessionId
    · obtain ⟨kept, hkept, hsame⟩ := List.mem_map.1 hid
      rw [← hsame, hback.back kept hkept] at hlive
      cases hlive
      exact ⟨later, Or.inr ⟨⟨task, _, _, _, htask, hkept⟩, hsame⟩, .refl options later⟩
    · rw [hback.get id hid] at hlive
      exact ⟨later, Or.inl hlive, .refl options later⟩
  · refine ⟨later, Or.inr ⟨detached_set ?_ hdetached, hid⟩, .refl options later⟩
    intro _ _ _ heq
    cases heq

/-- A step that is not a crash and draws another id. -/
theorem remains_step (hsound : Sound process) {action : Action}
    (hdrawn : ∀ made clock uuid, action = .call made clock uuid → uuid ≠ id)
    (hstays : ∀ snapshot, action ≠ .crash snapshot)
    (hnext : process.step P options action = some next) : Remains options id process next := by
  have hflushed : ((∃ id now uuid, action = .flushObservation id now uuid) ∨
      ∃ task now uuid, action = .resumeFlush task now uuid) →
      Remains options id process next := by
    intro hflush
    rcases step_flush hnext hflush with ⟨flushes, rfl⟩ |
      ⟨registry, hsessions, -, -, -, hdiscards, -, flush, now, uuid, hround⟩
    · exact .of_guards (.of_eq rfl) fun _ h => h
    · apply Remains.of_guards
      · rw [hround]
        exact (Guards.of_eq hsessions).trans (flushRound_guards registry flush now uuid)
      · rw [hdiscards]
        exact fun _ h => h
  cases action with
  | call made clock uuid =>
      cases hnext
      have hkept : Guards options id process.registry
          (made.run P options clock uuid process.registry).registry :=
        made.run_guards hsound.tracked.keyed (hdrawn made clock uuid rfl) clock
      exact .of_guards hkept fun _ h => h
  | persist =>
      cases hnext
      exact .of_guards (.of_eq rfl) fun _ h => h
  | queue queues =>
      cases hnext
      exact .of_guards (.of_eq rfl) fun _ h => h
  | settle waiters saved =>
      cases hnext
      exact .of_guards (.of_eq rfl) fun _ h => h
  | discardPersisted ids =>
      cases hnext
      refine .of_guards (.of_eq rfl) fun record hdetached => detached_set ?_ hdetached
      intro _ _ _ heq
      cases heq
  | resumeDiscard task =>
      rcases step_resumeDiscard hnext with ⟨promise, ids, -, rfl⟩ |
        ⟨promise, pending, removed, htask, -, rfl⟩ | rfl
      · exact (Remains.detach hsound task ids).trans (.of_guards (.of_eq rfl) fun _ h => h)
      · exact (Remains.restore hsound htask).trans (.of_guards (.of_eq rfl) fun _ h => h)
      · exact .of_guards (.of_eq rfl) fun _ h => detached_delete h
  | answerCheckpoint promise result =>
      obtain ⟨loop, request, hloop, hposting, hcases⟩ := step_answerCheckpoint hnext
      have hkept : Guards options id process.registry (checkpointAnswered options
          process.registry promise loop result process.registry.nextId).1 :=
        checkpointAnswered_guards options process.registry promise loop result _
      rcases hcases with rfl | rfl
      · exact .of_guards hkept fun _ h => h
      · exact .of_guards (hkept.trans (.of_eq rfl)) fun _ h => h
  | resumeLoop promise now uuid =>
      obtain ⟨loop, hloop, ⟨save, again, saved, hsaving, hsaved, rfl⟩ | ⟨hended, rfl⟩⟩ :=
        step_resumeLoop hnext
      · exact .of_guards (checkpointSaved_guards _ promise loop again saved now uuid) fun _ h => h
      · exact .of_guards (loopFinished_guards _ promise loop) fun _ h => h
  | flushObservation id now uuid => exact hflushed (Or.inl ⟨id, now, uuid, rfl⟩)
  | resumeFlush task now uuid => exact hflushed (Or.inr ⟨task, now, uuid, rfl⟩)
  | crash snapshot => exact absurd rfl (hstays snapshot)

/-- A step that goes on with the session: it draws another id, and nothing crashes. -/
def GoesOn (id : JsString) : Action → Prop
  | .call _ _ uuid => uuid ≠ id
  | .crash _ => False
  | _ => True

theorem remains_run (hsound : Sound process)
    (run : Run (step P options) (fun process action => process.Fresh action ∧ GoesOn id action)
      process next) : Sound next ∧ Remains options id process next := by
  refine run.invariant (I := fun next => Sound next ∧ Remains options id process next) ?_
    ⟨hsound, .refl process⟩
  intro state action later hstate hcondition hlater
  refine ⟨(sound_step hstate.1 hcondition.1 hlater).1, hstate.2.trans ?_⟩
  apply remains_step hstate.1 _ _ hlater
  · rintro made clock uuid rfl
    exact hcondition.2
  · rintro snapshot rfl
    exact hcondition.2

end Process

end Pmbah.Producer
