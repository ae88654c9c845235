import Pmbah.Format.Length

/-!
# Whole-record verification

`verifyRecord` takes any JSON values.  `RecordHolds` says in one place what a
valid result means for them.
-/

namespace Pmbah.Format

open Js

structure VerificationResult where
  valid : Bool
  errors : List JsString
  computedRecordHash : Option B3Hash
  computedChain : Option (List B3Hash)

/-- The version of a manifest that has been validated. -/
def manifestVersion (manifest : Json) : FormatVersion :=
  (FormatVersion.ofText? (manifest.textAt (js "format_version"))).getD .v0_1

def manifestFinalization (manifest : Json) : Finalization where
  durationMs := manifest.field (js "duration_ms")
  parentRecord := manifest.field (js "parent_record")

/-- `sealRecordHash` with the values of a manifest that has been validated. -/
def sealManifest (P : Platform) (manifest : Json) (eventTip : B3Hash) :
    Except JsError B3Hash :=
  sealRecordHash P eventTip (manifestVersion manifest) (manifest.field (js "text_binding"))
    (manifestFinalization manifest)

/-- The check of `event_count`, whose message shows the received value. -/
def eventCountErrors (P : Platform) (manifest : Json) (events : List Json) :
    Except JsError (List JsString) :=
  if Json.number? (manifest.field (js "event_count")) = some (.ofNat events.length) then .ok []
  else (P.toText (manifest.field (js "event_count"))).map fun shown =>
    [js "event_count mismatch: manifest " ++ shown ++ js ", events " ++ natText events.length]

/-- The check that no event is later than `duration_ms`. -/
def durationErrors (P : Platform) (manifest : Json) (events : List Json) :
    Except JsError (List JsString) :=
  match events.getLast? with
  | none => .ok []
  | some lastEvent =>
      if !lastEvent.truthy then .ok []
      else do
        let early ← P.less (manifest.field (js "duration_ms")) (lastEvent.field (js "t"))
        if early then do
          let duration ← P.toText (manifest.field (js "duration_ms"))
          let t ← P.toText (lastEvent.field (js "t"))
          pure [js "duration_ms " ++ duration ++ js " is less than last event time " ++ t]
        else pure []

def recordHashErrors (manifest : Json) (computed : B3Hash) : List JsString :=
  require (Json.text? (manifest.field (js "record_hash")) == some computed.text)
    (js "record_hash mismatch: expected " ++ manifest.textAt (js "record_hash") ++
      js ", computed " ++ computed.text)

/-- The chain and the record hash, computed from the events. -/
def recomputeRecord (P : Platform) (manifest : Json) (events : List Json) :
    Except JsError (List B3Hash × B3Hash) := do
  let chain ← computeEventHashChain P events (manifest.textAt (js "session_id"))
    (manifestVersion manifest)
  let hash ← computeRecordHash P events (manifest.textAt (js "session_id"))
    (manifestVersion manifest) (manifest.field (js "text_binding"))
    (manifestFinalization manifest)
  pure (chain, hash)

/-- What the caught failure of `computeObservedLength` adds. -/
def observedLengthErrors (P : Platform) (events : List Json) : List JsString :=
  match computeObservedLength P events (some 0) with
  | .ok _ => []
  | .error thrown => [thrown.message]

def emptyLogErrors (events : List Json) : List JsString :=
  require (!events.isEmpty)
    (js "event log must contain at least one event to compute a record hash")

def verifyRecord (P : Platform) (manifest : Json) (events : List Json) :
    Except JsError VerificationResult := do
  let eventErrors ← validateEventLog P events
  let errors := validateManifest P manifest ++ eventErrors
  if !manifest.isPlainObject then
    pure { valid := false, errors, computedRecordHash := none, computedChain := none }
  else
    let countErrors ← eventCountErrors P manifest events
    let lateErrors ← durationErrors P manifest events
    let errors := errors ++ emptyLogErrors events ++ countErrors ++ lateErrors
    if errors.isEmpty then
      let (chain, hash) ← recomputeRecord P manifest events
      let errors := recordHashErrors manifest hash ++ observedLengthErrors P events
      pure { valid := errors.isEmpty, errors, computedRecordHash := some hash,
             computedChain := some chain }
    else
      let errors := errors ++ observedLengthErrors P events
      pure { valid := errors.isEmpty, errors, computedRecordHash := none,
             computedChain := none }

/-- The check of the chain alone, by which a producer verifies what it signs. -/
def verifyEventHashChain (P : Platform) (manifest : Json) (events : List Json) :
    Except JsError VerificationResult := do
  let eventErrors ← validateEventLog P events
  let errors := validateManifest P manifest ++ eventErrors
  if !manifest.isPlainObject then
    pure { valid := false, errors, computedRecordHash := none, computedChain := none }
  else
    let errors := errors ++ emptyLogErrors events
    if errors.isEmpty then
      let (chain, hash) ← recomputeRecord P manifest events
      let errors := recordHashErrors manifest hash
      pure { valid := errors.isEmpty, errors, computedRecordHash := some hash,
             computedChain := some chain }
    else
      pure { valid := errors.isEmpty, errors, computedRecordHash := none,
             computedChain := none }

/-! ## Manifests that validate -/

/-- The checks that a valid manifest passes. -/
structure ManifestAccepted (P : Platform) (manifest : Json) : Prop where
  isObject : manifest.isPlainObject = true
  version : ((Json.text? (manifest.field (js "format_version"))).any fun text =>
    (FormatVersion.ofText? text).isSome) = true
  recordHash : isB3Hash (manifest.field (js "record_hash")) = true
  session : (Json.text? (manifest.field (js "session_id"))).any isUuid = true
  producer : validateProducer (manifest.field (js "producer")) = []
  noContext : manifest.hasField (js "capture_context") = false
  binding : validateManifestBinding manifest = []
  eventCount : isBoundedNonNegativeInteger (manifest.field (js "event_count")) = true
  duration : isSafeElapsed (manifest.field (js "duration_ms")) = true
  noTextHash : manifest.hasField (js "final_text_hash") = false
  noTextLength : manifest.hasField (js "final_text_length") = false
  created : validateNullableTimestamp P (manifest.field (js "created_client_t"))
    (js "created_client_t") = []
  ingested : validateNullableTimestamp P (manifest.field (js "ingested_server_t"))
    (js "ingested_server_t") = []
  noParentHash : manifest.hasField (js "parent_record_hash") = false
  parent : (isAbsentOrNull (manifest.field (js "parent_record")) ||
    isB3Hash (manifest.field (js "parent_record"))) = true
  attestations : validateAttestations (manifest.field (js "attestations")) = []

theorem validateManifest_eq_nil {P : Platform} {manifest : Json} :
    validateManifest P manifest = [] ↔ ManifestAccepted P manifest := by
  unfold validateManifest
  split
  · rename_i hobject
    simp only [List.cons_ne_nil, false_iff]
    intro h
    simp [h.isObject] at hobject
  · rename_i hobject
    simp only [List.append_eq_nil_iff, require_eq_nil, validateNonNegativeInteger,
      validateElapsedMilliseconds, validateNullableB3, Bool.not_eq_true']
    constructor
    · rintro ⟨⟨⟨⟨⟨⟨⟨⟨⟨⟨⟨⟨⟨⟨hversion, hhash⟩, hsession⟩, hproducer⟩, hcontext⟩, hbinding⟩, hcount⟩,
        hduration⟩, htextHash⟩, htextLength⟩, hcreated⟩, hingested⟩, hparentHash⟩, hparent⟩,
        hattestations⟩
      exact ⟨by simpa using hobject, hversion, hhash, hsession, hproducer, hcontext, hbinding,
        hcount, hduration, htextHash, htextLength, hcreated, hingested, hparentHash, hparent,
        hattestations⟩
    · intro h
      exact ⟨⟨⟨⟨⟨⟨⟨⟨⟨⟨⟨⟨⟨⟨h.version, h.recordHash⟩, h.session⟩, h.producer⟩, h.noContext⟩,
        h.binding⟩, h.eventCount⟩, h.duration⟩, h.noTextHash⟩, h.noTextLength⟩, h.created⟩,
        h.ingested⟩, h.noParentHash⟩, h.parent⟩, h.attestations⟩

/-- The fields of a valid manifest that verification reads. -/
structure ManifestReads (manifest : Json) (version : FormatVersion) (sessionId : JsString)
    (eventCount durationMs : Nat) : Prop where
  isObject : manifest.isPlainObject = true
  hasVersion : manifest.field (js "format_version") = some (.str version.text)
  hasSession : manifest.field (js "session_id") = some (.str sessionId)
  uuid : isUuid sessionId = true
  hasEventCount : manifest.field (js "event_count") = some (Json.ofNat eventCount)
  eventCount_le : eventCount ≤ maxIntegerFieldValue
  hasDuration : manifest.field (js "duration_ms") = some (Json.ofNat durationMs)
  durationMs_le : durationMs ≤ maxTimeFieldValue

theorem text?_any {check : JsString → Bool} {value : Option Json} :
    ((Json.text? value).any check) = true ↔
      ∃ text, value = some (.str text) ∧ check text = true := by
  match value with
  | some (.str text) => simp [Json.text?]
  | none | some .null | some (.bool _) | some (.num _) | some (.arr _) | some (.obj _) =>
      simp [Json.text?]

theorem manifestReads_of_valid {P : Platform} {manifest : Json}
    (h : validateManifest P manifest = []) :
    ∃ version sessionId eventCount durationMs,
      ManifestReads manifest version sessionId eventCount durationMs := by
  have haccepted := validateManifest_eq_nil.1 h
  obtain ⟨text, hversion, hsome⟩ := text?_any.1 haccepted.version
  obtain ⟨version, hofText⟩ := Option.isSome_iff_exists.1 hsome
  obtain ⟨sessionId, hsession, huuid⟩ := text?_any.1 haccepted.session
  obtain ⟨count, hcount, ecount⟩ := isBoundedNonNegativeInteger_iff.1 haccepted.eventCount
  obtain ⟨duration, hduration, eduration⟩ := isSafeElapsed_iff.1 haccepted.duration
  have htext : version.text = text := ofText?_eq_some hofText
  subst htext
  exact ⟨version, sessionId, count, duration, haccepted.isObject, hversion, hsession, huuid,
    ecount, hcount, eduration, hduration⟩

section

variable {manifest : Json} {version : FormatVersion} {sessionId : JsString}
  {eventCount durationMs : Nat}

theorem ManifestReads.manifestVersion
    (h : ManifestReads manifest version sessionId eventCount durationMs) :
    manifestVersion manifest = version := by
  simp [Format.manifestVersion, Json.textAt, h.hasVersion, Json.text?]

theorem ManifestReads.textAt_sessionId
    (h : ManifestReads manifest version sessionId eventCount durationMs) :
    manifest.textAt (js "session_id") = sessionId := by
  simp [Json.textAt, h.hasSession, Json.text?]

theorem ManifestReads.natAt_eventCount
    (h : ManifestReads manifest version sessionId eventCount durationMs) :
    manifest.natAt (js "event_count") = eventCount := by
  simp [Json.natAt, h.hasEventCount]

theorem ManifestReads.natAt_durationMs
    (h : ManifestReads manifest version sessionId eventCount durationMs) :
    manifest.natAt (js "duration_ms") = durationMs := by
  simp [Json.natAt, h.hasDuration]

end

/-! ## Valid results -/

/-- What a valid result says of a manifest and the values taken as its events. -/
structure RecordHolds (P : Platform) (manifest : Json) (values : List Json) (hash : B3Hash) :
    Prop where
  manifestValid : validateManifest P manifest = []
  logValid : ∃ events, ReadsAsLog values events ∧ ValidLog events
  nonempty : values ≠ []
  count : manifest.natAt (js "event_count") = values.length
  duration : ∀ value ∈ values.getLast?,
    value.natAt (js "t") ≤ manifest.natAt (js "duration_ms")
  computed : computeRecordHash P values (manifest.textAt (js "session_id"))
    (manifestVersion manifest) (manifest.field (js "text_binding"))
    (manifestFinalization manifest) = .ok hash
  recorded : Json.text? (manifest.field (js "record_hash")) = some hash.text

theorem eventCountErrors_eq_nil {P : Platform} {manifest : Json} {values : List Json} :
    eventCountErrors P manifest values = .ok [] ↔
      Json.number? (manifest.field (js "event_count")) = some (.ofNat values.length) := by
  unfold eventCountErrors
  split
  · simp_all
  · cases P.toText (manifest.field (js "event_count")) <;> simp_all [Except.map]

theorem natAt_t_of_readsAs {value : Json} {event : BufferMutation} (h : ReadsAs value event) :
    value.natAt (js "t") = event.t := by
  simp [Json.natAt, h.t]

theorem readsAs_of_mem {values : List Json} {events : List BufferMutation}
    (h : ReadsAsLog values events) {value : Json} (hvalue : value ∈ values) :
    ∃ event ∈ events, ReadsAs value event := by
  induction h with
  | nil => simp at hvalue
  | @cons head event values events hhead _ ih =>
      rcases List.mem_cons.1 hvalue with rfl | hvalue
      · exact ⟨event, by simp, hhead⟩
      · obtain ⟨other, hother, hreads⟩ := ih hvalue
        exact ⟨other, by simp [hother], hreads⟩

theorem durationErrors_eq_nil {P : Platform} {manifest : Json} {values : List Json}
    {version : FormatVersion} {sessionId : JsString} {eventCount durationMs : Nat}
    (hmanifest : ManifestReads manifest version sessionId eventCount durationMs)
    {events : List BufferMutation} (hlog : ReadsAsLog values events) :
    durationErrors P manifest values = .ok [] ↔
      ∀ value ∈ values.getLast?, value.natAt (js "t") ≤ durationMs := by
  unfold durationErrors
  cases hlast : values.getLast? with
  | none => simp
  | some value =>
      obtain ⟨event, -, hreads⟩ := readsAs_of_mem hlog (List.mem_of_getLast? hlast)
      have htruthy : value.truthy = true := by
        have hobject := hreads.isObject
        cases value <;> simp_all [Json.isPlainObject, Json.truthy]
      have hless : P.less (manifest.field (js "duration_ms")) (value.field (js "t")) =
          .ok (decide (durationMs < event.t)) := by
        rw [hmanifest.hasDuration, hreads.t]
        simp [Platform.less, Json.ofNat, Json.conversionThrows, JsNumber.ofNat]
      simp only [htruthy, Bool.not_true, Bool.false_eq_true, if_false, hless,
        Option.mem_some_iff, forall_eq', natAt_t_of_readsAs hreads]
      by_cases hlate : durationMs < event.t
      · simp only [hlate, bind, Except.bind]
        cases P.toText (manifest.field (js "duration_ms")) with
        | error thrown => simp; omega
        | ok duration =>
            cases P.toText (value.field (js "t")) <;> simp [pure, Except.pure] <;> omega
      · simp only [hlate, bind, Except.bind]
        simp [pure, Except.pure]
        omega

/-- A valid result reports a hash. -/
theorem verifyRecord_reports {P : Platform} {manifest : Json} {values : List Json}
    {result : VerificationResult} (h : verifyRecord P manifest values = .ok result)
    (hvalid : result.valid = true) : ∃ hash, result.computedRecordHash = some hash := by
  simp only [verifyRecord, bind_eq_ok] at h
  obtain ⟨eventErrors, -, h⟩ := h
  split at h
  · simp only [pure, Except.pure, Except.ok.injEq] at h
    subst h
    simp at hvalid
  · simp only [bind_eq_ok] at h
    obtain ⟨countErrors, -, lateErrors, -, h⟩ := h
    split at h
    · simp only [bind_eq_ok] at h
      obtain ⟨⟨chain, hash⟩, -, h⟩ := h
      simp only [pure, Except.pure, Except.ok.injEq] at h
      exact ⟨hash, by rw [← h]⟩
    · rename_i hne
      simp only [pure, Except.pure, Except.ok.injEq] at h
      subst h
      simp only [List.isEmpty_iff, List.append_eq_nil_iff] at hvalid hne
      exact absurd hvalid.1 hne

/-- A valid result means that the record holds, and reports its hash. -/
theorem verifyRecord_valid {P : Platform} {manifest : Json} {values : List Json} {hash : B3Hash} :
    (∃ result, verifyRecord P manifest values = .ok result ∧ result.valid = true ∧
      result.computedRecordHash = some hash) ↔ RecordHolds P manifest values hash := by
  constructor
  · rintro ⟨result, hresult, hvalid, hhash⟩
    simp only [verifyRecord, bind_eq_ok] at hresult
    obtain ⟨eventErrors, hevents, hresult⟩ := hresult
    split at hresult
    · simp only [pure, Except.pure, Except.ok.injEq] at hresult
      subst hresult
      simp at hvalid
    · simp only [bind_eq_ok] at hresult
      obtain ⟨countErrors, hcount, lateErrors, hlate, hresult⟩ := hresult
      split at hresult
      · rename_i hnil
        simp only [List.isEmpty_iff, List.append_eq_nil_iff, emptyLogErrors,
          require_eq_nil] at hnil
        obtain ⟨⟨⟨⟨hmanifest, rfl⟩, hne⟩, rfl⟩, rfl⟩ := hnil
        simp only [bind_eq_ok] at hresult
        obtain ⟨⟨chain, computed⟩, hcomputed, hresult⟩ := hresult
        simp only [pure, Except.pure, Except.ok.injEq] at hresult
        subst hresult
        simp only [Option.some.injEq] at hhash
        subst hhash
        simp only [List.isEmpty_iff, List.append_eq_nil_iff, recordHashErrors,
          require_eq_nil, beq_iff_eq] at hvalid
        simp only [recomputeRecord, bind_eq_ok] at hcomputed
        obtain ⟨_, -, _, hrecord, hpair⟩ := hcomputed
        simp only [pure, Except.pure, Except.ok.injEq, Prod.mk.injEq] at hpair
        obtain ⟨-, rfl⟩ := hpair
        obtain ⟨version, sessionId, count, duration, hreads⟩ := manifestReads_of_valid hmanifest
        obtain ⟨events, hlog, hlogValid⟩ := validateEventLog_eq_nil.1 hevents
        refine ⟨hmanifest, ⟨events, hlog, hlogValid⟩, by simpa using hne, ?_, ?_, hrecord,
          hvalid.1⟩
        · rw [eventCountErrors_eq_nil, hreads.hasEventCount] at hcount
          rw [hreads.natAt_eventCount]
          simpa [ofNat_inj] using hcount
        · rw [durationErrors_eq_nil hreads hlog] at hlate
          rw [hreads.natAt_durationMs]
          exact hlate
      · simp only [pure, Except.pure, Except.ok.injEq] at hresult
        subst hresult
        simp at hhash
  · rintro ⟨hmanifest, ⟨events, hlog, hlogValid⟩, hne, hcount, hduration, hcomputed, hrecorded⟩
    obtain ⟨version, sessionId, count, duration, hreads⟩ := manifestReads_of_valid hmanifest
    have hevents : validateEventLog P values = .ok [] :=
      validateEventLog_eq_nil.2 ⟨events, hlog, hlogValid⟩
    have hcountErrors : eventCountErrors P manifest values = .ok [] := by
      rw [hreads.natAt_eventCount] at hcount
      rw [eventCountErrors_eq_nil, hreads.hasEventCount, hcount]
      rfl
    have hlateErrors : durationErrors P manifest values = .ok [] := by
      rw [hreads.natAt_durationMs] at hduration
      exact (durationErrors_eq_nil hreads hlog).2 hduration
    have hempty : emptyLogErrors values = [] := by
      simpa [emptyLogErrors] using hne
    have hchain : ∃ chain, computeEventHashChain P values (manifest.textAt (js "session_id"))
        (manifestVersion manifest) = .ok chain := by
      cases hchain : computeEventHashChain P values (manifest.textAt (js "session_id"))
          (manifestVersion manifest) with
      | ok chain => exact ⟨chain, rfl⟩
      | error thrown => simp [computeRecordHash, hchain] at hcomputed
    obtain ⟨chain, hchain⟩ := hchain
    have hlength : observedLengthErrors P values = [] := by
      rw [observedLengthErrors, computeObservedLength_eq hlog hlogValid]
    refine ⟨⟨true, [], some hash, some chain⟩, ?_, rfl, rfl⟩
    simp [verifyRecord, hevents, hreads.isObject, hcountErrors, hlateErrors, hmanifest, hempty,
      recomputeRecord, hchain, hcomputed, recordHashErrors, hrecorded, require, hlength,
      bind, Except.bind, pure, Except.pure]

end Pmbah.Format
