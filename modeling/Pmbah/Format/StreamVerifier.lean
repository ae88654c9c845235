import Pmbah.Format.Verify

/-!
# Bounded-memory verification

The verifier takes the events of a record one by one.  An event that it finds
errors in leaves a failure behind; an event whose check throws does not.
-/

namespace Pmbah.Format

open Js Library

structure EventStreamVerifier where
  manifest : Json
  count : Nat
  lastTime : Int
  tip : Option B3Hash
  failure : Option JsString

namespace EventStreamVerifier

def construct (P : Platform) (manifest : Json) : Except JsError EventStreamVerifier :=
  (throwErrors (validateManifest P manifest)).map fun () =>
    { manifest, count := 0, lastTime := -1, tip := none, failure := none }

/-- The failure is truthy. -/
def failed (verifier : EventStreamVerifier) : Bool :=
  verifier.failure.any fun message => !message.isEmpty

/-- What `append` finds wrong with an event, unless finding out throws. -/
def appendErrors (P : Platform) (verifier : EventStreamVerifier) (event : Json) :
    Except JsError (List JsString) := do
  let errors ← validateEvent P event (some verifier.count)
  let early ← P.less (event.field (js "t")) (some (Json.ofInt verifier.lastTime))
  pure (errors ++
    require (!early) (js "event " ++ natText verifier.count ++ js " t must be non-decreasing") ++
    require (verifier.count < verifier.manifest.natAt (js "event_count"))
      (js "event count exceeds manifest"))

/-- The verifier after an append, and whether the append threw. -/
def append (P : Platform) (verifier : EventStreamVerifier) (event : Json) :
    EventStreamVerifier × Except JsError Unit :=
  if verifier.failed then (verifier, .error (.error (verifier.failure.getD [])))
  else match verifier.appendErrors P event with
    | .error thrown => (verifier, .error thrown)
    | .ok errors =>
        if !errors.isEmpty then
          ({ verifier with failure := some (joinWith (js "; ") errors) },
            .error (.typeError (joinWith (js "; ") errors)))
        else match advanceEventHash P verifier.tip event
            (verifier.manifest.textAt (js "session_id")) (manifestVersion verifier.manifest) with
          | .error thrown => (verifier, .error thrown)
          | .ok tip =>
              ({ verifier with
                  tip := some tip
                  lastTime := event.natAt (js "t")
                  count := verifier.count + 1 }, .ok ())

def finishErrors (verifier : EventStreamVerifier) (computed : Option B3Hash) : List JsString :=
  require (!verifier.failed) (verifier.failure.getD []) ++
    require (verifier.count = verifier.manifest.natAt (js "event_count"))
      (js "event_count mismatch: manifest " ++
        natText (verifier.manifest.natAt (js "event_count")) ++ js ", events " ++
        natText verifier.count) ++
    require verifier.tip.isSome
      (js "event log must contain at least one event to compute a record hash") ++
    require (verifier.lastTime ≤ verifier.manifest.natAt (js "duration_ms"))
      (js "duration_ms is less than last event time") ++
    (computed.map (recordHashErrors verifier.manifest)).getD []

/-- The record hash of what has been accepted, when there is a tip to seal. -/
def sealedHash (P : Platform) (verifier : EventStreamVerifier) :
    Except JsError (Option B3Hash) :=
  match verifier.tip with
  | none => .ok none
  | some tip => (sealManifest P verifier.manifest tip).map some

def finish (P : Platform) (verifier : EventStreamVerifier) :
    Except JsError VerificationResult := do
  let computed ← verifier.sealedHash P
  let errors := verifier.finishErrors computed
  pure { valid := errors.isEmpty, errors, computedRecordHash := computed, computedChain := none }

/-- The verifier after appends, whether or not they threw. -/
def feed (P : Platform) (verifier : EventStreamVerifier) (values : List Json) :
    EventStreamVerifier :=
  values.foldl (fun verifier value => (verifier.append P value).1) verifier

/-- Appends that stop at the first one that throws. -/
def appendAll (P : Platform) (verifier : EventStreamVerifier) :
    List Json → Except JsError EventStreamVerifier
  | [] => .ok verifier
  | value :: values =>
      match verifier.append P value with
      | (_, .error thrown) => .error thrown
      | (next, .ok ()) => next.appendAll P values

end EventStreamVerifier

open EventStreamVerifier in
/-- The whole record through the verifier. -/
def streamRecord (P : Platform) (manifest : Json) (values : List Json) :
    Except JsError VerificationResult := do
  let verifier ← construct P manifest
  let verifier ← verifier.appendAll P values
  verifier.finish P

/-! ## Accepted prefixes -/

namespace EventStreamVerifier

/-- The verifier has accepted these values and nothing else. -/
structure Accepts (P : Platform) (manifest : Json) (values : List Json)
    (events : List BufferMutation) (verifier : EventStreamVerifier) : Prop where
  manifest_eq : verifier.manifest = manifest
  failure : verifier.failure = none
  count : verifier.count = values.length
  reads : ReadsAsLog values events
  validLog : ValidLog events
  bounded : values.length ≤ manifest.natAt (js "event_count")
  tip : verifier.tip = eventTip P (manifest.textAt (js "session_id"))
    (manifestVersion manifest) events
  lastTime : verifier.lastTime = ((events.getLast?.map fun last => (last.t : Int))).getD (-1)

theorem Accepts.failed {P : Platform} {manifest : Json} {values : List Json}
    {events : List BufferMutation} {verifier : EventStreamVerifier}
    (h : Accepts P manifest values events verifier) : verifier.failed = false := by
  simp [EventStreamVerifier.failed, h.failure]

theorem construct_eq_ok {P : Platform} {manifest : Json} {verifier : EventStreamVerifier} :
    construct P manifest = .ok verifier ↔
      validateManifest P manifest = [] ∧
        verifier = { manifest, count := 0, lastTime := -1, tip := none, failure := none } := by
  unfold construct
  cases hthrow : throwErrors (validateManifest P manifest) with
  | error thrown =>
      have : validateManifest P manifest ≠ [] := by
        intro hnil
        have hok : throwErrors (validateManifest P manifest) = .ok () := throwErrors_ok.2 hnil
        rw [hok] at hthrow
        cases hthrow
      simp [Except.map, this]
  | ok u =>
      have hnil : validateManifest P manifest = [] := throwErrors_ok.1 hthrow
      simp [Except.map, hnil, eq_comm]

theorem accepts_nil (P : Platform) (manifest : Json) :
    Accepts P manifest [] []
      { manifest, count := 0, lastTime := -1, tip := none, failure := none } where
  manifest_eq := rfl
  failure := rfl
  count := rfl
  reads := .nil
  validLog := ⟨by simp, by simp, .nil⟩
  bounded := Nat.zero_le _
  tip := rfl
  lastTime := rfl

/-- What the verifier asks of the next value. -/
theorem appendErrors_eq_nil {P : Platform} {verifier : EventStreamVerifier} {value : Json} :
    verifier.appendErrors P value = .ok [] ↔
      ∃ event : BufferMutation, event.Valid ∧ ReadsAs value event ∧
        event.seq = verifier.count ∧ verifier.lastTime ≤ event.t ∧
        verifier.count < verifier.manifest.natAt (js "event_count") := by
  have hless : ∀ {event : BufferMutation}, ReadsAs value event →
      P.less (value.field (js "t")) (some (Json.ofInt verifier.lastTime)) =
        .ok (decide ((event.t : Int) < verifier.lastTime)) := by
    intro event hreads
    rw [hreads.t]
    simp [Platform.less, Json.ofNat, Json.ofInt, Json.conversionThrows, JsNumber.ofNat]
  simp only [appendErrors, bind_eq_ok]
  constructor
  · rintro ⟨errors, herrors, early, hearly, hnil⟩
    simp only [pure, Except.pure, Except.ok.injEq, List.append_eq_nil_iff, require_eq_nil,
      decide_eq_true_eq, Bool.not_eq_true'] at hnil
    obtain ⟨⟨rfl, rfl⟩, hcount⟩ := hnil
    obtain ⟨event, hvalid, hreads, hseq⟩ := validateEvent_eq_nil.1 herrors
    rw [hless hreads] at hearly
    simp only [Except.ok.injEq, decide_eq_false_iff_not, not_lt] at hearly
    exact ⟨event, hvalid, hreads, hseq _ rfl, hearly, hcount⟩
  · rintro ⟨event, hvalid, hreads, hseq, hearly, hcount⟩
    refine ⟨[], validateEvent_eq_nil.2 ⟨event, hvalid, hreads, by simpa using hseq⟩, false, ?_, ?_⟩
    · rw [hless hreads]
      simpa using hearly
    · simp [hcount, require, pure, Except.pure]

/-- Reading the value's `seq` as text or its `t` as a number throws. -/
def conversionFails (value : Json) : Bool :=
  value.isPlainObject &&
    ((value.field (js "seq")).any Json.conversionThrows ||
      (value.field (js "t")).any Json.conversionThrows)

theorem toText_eq_error {P : Platform} {value : Option Json} :
    (∃ thrown, P.toText value = .error thrown) ↔ value.any Json.conversionThrows = true := by
  cases value with
  | none => simp [Platform.toText]
  | some value =>
      unfold Platform.toText
      simp only [Option.any_some]
      split <;> simp_all

theorem validateEvent_eq_error {P : Platform} {value : Json} {expected : Nat} :
    (∃ thrown, validateEvent P value (some expected) = .error thrown) ↔
      value.isPlainObject = true ∧
        (value.field (js "seq")).any Json.conversionThrows = true := by
  have hseq : (∃ thrown, validateSeq P (value.field (js "seq")) (some expected) =
      .error thrown) ↔ (value.field (js "seq")).any Json.conversionThrows = true := by
    rw [← toText_eq_error (P := P)]
    simp only [validateSeq]
    split
    · rename_i hnumber
      cases hfield : value.field (js "seq") with
      | none => simp [hfield, Json.number?] at hnumber
      | some seq =>
          cases seq with
          | num x => simp [Platform.toText, Json.conversionThrows]
          | null => simp [hfield, Json.number?] at hnumber
          | bool flag => simp [hfield, Json.number?] at hnumber
          | str text => simp [hfield, Json.number?] at hnumber
          | arr values => simp [hfield, Json.number?] at hnumber
          | obj fields => simp [hfield, Json.number?] at hnumber
    · cases P.toText (value.field (js "seq")) <;> simp [Except.map]
  rw [← hseq]
  unfold validateEvent
  split
  · simp_all
  · cases validateSeq P (value.field (js "seq")) (some expected) <;> simp_all [Except.map]

/-- The check of a value throws exactly when a conversion fails, whatever came before. -/
theorem appendErrors_eq_error {P : Platform} {verifier : EventStreamVerifier} {value : Json} :
    (∃ thrown, verifier.appendErrors P value = .error thrown) ↔
      conversionFails value = true := by
  have hless : (∃ thrown, P.less (value.field (js "t")) (some (Json.ofInt verifier.lastTime)) =
      .error thrown) ↔
        value.isPlainObject = true ∧ (value.field (js "t")).any Json.conversionThrows = true := by
    have hobject : (value.field (js "t")).any Json.conversionThrows = true →
        value.isPlainObject = true := by
      cases value <;> simp [Json.field, Json.isPlainObject]
    have hlast : Json.conversionThrows (Json.ofInt verifier.lastTime) = false := by
      simp [Json.ofInt, Json.conversionThrows]
    rw [and_iff_right_of_imp hobject]
    unfold Platform.less
    simp only [Option.any_some, hlast, Bool.or_false]
    split
    · simp_all
    · rename_i hfalse
      simp only [hfalse]
      split <;> simp
  have hevent := @validateEvent_eq_error P value verifier.count
  simp only [conversionFails, Bool.and_eq_true, Bool.or_eq_true, and_or_left]
  rw [← hless, ← hevent]
  unfold appendErrors
  cases validateEvent P value (some verifier.count) with
  | error thrown => simp [bind, Except.bind]
  | ok errors =>
      cases P.less (value.field (js "t")) (some (Json.ofInt verifier.lastTime)) with
      | error thrown => simp [bind, Except.bind]
      | ok early => simp [bind, Except.bind, pure, Except.pure]

/-- A failure has a text, so it is truthy. -/
theorem appendErrors_ne_nil {P : Platform} {verifier : EventStreamVerifier} {value : Json}
    {errors : List JsString} (h : verifier.appendErrors P value = .ok errors) :
    ∀ message ∈ errors, message ≠ [] := by
  simp only [appendErrors, bind_eq_ok] at h
  obtain ⟨eventErrors, hevent, early, -, herrors⟩ := h
  simp only [pure, Except.pure, Except.ok.injEq] at herrors
  subst herrors
  intro message hmessage
  simp only [List.mem_append, mem_require] at hmessage
  rcases hmessage with (hmessage | ⟨-, rfl⟩) | ⟨-, rfl⟩
  · exact validateEvent_messages hevent message hmessage
  · exact List.append_ne_nil_of_left_ne_nil (List.append_ne_nil_of_left_ne_nil (by decide) _) _
  · decide

/-- One append: accepted, or rejected for good, or thrown without a trace. -/
theorem append_cases {P : Platform} {manifest : Json} {values : List Json}
    {events : List BufferMutation} {verifier : EventStreamVerifier}
    (hmanifest : validateManifest P manifest = [])
    (h : Accepts P manifest values events verifier) (value : Json) :
    (∃ event next, ReadsAs value event ∧ ValidLog (events ++ [event]) ∧
      values.length < manifest.natAt (js "event_count") ∧
      verifier.append P value = (next, .ok ()) ∧
      Accepts P manifest (values ++ [value]) (events ++ [event]) next) ∨
    ((∃ thrown, (verifier.append P value).2 = .error thrown) ∧
      (∀ event, ReadsAs value event → ValidLog (events ++ [event]) →
        manifest.natAt (js "event_count") ≤ values.length) ∧
      ((conversionFails value = true ∧ (verifier.append P value).1 = verifier) ∨
        (conversionFails value = false ∧ (verifier.append P value).1.failed = true))) := by
  obtain ⟨version, sessionId, count, duration, hreadsManifest⟩ := manifestReads_of_valid hmanifest
  have hlength : events.length = values.length := h.reads.length_eq.symm
  have acceptable : verifier.appendErrors P value = .ok [] ↔
      ∃ event, ReadsAs value event ∧ ValidLog (events ++ [event]) ∧
        values.length < manifest.natAt (js "event_count") := by
    rw [appendErrors_eq_nil, h.count, h.manifest_eq, h.lastTime]
    constructor
    · rintro ⟨event, hvalid, hreads, hseq, htime, hcount⟩
      refine ⟨event, hreads, validLog_concat.2 ⟨h.validLog, hvalid, by omega, ?_⟩, hcount⟩
      intro last hlast
      simp only [Option.mem_def.1 hlast, Option.map_some, Option.getD_some] at htime
      omega
    · rintro ⟨event, hreads, hlog, hcount⟩
      obtain ⟨-, hvalid, hseq, htime⟩ := validLog_concat.1 hlog
      refine ⟨event, hvalid, hreads, by omega, ?_, hcount⟩
      cases hlast : events.getLast? with
      | none => simp
      | some last =>
          have := htime last hlast
          simp only [Option.map_some, Option.getD_some]
          omega
  cases herrors : verifier.appendErrors P value with
  | error thrown =>
      right
      have hfails : conversionFails value = true := appendErrors_eq_error.1 ⟨thrown, herrors⟩
      have happend : verifier.append P value = (verifier, .error thrown) := by
        simp [append, h.failed, herrors]
      refine ⟨⟨thrown, by rw [happend]⟩, ?_, Or.inl ⟨hfails, by rw [happend]⟩⟩
      intro event hreads hlog
      by_contra hcount
      have := acceptable.2 ⟨event, hreads, hlog, by omega⟩
      rw [herrors] at this
      cases this
  | ok errors =>
      have hconverts : conversionFails value = false := by
        by_contra hfails
        obtain ⟨thrown, hthrown⟩ := appendErrors_eq_error.2 (by simpa using hfails)
        rw [hthrown] at herrors
        cases herrors
      cases errors with
      | nil =>
          left
          obtain ⟨event, hreads, hlog, hcount⟩ := acceptable.1 herrors
          obtain ⟨-, hvalid, hseq, -⟩ := validLog_concat.1 hlog
          have hadvance : advanceEventHash P verifier.tip value
              (verifier.manifest.textAt (js "session_id")) (manifestVersion verifier.manifest) =
              .ok ((eventScheme P).advance (chainStart (manifest.textAt (js "session_id"))
                (manifestVersion manifest)) verifier.tip event) := by
            rw [h.manifest_eq, advanceEventHash_ok]
            refine ⟨by rw [hreadsManifest.textAt_sessionId]; exact hreadsManifest.uuid, event,
              hvalid, hreads, ?_, rfl⟩
            rw [h.tip, eventTip, ChainScheme.tip_eq_none, hseq, List.length_eq_zero_iff]
          have happend : verifier.append P value =
              ({ verifier with
                  tip := some ((eventScheme P).advance
                    (chainStart (manifest.textAt (js "session_id")) (manifestVersion manifest))
                    verifier.tip event)
                  lastTime := value.natAt (js "t")
                  count := verifier.count + 1 }, .ok ()) := by
            simp [append, h.failed, herrors, hadvance]
          exact ⟨event, _, hreads, hlog, hcount, happend, {
              manifest_eq := h.manifest_eq
              failure := h.failure
              count := by simp [h.count]
              reads := List.rel_append h.reads (.cons hreads .nil)
              validLog := hlog
              bounded := by simpa [Nat.succ_le_iff] using hcount
              tip := by
                simp only [h.tip, eventTip, ChainScheme.tip_concat]
              lastTime := by
                simp [natAt_t_of_readsAs hreads] }⟩
      | cons message messages =>
          right
          have happend : verifier.append P value =
              ({ verifier with failure := some (joinWith (js "; ") (message :: messages)) },
                .error (.typeError (joinWith (js "; ") (message :: messages)))) := by
            simp [append, h.failed, herrors]
          have htext : joinWith (js "; ") (message :: messages) ≠ [] :=
            joinWith_ne_nil (appendErrors_ne_nil herrors message (by simp)) messages
          refine ⟨⟨_, by rw [happend]⟩, ?_, Or.inr ⟨hconverts, ?_⟩⟩
          · intro event hreads hlog
            by_contra hcount
            have := acceptable.2 ⟨event, hreads, hlog, by omega⟩
            rw [herrors] at this
            cases this
          · rw [happend]
            simpa [failed] using htext

/-- A valid end reports a hash. -/
theorem finish_reports {P : Platform} {verifier : EventStreamVerifier}
    {result : VerificationResult} (h : verifier.finish P = .ok result)
    (hvalid : result.valid = true) : ∃ hash, result.computedRecordHash = some hash := by
  simp only [finish, bind_eq_ok] at h
  obtain ⟨computed, hcomputed, hresult⟩ := h
  simp only [pure, Except.pure, Except.ok.injEq] at hresult
  subst hresult
  simp only [List.isEmpty_iff, finishErrors, List.append_eq_nil_iff, require_eq_nil] at hvalid
  obtain ⟨tip, htip⟩ := Option.isSome_iff_exists.1 hvalid.1.1.2
  rw [sealedHash, htip] at hcomputed
  cases hsealed : sealManifest P verifier.manifest tip with
  | error thrown => simp [hsealed, Except.map] at hcomputed
  | ok sealed =>
      simp only [hsealed, Except.map, Except.ok.injEq] at hcomputed
      exact ⟨sealed, hcomputed.symm⟩

/-- Finishing an accepted prefix verifies the record of that prefix. -/
theorem finish_valid {P : Platform} {manifest : Json} {values : List Json}
    {events : List BufferMutation} {verifier : EventStreamVerifier}
    (hmanifest : validateManifest P manifest = [])
    (h : Accepts P manifest values events verifier) {hash : B3Hash} :
    (∃ result, verifier.finish P = .ok result ∧ result.valid = true ∧
      result.computedRecordHash = some hash) ↔ RecordHolds P manifest values hash := by
  obtain ⟨version, sessionId, count, duration, hreads⟩ := manifestReads_of_valid hmanifest
  have huuid : isUuid (manifest.textAt (js "session_id")) = true := by
    rw [hreads.textAt_sessionId]
    exact hreads.uuid
  have hlength : events.length = values.length := h.reads.length_eq.symm
  have hseal : ∀ {tip}, verifier.tip = some tip →
      computeRecordHash P values (manifest.textAt (js "session_id")) (manifestVersion manifest)
        (manifest.field (js "text_binding")) (manifestFinalization manifest) =
      sealManifest P manifest tip := by
    intro tip htip
    exact computeRecordHash_eq huuid h.reads h.validLog (by rw [← h.tip, htip]) _ _
  have htipNone : verifier.tip = none ↔ values = [] := by
    rw [h.tip, eventTip, ChainScheme.tip_eq_none, ← List.length_eq_zero_iff, hlength,
      List.length_eq_zero_iff]
  have htime : verifier.lastTime ≤ (manifest.natAt (js "duration_ms") : Int) ↔
      ∀ value ∈ values.getLast?, value.natAt (js "t") ≤ manifest.natAt (js "duration_ms") := by
    rw [h.lastTime]
    cases hlast : values.getLast? with
    | none =>
        have hnil : events = [] := by
          rw [List.getLast?_eq_none_iff.1 hlast, List.length_nil] at hlength
          exact List.length_eq_zero_iff.1 hlength
        simp [hnil]
    | some value =>
        obtain ⟨values', rfl⟩ := List.getLast?_eq_some_iff.1 hlast
        obtain ⟨events', event, rfl, hevent, -⟩ := readsAsLog_concat h.reads
        simp [natAt_t_of_readsAs hevent]
  constructor
  · rintro ⟨result, hresult, hvalid, hhash⟩
    simp only [finish, bind_eq_ok] at hresult
    obtain ⟨computed, hcomputed, hresult⟩ := hresult
    simp only [pure, Except.pure, Except.ok.injEq] at hresult
    subst hresult
    simp only at hhash
    subst hhash
    simp only [List.isEmpty_iff, finishErrors, List.append_eq_nil_iff, require_eq_nil,
      h.manifest_eq, h.count, decide_eq_true_eq, Option.map_some, Option.getD_some,
      recordHashErrors, beq_iff_eq] at hvalid
    obtain ⟨⟨⟨⟨-, hcount⟩, htip⟩, hduration⟩, hrecorded⟩ := hvalid
    obtain ⟨tip, htip⟩ := Option.isSome_iff_exists.1 htip
    rw [sealedHash, htip] at hcomputed
    refine ⟨hmanifest, ⟨events, h.reads, h.validLog⟩, ?_, hcount.symm, htime.1 hduration, ?_,
      hrecorded⟩
    · intro hnil
      rw [htipNone.2 hnil] at htip
      cases htip
    · rw [hseal htip]
      cases hsealed : sealManifest P manifest tip with
      | error thrown => simp [h.manifest_eq, hsealed, Except.map] at hcomputed
      | ok sealed => simpa [h.manifest_eq, hsealed, Except.map] using hcomputed
  · rintro ⟨-, -, hne, hcount, hduration, hcomputed, hrecorded⟩
    obtain ⟨tip, htip⟩ : ∃ tip, verifier.tip = some tip :=
      Option.ne_none_iff_exists'.1 fun hnone => hne (htipNone.1 hnone)
    rw [hseal htip] at hcomputed
    refine ⟨⟨true, [], some hash, none⟩, ?_, rfl, rfl⟩
    have herrors : verifier.finishErrors (some hash) = [] := by
      simp [finishErrors, require, h.failed, h.count, h.manifest_eq, hcount, htip,
        htime.2 hduration, recordHashErrors, hrecorded]
    simp [finish, sealedHash, htip, h.manifest_eq, hcomputed, herrors, bind, Except.bind, pure, Except.pure,
      Except.map]

/-! ## Rejection -/

/-- Nothing that is appended from here on is accepted, and the end is not valid. -/
def Rejects (P : Platform) (verifier : EventStreamVerifier) : Prop :=
  (∀ value, ∃ thrown, (verifier.append P value).2 = .error thrown) ∧
    ∀ result, verifier.finish P = .ok result → result.valid = false

/-- A failure has been latched, or the declared count is reached by a prefix
that does not verify. -/
def Poisoned (P : Platform) (manifest : Json) (verifier : EventStreamVerifier) : Prop :=
  verifier.failed = true ∨
    ∃ values events, Accepts P manifest values events verifier ∧
      values.length = manifest.natAt (js "event_count") ∧
      ∀ hash, ¬ RecordHolds P manifest values hash

theorem rejects_of_poisoned {P : Platform} {manifest : Json} {verifier : EventStreamVerifier}
    (hmanifest : validateManifest P manifest = []) (h : Poisoned P manifest verifier) :
    Rejects P verifier := by
  rcases h with hfailed | ⟨values, events, haccepts, hfull, hrecord⟩
  · constructor
    · intro value
      exact ⟨_, by rw [append, if_pos hfailed]⟩
    · intro result hresult
      simp only [finish, bind_eq_ok] at hresult
      obtain ⟨computed, -, hresult⟩ := hresult
      simp only [pure, Except.pure, Except.ok.injEq] at hresult
      subst hresult
      simp [finishErrors, hfailed, require]
  · constructor
    · intro value
      rcases append_cases hmanifest haccepts value with
        ⟨event, next, -, -, hcount, -⟩ | ⟨hrejected, -⟩
      · omega
      · exact hrejected
    · intro result hresult
      by_contra hvalid
      rw [Bool.not_eq_false] at hvalid
      obtain ⟨hash, hhash⟩ := finish_reports hresult hvalid
      exact hrecord hash ((finish_valid hmanifest haccepts).1 ⟨result, hresult, hvalid, hhash⟩)

theorem poisoned_append {P : Platform} {manifest : Json} {verifier : EventStreamVerifier}
    (hmanifest : validateManifest P manifest = []) (h : Poisoned P manifest verifier)
    (value : Json) : Poisoned P manifest (verifier.append P value).1 := by
  rcases h with hfailed | ⟨values, events, haccepts, hfull, hrecord⟩
  · left
    rwa [append, if_pos hfailed]
  · rcases append_cases hmanifest haccepts value with
      ⟨event, next, -, -, hcount, -⟩ | ⟨-, -, ⟨-, hsame⟩ | ⟨-, hfailed⟩⟩
    · omega
    · rw [hsame]
      exact Or.inr ⟨values, events, haccepts, hfull, hrecord⟩
    · exact Or.inl hfailed

theorem poisoned_feed {P : Platform} {manifest : Json} {verifier : EventStreamVerifier}
    (hmanifest : validateManifest P manifest = []) (h : Poisoned P manifest verifier)
    (values : List Json) : Poisoned P manifest (verifier.feed P values) := by
  induction values generalizing verifier with
  | nil => exact h
  | cons value values ih => exact ih (poisoned_append hmanifest h value)

/-! ## Whole runs -/

theorem accepts_of_appendAll {P : Platform} {manifest : Json} {before values : List Json}
    {events : List BufferMutation} {verifier last : EventStreamVerifier}
    (hmanifest : validateManifest P manifest = [])
    (h : Accepts P manifest before events verifier)
    (hall : verifier.appendAll P values = .ok last) :
    ∃ events', Accepts P manifest (before ++ values) events' last := by
  induction values generalizing before events verifier with
  | nil =>
      simp only [appendAll, Except.ok.injEq] at hall
      rw [List.append_nil, ← hall]
      exact ⟨events, h⟩
  | cons value values ih =>
      rcases append_cases hmanifest h value with
        ⟨event, next, -, -, -, happend, hnext⟩ | ⟨⟨thrown, hthrown⟩, -⟩
      · simp only [appendAll, happend] at hall
        simpa using ih hnext hall
      · rw [appendAll] at hall
        split at hall
        · simp at hall
        · rename_i happend
          simp [happend] at hthrown

theorem appendAll_of_accepts {P : Platform} {manifest : Json} {before values : List Json}
    {events more : List BufferMutation} {verifier : EventStreamVerifier}
    (hmanifest : validateManifest P manifest = [])
    (h : Accepts P manifest before events verifier) (hmore : ReadsAsLog values more)
    (hvalid : ValidLog (events ++ more))
    (hcount : (before ++ values).length ≤ manifest.natAt (js "event_count")) :
    verifier.appendAll P values = .ok (verifier.feed P values) ∧
      Accepts P manifest (before ++ values) (events ++ more) (verifier.feed P values) := by
  induction hmore generalizing before events verifier with
  | nil => simpa [appendAll, feed] using h
  | @cons value event values more hreads _ ih =>
      have hfront : ValidLog (events ++ [event]) := by
        rw [List.append_cons] at hvalid
        exact hvalid.of_append
      rcases append_cases hmanifest h value with
        ⟨event', next, hreads', -, -, happend, hnext⟩ | ⟨-, hreject, -⟩
      · have hevent : event' = event := by
          rw [← readEvent_of_readsAs hreads, readEvent_of_readsAs hreads']
        subst hevent
        have hfeed : verifier.feed P (value :: values) = next.feed P values := by
          simp [feed, happend]
        rw [hfeed, appendAll, happend, List.append_cons before, List.append_cons events]
        exact ih hnext (by simpa using hvalid) (by simpa using hcount)
      · have := hreject event hreads hfront
        simp only [List.length_append, List.length_cons] at hcount
        omega

theorem streamRecord_valid {P : Platform} {manifest : Json} {values : List Json}
    {hash : B3Hash} :
    (∃ result, streamRecord P manifest values = .ok result ∧ result.valid = true ∧
      result.computedRecordHash = some hash) ↔ RecordHolds P manifest values hash := by
  constructor
  · rintro ⟨result, hresult, hvalid, hhash⟩
    simp only [streamRecord, bind_eq_ok, construct_eq_ok] at hresult
    obtain ⟨first, ⟨hmanifest, rfl⟩, last, hall, hfinish⟩ := hresult
    obtain ⟨events, haccepts⟩ :=
      accepts_of_appendAll hmanifest (accepts_nil P manifest) hall
    exact (finish_valid hmanifest haccepts).1 ⟨result, hfinish, hvalid, hhash⟩
  · intro hrecord
    obtain ⟨events, hreads, hlog⟩ := hrecord.logValid
    obtain ⟨hall, haccepts⟩ := appendAll_of_accepts hrecord.manifestValid
      (accepts_nil P manifest) hreads hlog hrecord.count.ge
    obtain ⟨result, hfinish, hvalid, hhash⟩ :=
      (finish_valid hrecord.manifestValid haccepts).2 hrecord
    refine ⟨result, ?_, hvalid, hhash⟩
    simp only [streamRecord, bind_eq_ok, construct_eq_ok]
    exact ⟨_, ⟨hrecord.manifestValid, rfl⟩, _, hall, hfinish⟩

theorem streamRecord_reports {P : Platform} {manifest : Json} {values : List Json}
    {result : VerificationResult} (h : streamRecord P manifest values = .ok result)
    (hvalid : result.valid = true) : ∃ hash, result.computedRecordHash = some hash := by
  simp only [streamRecord, bind_eq_ok] at h
  obtain ⟨first, -, last, -, hfinish⟩ := h
  exact finish_reports hfinish hvalid

/-- The next event that a log of this length and end can always go on with. -/
def nextEvent (events : List BufferMutation) : BufferMutation where
  seq := events.length
  t := (events.getLast?.map BufferMutation.t).getD 0
  op := .insert
  pos := none
  delLen := none
  insLen := none
  source := .unknown

theorem validLog_nextEvent {events : List BufferMutation} (h : ValidLog events)
    (hlength : events.length ≤ maxIntegerFieldValue) : ValidLog (events ++ [nextEvent events]) := by
  refine validLog_concat.2 ⟨h, ⟨hlength, ?_, by simp [nextEvent], by simp [nextEvent],
    by simp [nextEvent], by simp [nextEvent, sizesAgree]⟩, rfl, ?_⟩
  · cases hlast : events.getLast? with
    | none => simp [nextEvent, hlast, maxTimeFieldValue]
    | some last =>
        simpa [nextEvent, hlast] using (h.valid last (List.mem_of_getLast? hlast)).t_le
  · intro last hlast
    simp [nextEvent, Option.mem_def.1 hlast]

/-! ## Agreement -/

/-- The verifier and `verifyRecord` agree on the values, and a value that is
rejected poisons the verifier whatever is appended later. -/
structure StreamingAgrees (P : Platform) (manifest : Json) (values : List Json) : Prop where
  valid_iff : (∃ result, streamRecord P manifest values = .ok result ∧ result.valid = true) ↔
    ∃ result, verifyRecord P manifest values = .ok result ∧ result.valid = true
  sameHash : ∀ streamed whole, streamRecord P manifest values = .ok streamed →
    streamed.valid = true → verifyRecord P manifest values = .ok whole → whole.valid = true →
    streamed.computedRecordHash = whole.computedRecordHash
  poisons : ∀ verifier, construct P manifest = .ok verifier →
    ∀ before value after, values = before ++ value :: after →
      (∃ thrown, ((verifier.feed P before).append P value).2 = .error thrown) →
      ∀ later, Rejects P (verifier.feed P (before ++ value :: later))

/-- No value comes whose `seq` or `t` cannot be converted, as long as the
values before it can still grow into, or already are, a valid record. -/
def RejectionsLatch (P : Platform) (manifest : Json) (values : List Json) : Prop :=
  validateManifest P manifest = [] →
    ∀ before value after, values = before ++ value :: after →
      (∃ events, ReadsAsLog before events ∧ ValidLog events) →
      before.length ≤ manifest.natAt (js "event_count") → conversionFails value = true →
      before.length = manifest.natAt (js "event_count") ∧
        ∀ hash, ¬ RecordHolds P manifest before hash

theorem feed_append {P : Platform} (verifier : EventStreamVerifier) (xs ys : List Json) :
    verifier.feed P (xs ++ ys) = (verifier.feed P xs).feed P ys := by
  simp [feed]

/-- A rejection poisons the verifier, when a failed conversion comes too late to matter. -/
theorem poisoned_of_rejected {P : Platform} {manifest : Json} {before : List Json}
    {events : List BufferMutation} {verifier : EventStreamVerifier} {value : Json}
    (hmanifest : validateManifest P manifest = [])
    (h : Accepts P manifest before events verifier)
    (hthrown : ∃ thrown, (verifier.append P value).2 = .error thrown)
    (hlatch : conversionFails value = true →
      before.length = manifest.natAt (js "event_count") ∧
        ∀ hash, ¬ RecordHolds P manifest before hash) :
    Poisoned P manifest (verifier.append P value).1 := by
  rcases append_cases hmanifest h value with
    ⟨event, next, -, -, -, happend, -⟩ | ⟨-, -, ⟨hfails, hsame⟩ | ⟨-, hfailed⟩⟩
  · obtain ⟨thrown, hthrown⟩ := hthrown
    rw [happend] at hthrown
    cases hthrown
  · obtain ⟨hfull, hrecord⟩ := hlatch hfails
    rw [hsame]
    exact Or.inr ⟨before, events, h, hfull, hrecord⟩
  · exact Or.inl hfailed

theorem feed_concat {P : Platform} (verifier : EventStreamVerifier) (values : List Json)
    (value : Json) :
    verifier.feed P (values ++ [value]) = ((verifier.feed P values).append P value).1 := by
  simp [feed]

/-- Along a run the verifier has accepted everything so far or is poisoned. -/
theorem feed_accepts_or_poisoned {P : Platform} {manifest : Json} {values : List Json}
    (hmanifest : validateManifest P manifest = []) (hlatch : RejectionsLatch P manifest values)
    {verifier : EventStreamVerifier} (hstart : Accepts P manifest [] [] verifier)
    (before after : List Json) (hvalues : values = before ++ after) :
    (∃ events, Accepts P manifest before events (verifier.feed P before)) ∨
      Poisoned P manifest (verifier.feed P before) := by
  induction before using List.reverseRecOn generalizing after with
  | nil => exact Or.inl ⟨[], hstart⟩
  | append_singleton before value ih =>
      rw [List.append_assoc, List.singleton_append] at hvalues
      rw [feed_concat]
      rcases ih (value :: after) hvalues with ⟨events, haccepts⟩ | hpoisoned
      · rcases append_cases hmanifest haccepts value with
          ⟨event, next, -, -, -, happend, hnext⟩ | ⟨hthrown, -⟩
        · rw [happend]
          exact Or.inl ⟨_, hnext⟩
        · exact Or.inr (poisoned_of_rejected hmanifest haccepts hthrown
            (hlatch hmanifest before value after hvalues
              ⟨events, haccepts.reads, haccepts.validLog⟩ haccepts.bounded))
      · exact Or.inr (poisoned_append hmanifest hpoisoned value)

/-- The verifiers agree on the values exactly when no conversion fails too early. -/
theorem streamingAgrees_iff (P : Platform) (manifest : Json) (values : List Json) :
    StreamingAgrees P manifest values ↔ RejectionsLatch P manifest values := by
  constructor
  · rintro ⟨-, -, hpoisons⟩ hmanifest before value after hvalues ⟨events, hreads, hlog⟩ hbound hfails
    obtain ⟨-, haccepts⟩ := appendAll_of_accepts hmanifest (accepts_nil P manifest) hreads
      (by simpa using hlog) (by simpa using hbound)
    rw [List.nil_append, List.nil_append] at haccepts
    set first : EventStreamVerifier :=
      { manifest, count := 0, lastTime := -1, tip := none, failure := none } with hfirst
    have hsame : ((first.feed P before).append P value).1 = first.feed P before ∧
        ∃ thrown, ((first.feed P before).append P value).2 = .error thrown := by
      obtain ⟨thrown, hthrown⟩ := appendErrors_eq_error.2 hfails
      rw [append, haccepts.failed, hthrown]
      exact ⟨rfl, thrown, rfl⟩
    have hrejects : Rejects P (first.feed P before) := by
      have := hpoisons first (construct_eq_ok.2 ⟨hmanifest, hfirst⟩) before value after hvalues
        hsame.2 []
      rwa [feed_concat, hsame.1] at this
    obtain ⟨version, sessionId, count, duration, hmanifestReads⟩ :=
      manifestReads_of_valid hmanifest
    have hcountLe : manifest.natAt (js "event_count") ≤ maxIntegerFieldValue := by
      rw [hmanifestReads.natAt_eventCount]
      exact hmanifestReads.eventCount_le
    have hlength : events.length = before.length := hreads.length_eq.symm
    constructor
    · have hnext := validLog_nextEvent hlog (by omega)
      rcases append_cases hmanifest haccepts (nextEvent events).toJson with
        ⟨_, next, -, -, -, happend, -⟩ | ⟨-, hreject, -⟩
      · obtain ⟨thrown, hthrown⟩ := hrejects.1 (nextEvent events).toJson
        rw [happend] at hthrown
        cases hthrown
      · have := hreject _ (readsAs_toJson _) hnext
        omega
    · intro hash hrecord
      obtain ⟨result, hfinish, hvalid, -⟩ := (finish_valid hmanifest haccepts).2 hrecord
      rw [hrejects.2 result hfinish] at hvalid
      cases hvalid
  · intro hlatch
    constructor
    · constructor
      · rintro ⟨result, hresult, hvalid⟩
        obtain ⟨hash, hhash⟩ := streamRecord_reports hresult hvalid
        obtain ⟨whole, hwhole, hwholeValid, -⟩ :=
          verifyRecord_valid.2 (streamRecord_valid.1 ⟨result, hresult, hvalid, hhash⟩)
        exact ⟨whole, hwhole, hwholeValid⟩
      · rintro ⟨result, hresult, hvalid⟩
        obtain ⟨hash, hhash⟩ := verifyRecord_reports hresult hvalid
        obtain ⟨streamed, hstreamed, hstreamedValid, -⟩ :=
          streamRecord_valid.2 (verifyRecord_valid.1 ⟨result, hresult, hvalid, hhash⟩)
        exact ⟨streamed, hstreamed, hstreamedValid⟩
    · intro streamed whole hstreamed hstreamedValid hwhole hwholeValid
      obtain ⟨hash, hhash⟩ := streamRecord_reports hstreamed hstreamedValid
      obtain ⟨whole', hwhole', -, hhash'⟩ :=
        verifyRecord_valid.2 (streamRecord_valid.1 ⟨streamed, hstreamed, hstreamedValid, hhash⟩)
      rw [hwhole] at hwhole'
      cases hwhole'
      rw [hhash, hhash']
    · intro verifier hconstruct before value after hvalues hthrown later
      obtain ⟨hmanifest, rfl⟩ := construct_eq_ok.1 hconstruct
      apply rejects_of_poisoned hmanifest
      rw [List.append_cons, feed_append, feed_concat]
      apply poisoned_feed hmanifest
      rcases feed_accepts_or_poisoned hmanifest hlatch (accepts_nil P manifest) before
        (value :: after) hvalues with ⟨events, haccepts⟩ | hpoisoned
      · exact poisoned_of_rejected hmanifest haccepts hthrown
          (hlatch hmanifest before value after hvalues
            ⟨events, haccepts.reads, haccepts.validLog⟩ haccepts.bounded)
      · exact poisoned_append hmanifest hpoisoned value

/-! ## A value that leaves no failure behind -/

/-- A valid manifest that declares one event. -/
def oneEventManifest : Json :=
  .obj [(js "format_version", .str (js "0.1")),
    (js "record_hash",
      .str (js "b3:5e995fa7fb12582f9a9a94adc9d52975fc314b116f250b95d6fec01f4c2aca04")),
    (js "session_id", .str (js "123e4567-e89b-42d3-a456-426614174000")),
    (js "producer", .obj [(js "id", .str (js "fixture")), (js "version", .str (js "0.1.0")),
      (js "capabilities", .arr [])]),
    (js "event_count", Json.ofNat 1), (js "duration_ms", Json.ofNat 0),
    (js "created_client_t", .null), (js "ingested_server_t", .null),
    (js "parent_record", .null), (js "attestations", .arr [])]

/-- `{"seq": {"toString": 0}}`. -/
def unprintableSeq : Json := .obj [(js "seq", .obj [(js "toString", Json.ofNat 0)])]

theorem validateManifest_oneEvent :
    validateManifest Platform.standard oneEventManifest = [] := by
  decide +kernel

/-- The first append throws, and the one after it is accepted. -/
theorem not_streamingAgrees_unprintableSeq :
    ¬ StreamingAgrees Platform.standard oneEventManifest [unprintableSeq] := by
  intro hagrees
  have hconstruct : construct Platform.standard oneEventManifest =
      .ok { manifest := oneEventManifest, count := 0, lastTime := -1, tip := none,
            failure := none } :=
    construct_eq_ok.2 ⟨validateManifest_oneEvent, rfl⟩
  have hrejects := hagrees.poisons _ hconstruct [] unprintableSeq [] rfl
    ⟨Json.conversionError, rfl⟩ []
  obtain ⟨thrown, hthrown⟩ := hrejects.1 (nextEvent []).toJson
  have haccepted : ((feed Platform.standard
      { manifest := oneEventManifest, count := 0, lastTime := -1, tip := none, failure := none }
      ([] ++ [unprintableSeq])).append Platform.standard (nextEvent []).toJson).2 = .ok () := rfl
  rw [haccepted] at hthrown
  cases hthrown

end EventStreamVerifier

end Pmbah.Format
