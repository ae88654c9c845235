import Pmbah.Producer.World

/-!
# How a call goes

The ways that the methods shared by many calls can end, once for each method: what they
have looked at, and what they leave of the registry.
-/

namespace Pmbah.Producer

open Js Format Library

variable {options : RegistryOptions} {registry next : Registry}

/-- Every session is kept under its own id. -/
def Keyed (registry : Registry) : Prop :=
  ∀ id record, registry.get id = some record → record.sessionId = id

theorem get_of_mem_values (hkeyed : Keyed registry) {record : SessionRecord}
    (h : record ∈ registry.sessions.values) : registry.get record.sessionId = some record := by
  obtain ⟨key, hkey⟩ := OrderedMap.mem_values_iff.1 h
  have hid : record.sessionId = key := hkeyed key record hkey
  rwa [hid]

theorem Keyed.map_sessionId (hkeyed : Keyed registry) :
    registry.sessions.values.map SessionRecord.sessionId = registry.sessions.keys := by
  unfold OrderedMap.values OrderedMap.keys
  rw [List.map_map]
  apply List.map_congr_left
  intro entry hentry
  exact hkeyed entry.1 entry.2 (OrderedMap.mem_entries_iff.1 hentry)

@[simp] theorem get_removeSession (registry : Registry) (id other : JsString) :
    (removeSession registry id).get other =
      if other = id then none else registry.get other :=
  OrderedMap.get?_delete _ _ _

/-! ## Requiring a state -/

/-- A session that is there is marked, allowed or not. -/
theorem requireInState_cases (registry : Registry) (id : JsString)
    (allowed : List SessionState) :
    (requireInState registry id allowed).1 = registry ∨
      (requireInState registry id allowed).1 = registry.touch id := by
  unfold requireInState
  split
  · exact .inl rfl
  · split
    · exact .inr rfl
    · exact .inr rfl

theorem requireInState_ok {id : JsString} {allowed : List SessionState}
    {record : SessionRecord} (h : requireInState registry id allowed = (next, .ok record)) :
    next = registry.touch id ∧ registry.get id = some record ∧ record.state ∈ allowed := by
  unfold requireInState at h
  split at h
  · simp at h
  · rename_i found hfound
    split at h
    · rename_i hallowed
      simp only [Prod.mk.injEq, Except.ok.injEq] at h
      obtain ⟨rfl, rfl⟩ := h
      exact ⟨rfl, hfound, by simpa using hallowed⟩
    · simp at h

/-! ## Finding -/

theorem resolveSession_existing {origin : FieldOrigin} {descriptor : FieldDescriptor}
    {existing : List SessionRecord} {id : JsString} {certainty : IdentityCertainty}
    (h : resolveSession origin descriptor existing = .existing id certainty) :
    ∃ record ∈ existing, record.sessionId = id := by
  unfold resolveSession at h
  simp only at h
  split at h
  · rename_i exact' hfind
    injection h with hid _
    exact ⟨exact', List.mem_of_mem_filter (List.mem_of_find?_eq_some hfind), hid⟩
  · split at h
    · cases h
    · cases h

/-- `findOrCreate` refuses a time, creates a session, or finds one and describes it anew. -/
inductive FoundBy (options : RegistryOptions) (registry : Registry) (uuid : JsString) :
    Registry → Prop where
  | refused : FoundBy options registry uuid registry
  | created {sessionId : JsString} {origin : FieldOrigin} {descriptor : FieldDescriptor}
      {captureSurface : JsString} {certainty : IdentityCertainty} {now : Int} {gap : Bool}
      (hid : Keyed registry → sessionId = uuid) :
      FoundBy options registry uuid (insertNew registry (newRecord options registry.nextId
        sessionId origin descriptor captureSurface certainty now now gap none))
  | found {id : JsString} {record : SessionRecord} {origin : FieldOrigin}
      {descriptor : FieldDescriptor} {certainty : IdentityCertainty} {now : Int}
      (hget : registry.get id = some record) :
      FoundBy options registry uuid ((registry.put id
        { record with
          identityCertainty := certainty, descriptor := descriptor, origin := origin
          lastEditWallMs := now }).touch id)

theorem findOrCreate_cases (options : RegistryOptions) (registry : Registry)
    (origin : FieldOrigin) (descriptor : FieldDescriptor) (captureSurface : JsString)
    (find : FindOptions) (clock : Nat → Int) (uuid : JsString) :
    FoundBy options registry uuid
      (findOrCreate options registry origin descriptor captureSurface find clock uuid).1 := by
  unfold findOrCreate
  split
  · exact .refused
  · simp only
    split
    · exact .created fun _ => rfl
    · rename_i id certainty hexisting
      split
      · rename_i hnone
        refine .created fun hkeyed => ?_
        -- A session that a field resumes is there.
        obtain ⟨found, hfound, rfl⟩ := resolveSession_existing hexisting
        have hmem : found ∈ registry.sessions.values := by
          by_cases hfresh : find.fresh = true
          · rw [if_pos hfresh] at hfound
            exact absurd hfound List.not_mem_nil
          · rwa [if_neg hfresh] at hfound
        rw [get_of_mem_values hkeyed hmem] at hnone
        cases hnone
      · exact .found ‹_›

/-! ## Rounds of `flushObservation` -/

/-- How a round of a call goes: it ends the call, joins an activation, or starts one. -/
inductive RoundOf (registry : Registry) (flush : ObservationFlush) (now : Int) (uuid : JsString) :
    Registry × Option ObservationFlush → Prop where
  | spent (hspent : 2 ≤ flush.round) :
      RoundOf registry flush now uuid (endFlush registry flush.sessionId, none)
  | gone (hget : registry.get flush.sessionId = none) :
      RoundOf registry flush now uuid (endFlush registry flush.sessionId, none)
  | diverged {record : SessionRecord} (hget : registry.get flush.sessionId = some record)
      (hstate : record.observation.state = .diverged) :
      RoundOf registry flush now uuid (endFlush registry flush.sessionId, none)
  | failed {record : SessionRecord} (hget : registry.get flush.sessionId = some record)
      (hkicked : flush.kicked = true) :
      RoundOf registry flush now uuid (endFlush registry flush.sessionId, none)
  | covered {record : SessionRecord} (hget : registry.get flush.sessionId = some record)
      (hcovered : record.observation.lastCommittedEventCount = 0 ∨
        sessionEventCount record ≤ record.observation.lastCommittedEventCount) :
      RoundOf registry flush now uuid (endFlush registry flush.sessionId, none)
  | joins {record : SessionRecord} (hround : flush.round < 2)
      (hget : registry.get flush.sessionId = some record)
      (hflight : record.observation.inFlight = true) :
      RoundOf registry flush now uuid
        (registry, some (awaitObservationIdle registry { flush with round := flush.round + 1 }))
  | starts {record : SessionRecord} {started : Registry} (hround : flush.round < 2)
      (hget : registry.get flush.sessionId = some record)
      (hopen : record.observation.state ≠ .diverged)
      (hidle : record.observation.inFlight = false)
      (hcommitted : record.observation.lastCommittedEventCount ≠ 0)
      (hstarted : started = kickCheckpoint registry flush.sessionId
        { record with observation := { record.observation with nextBackoffMs := 0 } } now uuid) :
      RoundOf registry flush now uuid (started, some (awaitObservationIdle started
        { flush with round := flush.round + 1, kicked := true }))

theorem flushRound_spec (registry : Registry) (flush : ObservationFlush) (now : Int)
    (uuid : JsString) :
    RoundOf registry flush now uuid (flushRound registry flush now uuid) := by
  unfold flushRound
  simp only
  split
  · exact .spent ‹_›
  · rename_i hround
    cases hget : registry.get flush.sessionId with
    | none => exact .gone hget
    | some record =>
        simp only
        split
        · exact .diverged hget ‹_›
        split
        · rename_i hfailed
          rw [Bool.and_eq_true] at hfailed
          exact .failed hget hfailed.1
        split
        · exact .joins (Nat.lt_of_not_le hround) hget ‹_›
        split
        · exact .covered hget (Or.inl ‹_›)
        split
        · exact .covered hget (Or.inr ‹_›)
        · exact .starts (Nat.lt_of_not_le hround) hget ‹_› (Bool.eq_false_of_not_eq_true ‹_›)
            ‹_› rfl

/-- What a round leaves is related to what it has found, if each way of ending it is. -/
theorem flushRound_relates {R : Registry → Registry → Prop} (flush : ObservationFlush) (now : Int)
    (uuid : JsString) (hended : R registry (endFlush registry flush.sessionId))
    (hrefl : R registry registry)
    (hstarted : ∀ record, registry.get flush.sessionId = some record →
      R registry (kickCheckpoint registry flush.sessionId
        { record with observation := { record.observation with nextBackoffMs := 0 } } now uuid)) :
    R registry (flushRound registry flush now uuid).1 := by
  have hround := flushRound_spec registry flush now uuid
  generalize flushRound registry flush now uuid = result at hround
  cases hround with
  | joins => exact hrefl
  | starts _ hget _ _ _ hkick =>
      rw [hkick]
      exact hstarted _ hget
  | _ => exact hended

/-! ## Sweeping -/

/-- What `sweep` leaves of a session: its anchor, if it was uploaded, or nothing. -/
inductive SweptBy (options : RegistryOptions) (registry : Registry) (record : SessionRecord) :
    Registry → Prop where
  | anchored (huploaded : record.state = .uploaded) :
      SweptBy options registry record
        { (registry.put record.sessionId (anchorOf options registry.nextId record)).touch
            record.sessionId with
          clearEvents := registry.clearEvents.add record.sessionId
          nextId := registry.nextId + 1 }
  | removed : SweptBy options registry record (removeSession registry record.sessionId)

theorem sweepOne_cases (options : RegistryOptions) (sweepOptions : SweepOptions) (now : Int)
    (registry : Registry) (record : SessionRecord) :
    SweptBy options registry record (sweepOne options sweepOptions now registry record) := by
  unfold sweepOne
  split
  · rename_i hkept
    simp only [Bool.and_eq_true, beq_iff_eq] at hkept
    exact .anchored hkept.1.2
  · exact .removed

theorem SweptBy.get_ne {record : SessionRecord} (h : SweptBy options registry record next)
    {other : JsString} (hother : other ≠ record.sessionId) :
    next.get other = registry.get other := by
  cases h with
  | anchored => exact OrderedMap.get?_set_ne _ _ hother
  | removed => rw [get_removeSession, if_neg hother]

/-- A preorder that each expired session's turn obeys relates the registry to what is left. -/
theorem sweep_relates {R : Registry → Registry → Prop} (hkeyed : Keyed registry)
    (sweepOptions : SweepOptions) (now : Int) (hrefl : ∀ registry, R registry registry)
    (htrans : ∀ first second third, R first second → R second third → R first third)
    (hone : ∀ between record left, registry.get record.sessionId = some record →
      expired now sweepOptions.ttlMs sweepOptions.uploadedGraceMs record = true →
        between.get record.sessionId = some record → SweptBy options between record left →
          R between left) :
    R registry (sweep options registry sweepOptions now) := by
  unfold sweep
  have hexpired : ∀ record ∈ registry.sessions.values.filter
      (expired now sweepOptions.ttlMs sweepOptions.uploadedGraceMs),
      registry.get record.sessionId = some record ∧
        expired now sweepOptions.ttlMs sweepOptions.uploadedGraceMs record = true := by
    intro record hrecord
    exact ⟨get_of_mem_values hkeyed (List.mem_of_mem_filter hrecord),
      (List.mem_filter.1 hrecord).2⟩
  have hnodup : ((registry.sessions.values.filter
      (expired now sweepOptions.ttlMs sweepOptions.uploadedGraceMs)).map
        SessionRecord.sessionId).Nodup := by
    have hsub := (List.filter_sublist (p := expired now sweepOptions.ttlMs
      sweepOptions.uploadedGraceMs) (l := registry.sessions.values)).map SessionRecord.sessionId
    rw [hkeyed.map_sessionId] at hsub
    exact hsub.nodup registry.sessions.nodup
  generalize registry.sessions.values.filter _ = records at hexpired hnodup
  have hget : ∀ record ∈ records, registry.get record.sessionId = some record :=
    fun record hrecord => (hexpired record hrecord).1
  -- Every session but the one whose turn it is stays, so the later ones are still there.
  suffices hall : ∀ between : Registry,
      (∀ record ∈ records, between.get record.sessionId = some record) →
        R between (records.foldl (sweepOne options sweepOptions now) between) from
    hall registry hget
  clear hget
  induction records with
  | nil => exact fun between _ => hrefl between
  | cons record records ih =>
      intro between hthere
      rw [List.map_cons, List.nodup_cons] at hnodup
      have hswept := sweepOne_cases options sweepOptions now between record
      obtain ⟨hget, hdue⟩ := hexpired record List.mem_cons_self
      refine htrans _ _ _ (hone _ _ _ hget hdue (hthere record List.mem_cons_self) hswept) ?_
      refine ih (fun later hlater => hexpired later (List.mem_cons_of_mem _ hlater)) hnodup.2 _ ?_
      intro later hlater
      rw [hswept.get_ne]
      · exact hthere later (List.mem_cons_of_mem _ hlater)
      · intro heq
        exact hnodup.1 (List.mem_map.2 ⟨later, hlater, heq⟩)

end Pmbah.Producer
