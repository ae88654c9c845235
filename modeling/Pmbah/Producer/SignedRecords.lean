import Pmbah.Format.Verify
import Pmbah.Producer.CrashConsistency

/-!
# What is signed verifies

A journal-backed registry assembles a manifest from what the metadata says of the
events, without reading them.  The record it signs verifies together with the events
it has accepted.
-/

namespace Pmbah.Producer

open Js Format Library

variable {P : Platform} {options : RegistryOptions} {record frozen : SessionRecord}
  {log : List BufferMutation} {textBinding : Option Json} {now : Int} {uuid : JsString}
  {manifest : Json}

theorem validateTextBinding_ne_nil {binding : Json} (h : binding.isPlainObject = false) :
    validateTextBinding binding ≠ [] := by
  rw [validateTextBinding, if_pos (by simp [h])]
  exact List.cons_ne_nil _ _

theorem throwErrors_error {errors : List JsString} (h : errors ≠ []) :
    throwErrors errors = .error (.typeError (joinWith (js "; ") errors)) := by
  rw [throwErrors, if_neg]
  rwa [List.isEmpty_iff]

/-- A binding that is sealed is not a value that JavaScript takes for absent. -/
theorem sealRecordHash_filter {tip hash : B3Hash} {version : FormatVersion}
    {finalization : Finalization}
    (h : sealRecordHash P tip version textBinding finalization = .ok hash) :
    sealRecordHash P tip version (textBinding.filter Json.truthy) finalization = .ok hash := by
  cases textBinding with
  | none => exact h
  | some binding =>
      by_cases htruthy : binding.truthy = true
      · rwa [Option.filter_some, if_pos htruthy]
      · have hobject : binding.isPlainObject = false := by
          cases binding with
          | obj fields => exact absurd rfl htruthy
          | _ => rfl
        cases version with
        | v0_1 => exact h
        | v0_2 =>
            simp only [sealRecordHash, canonicalizeTextBinding, assertValidTextBinding,
              throwErrors_error (validateTextBinding_ne_nil hobject)] at h
            cases h
        | v0_3 =>
            have hne : finalizationErrors (some binding) finalization ≠ [] := by
              intro hnil
              rw [finalizationErrors, List.append_eq_nil_iff] at hnil
              exact validateTextBinding_ne_nil hobject hnil.2
            simp only [sealRecordHash, throwErrors_error hne] at h
            cases h

/-- A parent that is null is sealed as one that is absent. -/
theorem sealRecordHash_parent (tip : B3Hash) (version : FormatVersion) (duration : Option Json)
    (parent : Option JsString) :
    sealRecordHash P tip version textBinding
        ⟨duration, some (Json.orNull (parent.map Json.str))⟩ =
      sealRecordHash P tip version textBinding ⟨duration, parent.map Json.str⟩ := by
  cases parent with
  | none => rfl
  | some hash => rfl

theorem field_signedManifest (record : SessionRecord) (version : FormatVersion) (hash : B3Hash)
    (textBinding : Option Json) (duration : Int) (createdClientT : JsString) :
    let manifest := signedManifest record version hash textBinding duration createdClientT
    manifest.field (js "format_version") = some (.str version.text) ∧
      manifest.field (js "record_hash") = some (.str hash.text) ∧
      manifest.field (js "session_id") = some (.str record.sessionId) ∧
      manifest.field (js "text_binding") = textBinding.filter Json.truthy ∧
      manifest.field (js "event_count") = some (Json.ofNat (sessionEventCount record)) ∧
      manifest.field (js "duration_ms") = some (Json.ofInt duration) ∧
      manifest.field (js "parent_record") =
        some (Json.orNull (record.parentRecord.map .str)) := by
  unfold signedManifest
  cases textBinding.filter Json.truthy <;> exact ⟨rfl, rfl, rfl, rfl, rfl, rfl, rfl⟩

/-- What has been signed in a journal-backed registry. -/
structure SignedAs (P : Platform) (options : RegistryOptions) (record : SessionRecord)
    (textBinding : Option Json) (now : Int) (manifest : Json) (hash : B3Hash)
    (createdClientT : JsString) : Prop where
  count : sessionEventCount record ≠ 0
  hashed : signedHash P options record (signedVersion options record)
    (signedBinding record textBinding) (signedDuration options record now) = .ok hash
  created : P.isoDate record.baseWallMs = some createdClientT
  manifest_eq : manifest = signedManifest record (signedVersion options record) hash
    (signedBinding record textBinding) (signedDuration options record now) createdClientT
  verified : selfVerification P options record manifest = .ok []

theorem signRecord_ok (h : signRecord P options record textBinding now uuid =
    .ok (frozen, manifest)) :
    frozen = freeze options record (signedVersion options record)
        (signedBinding record textBinding) (signedDuration options record now) uuid ∧
      ∃ hash createdClientT,
        SignedAs P options record textBinding now manifest hash createdClientT := by
  unfold signRecord at h
  split at h
  · cases h
  · rename_i hcount
    simp only at h
    split at h
    · cases h
    · rename_i hash hhash
      split at h
      · cases h
      · rename_i createdClientT hcreated
        split at h
        · cases h
        · rename_i errors herrors
          split at h
          · cases h
          · rename_i hnone
            rw [Except.ok.injEq, Prod.mk.injEq] at h
            obtain ⟨rfl, rfl⟩ := h
            rw [Bool.not_eq_true, Bool.not_eq_false', List.isEmpty_iff] at hnone
            subst hnone
            exact ⟨rfl, hash, createdClientT, hcount, hhash, hcreated, rfl, herrors⟩

theorem eventChainFormatVersion_signed (options : RegistryOptions) (record : SessionRecord) :
    eventChainFormatVersion (signedVersion options record) =
      eventChainFormatVersion record.formatVersion := by
  unfold signedVersion
  split
  · rename_i hupgrade
    simp only [Bool.and_eq_true, beq_iff_eq] at hupgrade
    rw [hupgrade.2]
    rfl
  · rfl

/-- The time of the last event is within the duration that is signed first. -/
theorem lastEventTime_le_signedDuration (hstate : record.state ≠ .failedUpload) (now : Int) :
    (sessionLastEventTime record : Int) ≤ signedDuration options record now := by
  unfold signedDuration
  rw [if_neg hstate]
  simp only
  split
  · exact le_max_left _ _
  · exact Int.le_refl _

/-- The manifest of an active session holds over the events its metadata describes. -/
theorem signRecord_verifies (hjournal : options.journal = true)
    (hdescribes : Describes P record log)
    (hduration : (sessionLastEventTime record : Int) ≤ signedDuration options record now)
    (h : signRecord P options record textBinding now uuid = .ok (frozen, manifest)) :
    ∃ result, verifyRecord P manifest (log.map BufferMutation.toJson) = .ok result ∧
      result.valid = true := by
  obtain ⟨-, hash, createdClientT, hcount, hhashed, -, hmanifest, hverified⟩ := signRecord_ok h
  rw [selfVerification, if_pos hjournal, Except.ok.injEq] at hverified
  obtain ⟨fversion, fhash, fsession, fbinding, fcount, fduration, fparent⟩ :=
    field_signedManifest record (signedVersion options record) hash
      (signedBinding record textBinding) (signedDuration options record now) createdClientT
  rw [← hmanifest] at fversion fhash fsession fbinding fcount fduration fparent
  rw [hdescribes.sessionEventCount_eq] at hcount fcount
  rw [hdescribes.sessionLastEventTime_eq] at hduration
  have hne : log ≠ [] := fun hnil => hcount (by rw [hnil]; rfl)
  have huuid := hdescribes.uuid hne
  obtain ⟨version, sessionId, count, time, hreads⟩ := manifestReads_of_valid hverified
  have hversion : manifestVersion manifest = signedVersion options record := by
    rw [manifestVersion, Json.textAt, fversion]
    cases signedVersion options record <;> rfl
  have htip : ∃ tip, record.lastEventChainTip = some tip := by
    cases heq : record.lastEventChainTip with
    | none =>
        rw [hdescribes.tip, eventTip, ChainScheme.tip_eq_none] at heq
        exact absurd heq hne
    | some tip => exact ⟨tip, rfl⟩
  obtain ⟨tip, htip⟩ := htip
  have heventTip : eventTip P record.sessionId (signedVersion options record) log = some tip := by
    rw [eventTip_congr (eventChainFormatVersion_signed options record), ← hdescribes.tip, htip]
  have hseal := hhashed
  rw [signedHash, if_pos hjournal, htip] at hseal
  have hholds : RecordHolds P manifest (log.map BufferMutation.toJson) hash := by
    refine ⟨hverified, ⟨log, readsAsLog_toJson log, hdescribes.valid⟩, ?_, ?_, ?_, ?_, ?_⟩
    · simpa using hne
    · rw [Json.natAt, fcount, List.length_map]
      rfl
    · intro value hvalue
      rw [List.getLast?_map, Option.mem_def, Option.map_eq_some_iff] at hvalue
      obtain ⟨last, hlast, rfl⟩ := hvalue
      rw [natAt_t_of_readsAs (readsAs_toJson last)]
      rw [hreads.hasDuration] at fduration
      have hequal : (time : Int) = signedDuration options record now :=
        JsNumber.ofInt_injective (Json.num.inj (Option.some.inj fduration))
      rw [hreads.natAt_durationMs]
      rw [lastTime, hlast] at hduration
      exact Int.ofNat_le.1 (hequal ▸ hduration)
    · have htext : manifest.textAt (js "session_id") = record.sessionId := by
        rw [Json.textAt, fsession]
        rfl
      have hfinal : manifestFinalization manifest =
          ⟨some (Json.ofInt (signedDuration options record now)),
            some (Json.orNull (record.parentRecord.map .str))⟩ := by
        rw [manifestFinalization, fduration, fparent]
      rw [htext, hversion, fbinding, hfinal,
        computeRecordHash_eq huuid (readsAsLog_toJson log) hdescribes.valid heventTip,
        sealRecordHash_parent]
      exact sealRecordHash_filter hseal
    · rw [fhash]
      rfl
  obtain ⟨result, hresult, hvalid, -⟩ := verifyRecord_valid.2 hholds
  exact ⟨result, hresult, hvalid⟩

theorem sign_ok {registry next : Registry} {id : JsString} {draft : SignedRecordDraft}
    (h : sign P options registry id textBinding now uuid = (next, .ok draft)) :
    ∃ record frozen, registry.get id = some record ∧
      (record.state = .active ∨ record.state = .failedUpload) ∧
      signRecord P options record textBinding now uuid = .ok (frozen, draft.manifest) ∧
      draft.uploadId = frozen.uploadId ∧ next.get id = some frozen := by
  unfold sign at h
  split at h
  · cases h
  · rename_i required record hrequired
    obtain ⟨rfl, hget, hallowed⟩ := requireInState_ok hrequired
    split at h
    · cases h
    · rename_i frozen manifest hsigned
      rw [Prod.mk.injEq, Except.ok.injEq] at h
      obtain ⟨rfl, rfl⟩ := h
      refine ⟨record, frozen, hget, by simpa using hallowed, hsigned, rfl, ?_⟩
      rw [Registry.get, Registry.put, OrderedMap.get?_set_self]

namespace World

/-- In every run, crashes included, whose rollbacks find their deletions queued: what is
signed of an active session verifies together with the events it has accepted.  The
stored rows begin that log, the queue ends it, and no event is in neither. -/
theorem signed_verifies (hjournal : options.journal = true) {store : JournalStore}
    (hstore : Durable P store) {nextId : Nat} {world : World}
    (run : Run P options DeletionQueued (boot store nextId) world) {id : JsString}
    {record : SessionRecord} (hget : world.registry.get id = some record)
    (hactive : record.state = .active) (hanchor : record.continuationAnchor = false)
    {next : Registry} {draft : SignedRecordDraft}
    (hsign : sign P options world.registry id textBinding now uuid = (next, .ok draft)) :
    ∃ log, (∃ result, verifyRecord P draft.manifest (log.map BufferMutation.toJson) =
        .ok result ∧ result.valid = true) ∧
      world.store.events id <+: log ∧ world.registry.pending id <:+ log ∧
      log.length ≤ (world.store.events id).length + (world.registry.pending id).length := by
  have hinv := inv_run hjournal (inv_boot hstore nextId) run
  have hplaced := hinv.placed record _ (.live hget) hanchor
  have hid : record.sessionId = id := hinv.keyed id record hget
  obtain ⟨signed, frozen, hsame, -, hsigned, -, -⟩ := sign_ok hsign
  rw [hget] at hsame
  cases hsame
  have hrows := hplaced.rows
  have hcovers := hplaced.covers
  rw [hid] at hrows hcovers
  refine ⟨world.accepted id, ?_, hrows, hid ▸ hplaced.ends, hcovers⟩
  rw [← hid]
  refine signRecord_verifies hjournal hplaced.describes ?_ hsigned
  apply lastEventTime_le_signedDuration
  rw [hactive]
  decide

/-- One letter is stored, and another one waits in the queue. -/
def halfStored : List Action :=
  [startWriting, typeLetter, .persist] ++ commitEnds true ++ [typeLetter]

theorem signed_verifies_halfStored :
    ∃ world : World, ∃ draft log, steps Platform.standard exampleOptions DeletionQueued
        (boot JournalStore.empty 0) halfStored = some world ∧
      (sign Platform.standard exampleOptions world.registry exampleSession none
        1700000000000 spareUuid).2 = .ok draft ∧
      (∃ result, verifyRecord Platform.standard draft.manifest
        (log.map BufferMutation.toJson) = .ok result ∧ result.valid = true) ∧
      world.store.events exampleSession <+: log := by
  have hreached : (steps Platform.standard exampleOptions DeletionQueued
      (boot JournalStore.empty 0) halfStored).any (fun world =>
        (world.registry.get exampleSession).any (fun record =>
          record.state == .active && !record.continuationAnchor) &&
        (sign Platform.standard exampleOptions world.registry exampleSession none
          1700000000000 spareUuid).2.isOk) = true := by
    decide +kernel
  obtain ⟨world, hworld, hholds⟩ := (Option.any_eq_true _ _).1 hreached
  obtain ⟨hsession, hok⟩ := Bool.and_eq_true_iff.1 hholds
  obtain ⟨record, hget, hrecord⟩ := (Option.any_eq_true _ _).1 hsession
  obtain ⟨hactive, hanchor⟩ := Bool.and_eq_true_iff.1 hrecord
  cases hsign : sign Platform.standard exampleOptions world.registry exampleSession none
      1700000000000 spareUuid with
  | mk next signed =>
      rw [hsign] at hok
      cases signed with
      | error thrown => cases hok
      | ok draft =>
          obtain ⟨log, hverifies, hrows, -, -⟩ := signed_verifies rfl
            (durable_empty Platform.standard) ((Run.refl _).steps hworld) hget
            (beq_iff_eq.1 hactive) (by simpa using hanchor) hsign
          exact ⟨world, draft, log, hworld, by rw [hsign], hverifies, hrows⟩

end World

end Pmbah.Producer
