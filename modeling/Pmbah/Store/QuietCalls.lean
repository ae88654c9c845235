import Pmbah.Store.SignatureInvariant

/-!
# Calls that save no record

A call to a store keeps its published records, and a call that saves none keeps what every
lookup finds.  The candidates that were tried before a signature stay taken.
-/

namespace Pmbah.Store

open Js Format Library

variable {A : Type}

namespace RecordStore

section

variable {P : Platform} {clock : Clock} {options : ChunkedOptions A} {store next : RecordStore A}
variable {recordHash : B3Hash} {candidate : JsString}

/-- A call that leaves the records and their signatures. -/
structure SameRecords (store next : RecordStore A) : Prop where
  byHash : next.byHash = store.byHash
  byShortSignature : next.byShortSignature = store.byShortSignature
  completed : next.chunked.completed = store.chunked.completed

theorem SameRecords.refl (store : RecordStore A) : SameRecords store store := ⟨rfl, rfl, rfl⟩

theorem SameRecords.trans {last : RecordStore A} (h : SameRecords store next)
    (h' : SameRecords next last) : SameRecords store last where
  byHash := h'.byHash.trans h.byHash
  byShortSignature := h'.byShortSignature.trans h.byShortSignature
  completed := h'.completed.trans h.completed

theorem SameRecords.published (h : SameRecords store next) (record : StoredRecord) :
    next.Published record ↔ store.Published record := by
  rw [Published, Published, h.byHash, h.completed]

theorem SameRecords.findByRecordHash (h : SameRecords store next) (recordHash : B3Hash) :
    next.findByRecordHash recordHash = store.findByRecordHash recordHash := by
  rw [RecordStore.findByRecordHash, RecordStore.findByRecordHash, ChunkedStore.findCompleted,
    ChunkedStore.findCompleted, h.byHash, h.completed]

theorem SameRecords.candidateFree (h : SameRecords store next) (recordHash : B3Hash)
    (candidate : JsString) :
    next.candidateFree recordHash candidate = store.candidateFree recordHash candidate := by
  have hsame : next.findByShortSignature candidate = store.findByShortSignature candidate := by
    rw [RecordStore.findByShortSignature, RecordStore.findByShortSignature, h.byShortSignature,
      ChunkedStore.findCompletedById, ChunkedStore.findCompletedById, h.completed]
    cases store.byShortSignature.get? candidate with
    | none => rfl
    | some recordHash => exact h.findByRecordHash recordHash
  rw [RecordStore.candidateFree, RecordStore.candidateFree, hsame]

/-- A signature finds the record that has it. -/
theorem findByShortSignature_eq_some (h : store.Sound P) (hid : store.Identified)
    (halphabet : InAlphabet candidate) {record : StoredRecord} :
    store.findByShortSignature candidate = some record ↔
      store.Published record ∧ record.shortSignature = candidate := by
  constructor
  · intro hfound
    rw [findByShortSignature] at hfound
    cases hget : store.byShortSignature.get? candidate with
    | some recordHash =>
        rw [hget] at hfound
        obtain ⟨other, hother, hsignature⟩ := (hid.signed _ _).1 hget
        obtain ⟨hpublished, hhash⟩ := (findByRecordHash_eq_some h hid).1 hfound
        have hsame : record = other := hid.eq_of_recordHash h hpublished (.inl ⟨_, hother⟩)
          (hhash.trans (h.byHash _ _ hother).1.symm)
        exact ⟨hpublished, hsame ▸ hsignature⟩
    | none =>
        rw [hget] at hfound
        simp only at hfound
        rw [findCompletedById_signature halphabet] at hfound
        have hmem := OrderedMap.mem_values_iff.1 (List.mem_of_find?_eq_some hfound)
        have hsignature := List.find?_some hfound
        exact ⟨.inr hmem, decide_eq_true_iff.1 hsignature⟩
  · rintro ⟨hpublished, rfl⟩
    exact hid.findByShortSignature h hpublished

theorem candidateFree_eq_true (h : store.Sound P) (hid : store.Identified)
    (halphabet : InAlphabet candidate) :
    store.candidateFree recordHash candidate = true ↔
      isReservedShortSignature candidate = false ∧
        ∀ record : StoredRecord, store.Published record → record.shortSignature = candidate →
          record.manifest.recordHash = recordHash := by
  simp only [candidateFree_iff, findByShortSignature_eq_some h hid halphabet, and_imp]

/-- No record has a candidate that is free for a record which is not stored. -/
theorem unused_of_free (h : store.Sound P) (hid : store.Identified) (halphabet : InAlphabet candidate)
    (hnone : store.findByRecordHash recordHash = none)
    (hfree : store.candidateFree recordHash candidate = true) :
    IngestApi.unused store.byHash.values candidate = true ∧
      IngestApi.unused store.chunked.completed.values candidate = true := by
  have hfree := ((candidateFree_eq_true h hid halphabet).1 hfree).2
  have habsent (record : StoredRecord) (hrecord : store.Published record) :
      record.shortSignature ≠ candidate := by
    intro hsame
    rw [(findByRecordHash_eq_some h hid).2 ⟨hrecord, hfree record hrecord hsame⟩] at hnone
    cases hnone
  exact ⟨unused_iff.2 fun recordHash record hget => habsent record (.inl ⟨recordHash, hget⟩),
    unused_iff.2 fun recordHash record hget => habsent record (.inr ⟨recordHash, hget⟩)⟩

/-! ## What the calls keep -/

theorem saveRecord_published (clock : Clock) (store : RecordStore A) (input : SaveRecordInput)
    (now : JsString) {record : StoredRecord} (hrecord : store.Published record) :
    (store.saveRecord P clock input now).1.Published record := by
  simp only [saveRecord]
  split
  · exact hrecord
  split
  · split <;> exact hrecord
  rename_i hinline
  split
  · exact hrecord
  split
  · exact hrecord
  rcases hrecord with ⟨recordHash, hget⟩ | hcompleted
  · refine .inl ⟨recordHash, ?_⟩
    rw [OrderedMap.get?_set_ne, hget]
    rintro rfl
    rw [hinline] at hget
    cases hget
  · exact .inr hcompleted

/-- A record that is saved has the signature it is saved with. -/
theorem saveRecord_byHash (clock : Clock) (store : RecordStore A) (input : SaveRecordInput)
    (now : JsString) {record : StoredRecord}
    (hget : (store.saveRecord P clock input now).1.byHash.get? recordHash = some record) :
    store.byHash.get? recordHash = some record ∨
      recordHash = input.record.manifest.recordHash ∧
        record.shortSignature = input.shortSignature := by
  simp only [saveRecord] at hget
  split at hget
  · exact .inl hget
  split at hget
  · split at hget
    · exact .inl hget
    · exact .inl hget
  split at hget
  · exact .inl hget
  split at hget
  · exact .inl hget
  simp only [OrderedMap.get?_set] at hget
  split at hget
  · cases hget
    exact .inr ⟨‹_›, rfl⟩
  · exact .inl hget

theorem finalize_sameRecords (store : RecordStore A) (id shortSignature : JsString) :
    SameRecords store { store with
      chunked := (store.chunked.finalize store.findByRecordHash id shortSignature).1 } := by
  unfold ChunkedStore.finalize
  split
  · exact .refl store
  · exact ⟨rfl, rfl, rfl⟩

/-- The call that resumes publishes at most the record of its upload. -/
theorem finishFinalize_completed {P : Platform} (clock : Clock) (options : ChunkedOptions A)
    (chunked : ChunkedStore A) (sessions : OrderedMap JsString ObservedSession)
    (task : Finalizing) {record : StoredRecord}
    (hget : chunked.completed.get? recordHash = some record) :
    (chunked.finishFinalize P clock options sessions task).1.1.completed.get? recordHash =
      some record := by
  simp only [ChunkedStore.finishFinalize]
  split
  · exact hget
  split
  · exact hget
  rename_i hexisting
  split
  · exact hget
  split
  · exact hget
  split
  · exact hget
  simp only [ChunkedStore.publish]
  rw [OrderedMap.get?_set_ne, hget]
  rintro rfl
  rw [ChunkedStore.findCompleted, hget, Option.or_some] at hexisting
  cases hexisting

variable {action : Action} {result : Except StoreError (Response A)}

/-- A call that saves no record. -/
def Quiet (store : RecordStore A) : Action → Prop
  | .saveRecord _ _ => False
  | .resume => IngestApi.resuming store.chunked = none
  | _ => True

/-- Every call that waits has an object, so nothing goes on where none is found. -/
theorem perform_resume (h : store.Sound P) (hnone : IngestApi.resuming store.chunked = none) :
    store.perform P clock options .resume = none := by
  simp only [perform]
  split
  · rfl
  rename_i task awaiting hawaiting
  have htask : task ∈ store.chunked.awaiting := by
    rw [hawaiting]
    exact List.mem_cons_self ..
  obtain ⟨state, hstate, -⟩ := h.chunked.waiting task htask
  rw [IngestApi.resuming, hawaiting, List.head?_cons, Option.bind_some, hstate] at hnone
  cases hnone

theorem perform_sameRecords (h : store.Sound P) (hquiet : store.Quiet action)
    (hperform : store.perform P clock options action = some (next, result)) :
    SameRecords store next := by
  cases action with
  | appendObservedCheckpoint input now checkpointId =>
      simp only [perform, Option.some.injEq, Prod.mk.injEq] at hperform
      obtain ⟨rfl, -⟩ := hperform
      exact ⟨rfl, rfl, rfl⟩
  | getObservedSessionForBinding input =>
      simp only [perform, Option.some.injEq, Prod.mk.injEq] at hperform
      obtain ⟨rfl, -⟩ := hperform
      exact .refl store
  | saveRecord input now => exact hquiet.elim
  | begin uploadId manifest observation starting =>
      simp only [perform, Option.some.injEq, Prod.mk.injEq] at hperform
      obtain ⟨rfl, -⟩ := hperform
      exact ⟨rfl, rfl, (ChunkedStore.begin_sound options h.chunked uploadId manifest
        observation starting).2.2⟩
  | append uploadId offset events =>
      simp only [perform, Option.some.injEq, Prod.mk.injEq] at hperform
      obtain ⟨rfl, -⟩ := hperform
      exact ⟨rfl, rfl, (ChunkedStore.append_sound options h.chunked uploadId offset events).2.2⟩
  | finalize uploadId shortSignature =>
      simp only [perform, Option.some.injEq, Prod.mk.injEq] at hperform
      obtain ⟨rfl, -⟩ := hperform
      exact finalize_sameRecords store uploadId shortSignature
  | resume =>
      rw [perform_resume h hquiet] at hperform
      cases hperform

/-- Published records stay, whatever is called. -/
theorem perform_published (h : store.Sound P)
    (hperform : store.perform P clock options action = some (next, result))
    {record : StoredRecord} (hrecord : store.Published record) : next.Published record := by
  by_cases hquiet : store.Quiet action
  · exact ((perform_sameRecords h hquiet hperform).published record).2 hrecord
  cases action with
  | saveRecord input now =>
      simp only [perform, Option.some.injEq, Prod.mk.injEq] at hperform
      obtain ⟨rfl, -⟩ := hperform
      exact saveRecord_published clock store input now hrecord
  | resume =>
      simp only [perform] at hperform
      split at hperform
      · cases hperform
      simp only [Option.some.injEq, Prod.mk.injEq] at hperform
      obtain ⟨rfl, -⟩ := hperform
      rcases hrecord with hinline | ⟨recordHash, hget⟩
      · exact .inl hinline
      · exact .inr ⟨recordHash, finishFinalize_completed clock options _ _ _ hget⟩
  | _ => exact absurd trivial hquiet

/-- A record is posted with the signature that the call is made with. -/
theorem perform_byHash (h : store.Sound P)
    (hperform : store.perform P clock options action = some (next, result))
    {record : StoredRecord} (hget : next.byHash.get? recordHash = some record) :
    store.byHash.get? recordHash = some record ∨
      ∃ input now, action = .saveRecord input now ∧
        recordHash = input.record.manifest.recordHash ∧
          record.shortSignature = input.shortSignature := by
  by_cases hquiet : store.Quiet action
  · rw [(perform_sameRecords h hquiet hperform).byHash] at hget
    exact .inl hget
  cases action with
  | saveRecord input now =>
      simp only [perform, Option.some.injEq, Prod.mk.injEq] at hperform
      obtain ⟨rfl, -⟩ := hperform
      rcases saveRecord_byHash clock store input now hget with hold | ⟨hhash, hsignature⟩
      · exact .inl hold
      · exact .inr ⟨input, now, rfl, hhash, hsignature⟩
  | resume =>
      simp only [perform] at hperform
      split at hperform
      · cases hperform
      simp only [Option.some.injEq, Prod.mk.injEq] at hperform
      obtain ⟨rfl, -⟩ := hperform
      exact .inl hget
  | _ => exact absurd trivial hquiet

/-! ## Calls that wait -/

/-- What the call has found is what there is. -/
def UpToDate (store : RecordStore A) (task : Finalizing) : Prop :=
  ∀ state : UploadState A, store.chunked.objects[task.object]? = some state →
    task.found = store.findByRecordHash state.manifest.recordHash

theorem begin_manifest (options : ChunkedOptions A) (chunked : ChunkedStore A)
    (uploadId : JsString) (manifest : RecordManifest) (observation : Option UploadObservation)
    (starting : Option Nat) {object : Nat} {state found : UploadState A}
    (hstate : chunked.objects[object]? = some state)
    (hfound : (chunked.begin P options uploadId manifest observation starting).1.objects[object]? =
      some found) : found.manifest = state.manifest := by
  have hsame (hfound : chunked.objects[object]? = some found) :
      found.manifest = state.manifest := by
    rw [hstate] at hfound
    rw [Option.some.inj hfound]
  unfold ChunkedStore.begin at hfound
  split at hfound
  · exact hsame hfound
  split at hfound
  · exact hsame hfound
  split at hfound
  · exact hsame hfound
  split at hfound
  · exact hsame hfound
  split at hfound
  · rename_i place existing hupload
    obtain ⟨current, -, hexisting⟩ := Option.bind_eq_some_iff.1 hupload
    obtain ⟨existing, hexisting, hpair⟩ := Option.map_eq_some_iff.1 hexisting
    cases hpair
    split at hfound
    · exact hsame hfound
    · split at hfound
      · exact hsame hfound
      · simp only [List.getElem?_set] at hfound
        split at hfound
        · rename_i hplace
          subst hplace
          rw [hstate] at hexisting
          cases hexisting
          split at hfound
          · cases hfound
            rfl
          · cases hfound
        · exact hsame hfound
  · rw [List.getElem?_append_left (List.getElem?_eq_some_iff.1 hstate).1] at hfound
    exact hsame hfound

theorem append_objects (options : ChunkedOptions A) (chunked : ChunkedStore A) (id : JsString)
    (offset : Nat) (events : List Json) {object : Nat} {state : UploadState A}
    (hstate : chunked.objects[object]? = some state) :
    (chunked.append P options id offset events).1.objects[object]? = some state := by
  unfold ChunkedStore.append
  split
  · exact hstate
  split
  · exact hstate
  split
  · exact hstate
  split
  · split
    · exact hstate
    · exact hstate
    · split <;> exact hstate
  · split
    · exact hstate
    · split
      · exact hstate
      · rw [List.getElem?_append_left (List.getElem?_eq_some_iff.1 hstate).1, hstate]

theorem UpToDate.kept (h : store.Sound P) (hsame : SameRecords store next) {task : Finalizing}
    (htask : task ∈ store.chunked.awaiting)
    (hmanifest : ∀ state found : UploadState A,
      store.chunked.objects[task.object]? = some state →
        next.chunked.objects[task.object]? = some found → found.manifest = state.manifest)
    (htrue : store.UpToDate task) : next.UpToDate task := by
  intro found hfound
  obtain ⟨state, hstate, -⟩ := h.chunked.waiting task htask
  rw [hmanifest state found hstate hfound, hsame.findByRecordHash]
  exact htrue state hstate

theorem finalize_objects (chunked : ChunkedStore A) (lookup : B3Hash → Option StoredRecord)
    (id shortSignature : JsString) :
    (chunked.finalize lookup id shortSignature).1.objects = chunked.objects := by
  unfold ChunkedStore.finalize
  split
  · rfl
  · rfl

/-- A call waits with what it has found in the store as it is. -/
theorem finalize_upToDate (store : RecordStore A) (id shortSignature : JsString)
    {task : Finalizing} (htask : task ∈
      (store.chunked.finalize store.findByRecordHash id shortSignature).1.awaiting) :
    task ∈ store.chunked.awaiting ∨ UpToDate { store with
      chunked := (store.chunked.finalize store.findByRecordHash id shortSignature).1 } task := by
  unfold ChunkedStore.finalize at htask ⊢
  split at htask
  · exact .inl htask
  · rename_i object state hupload
    rcases List.mem_append.1 htask with hold | hnew
    · exact .inl hold
    · refine .inr fun found hfound => ?_
      rw [List.mem_singleton.1 hnew] at hfound ⊢
      obtain ⟨current, -, hcurrent⟩ := Option.bind_eq_some_iff.1 hupload
      obtain ⟨existing, hexisting, hpair⟩ := Option.map_eq_some_iff.1 hcurrent
      cases hpair
      simp only at hfound ⊢
      rw [hexisting] at hfound
      cases hfound
      rfl

/-- A call that waits has waited before with what it has found, or has found what there is. -/
theorem perform_upToDate (h : store.Sound P) (hquiet : store.Quiet action)
    (hperform : store.perform P clock options action = some (next, result)) {task : Finalizing}
    (htask : task ∈ next.chunked.awaiting) :
    task ∈ store.chunked.awaiting ∧ (store.UpToDate task → next.UpToDate task) ∨
      next.UpToDate task := by
  have hsame := perform_sameRecords h hquiet hperform
  cases action with
  | appendObservedCheckpoint input now checkpointId =>
      simp only [perform, Option.some.injEq, Prod.mk.injEq] at hperform
      obtain ⟨rfl, -⟩ := hperform
      exact .inl ⟨htask, id⟩
  | getObservedSessionForBinding input =>
      simp only [perform, Option.some.injEq, Prod.mk.injEq] at hperform
      obtain ⟨rfl, -⟩ := hperform
      exact .inl ⟨htask, id⟩
  | saveRecord input now => exact hquiet.elim
  | begin uploadId manifest observation starting =>
      simp only [perform, Option.some.injEq, Prod.mk.injEq] at hperform
      obtain ⟨rfl, -⟩ := hperform
      rw [begin_awaiting] at htask
      refine .inl ⟨htask, UpToDate.kept h hsame htask fun state found hstate => ?_⟩
      exact begin_manifest options store.chunked uploadId manifest observation starting hstate
  | append uploadId offset events =>
      simp only [perform, Option.some.injEq, Prod.mk.injEq] at hperform
      obtain ⟨rfl, -⟩ := hperform
      rw [append_awaiting] at htask
      refine .inl ⟨htask, UpToDate.kept h hsame htask fun state found hstate hfound => ?_⟩
      rw [append_objects options store.chunked uploadId offset events hstate] at hfound
      rw [Option.some.inj hfound]
  | finalize uploadId shortSignature =>
      simp only [perform, Option.some.injEq, Prod.mk.injEq] at hperform
      obtain ⟨rfl, -⟩ := hperform
      rcases finalize_upToDate store uploadId shortSignature htask with hold | hnew
      · refine .inl ⟨hold, UpToDate.kept h hsame hold fun state found hstate hfound => ?_⟩
        rw [finalize_objects, hstate] at hfound
        rw [Option.some.inj hfound]
      · exact .inr hnew
  | resume =>
      rw [perform_resume h hquiet] at hperform
      cases hperform

/-! ## Candidates in order -/

/-- The candidates before these are taken by other records, or reserved. -/
def Tried (store : RecordStore A) (initialLength : Nat) (recordHash : B3Hash)
    (candidates : List JsString) : Prop :=
  ∃ tried, signatureCandidates initialLength recordHash = tried ++ candidates ∧
    ∀ candidate ∈ tried, store.candidateFree recordHash candidate = false

variable {initialLength : Nat}

/-- The first free candidate is one candidate. -/
theorem Tried.head_eq {other : JsString} {rest rest' : List JsString}
    (h : store.Tried initialLength recordHash (candidate :: rest))
    (h' : store.Tried initialLength recordHash (other :: rest'))
    (hfree : store.candidateFree recordHash candidate = true)
    (hfree' : store.candidateFree recordHash other = true) : candidate = other := by
  obtain ⟨tried, hsplit, htaken⟩ := h
  obtain ⟨tried', hsplit', htaken'⟩ := h'
  rw [hsplit] at hsplit'
  rcases List.append_eq_append_iff.1 hsplit' with ⟨middle, hlonger, hrest⟩ | ⟨middle, hlonger, hrest⟩
  · cases middle with
    | nil => exact (List.cons.inj hrest).1
    | cons first middle =>
        obtain ⟨rfl, -⟩ := List.cons.inj hrest
        have hmem : candidate ∈ tried' := by simp [hlonger]
        rw [htaken' candidate hmem] at hfree
        cases hfree
  · cases middle with
    | nil => exact (List.cons.inj hrest).1.symm
    | cons first middle =>
        obtain ⟨rfl, -⟩ := List.cons.inj hrest
        have hmem : other ∈ tried := by simp [hlonger]
        rw [htaken other hmem] at hfree'
        cases hfree'

theorem Tried.kept {candidates : List JsString}
    (h : store.Tried initialLength recordHash candidates)
    (hkept : ∀ candidate, InAlphabet candidate →
      next.candidateFree recordHash candidate = true →
        store.candidateFree recordHash candidate = true) :
    next.Tried initialLength recordHash candidates := by
  obtain ⟨tried, hsplit, htaken⟩ := h
  refine ⟨tried, hsplit, fun candidate hmem => ?_⟩
  have hcandidate : candidate ∈ signatureCandidates initialLength recordHash := by
    rw [hsplit]
    exact List.mem_append_left _ hmem
  by_contra hfree
  rw [Bool.not_eq_false] at hfree
  have hbefore := hkept candidate (candidate_inAlphabet hcandidate) hfree
  rw [htaken candidate hmem] at hbefore
  cases hbefore

/-- A candidate that is free with more records is free with fewer. -/
theorem candidateFree_of_kept (h : store.Sound P) (hid : store.Identified) (hnext : next.Sound P)
    (hidnext : next.Identified)
    (hpublished : ∀ record : StoredRecord, store.Published record → next.Published record)
    (halphabet : InAlphabet candidate)
    (hfree : next.candidateFree recordHash candidate = true) :
    store.candidateFree recordHash candidate = true := by
  obtain ⟨hreserved, hsame⟩ := (candidateFree_eq_true hnext hidnext halphabet).1 hfree
  exact (candidateFree_eq_true h hid halphabet).2
    ⟨hreserved, fun record hrecord => hsame record (hpublished record hrecord)⟩

end

end RecordStore

end Pmbah.Store
