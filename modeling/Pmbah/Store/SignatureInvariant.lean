import Pmbah.Store.Publication

/-!
# The signatures of a store

A record joins the others under a signature that none of them has, and every lookup by
signature or by hash finds the one record that has it.
-/

namespace Pmbah.Store

open Js Format Library

variable {A : Type}

/-- A signature that the API has chosen. -/
def Proper (shortSignature : JsString) : Prop :=
  InAlphabet shortSignature ∧ isReservedShortSignature shortSignature = false

namespace RecordStore

/-- The records of a store where short signatures identify them. -/
structure Identified (store : RecordStore A) : Prop where
  disjoint : ∀ (recordHash : B3Hash) (record : StoredRecord),
    store.byHash.get? recordHash = some record → store.chunked.completed.get? recordHash = none
  signed : ∀ (shortSignature : JsString) (recordHash : B3Hash),
    store.byShortSignature.get? shortSignature = some recordHash ↔
      ∃ record : StoredRecord, store.byHash.get? recordHash = some record ∧
        record.shortSignature = shortSignature
  apart : ∀ record other : StoredRecord, store.Published record → store.Published other →
    record.shortSignature = other.shortSignature →
      record.manifest.recordHash = other.manifest.recordHash
  proper : ∀ record : StoredRecord, store.Published record → Proper record.shortSignature
  tasks : ∀ task ∈ store.chunked.awaiting, Proper task.shortSignature ∧
    ∀ record ∈ task.found, store.Published record

theorem identified_empty : Identified (empty : RecordStore A) where
  disjoint := by simp [empty]
  signed := by simp [empty]
  apart := by simp [empty, Published, ChunkedStore.empty]
  proper := by simp [empty, Published, ChunkedStore.empty]
  tasks := by simp [empty, ChunkedStore.empty]

section

variable {P : Platform} {store next : RecordStore A}

theorem published_iff (h : store.Sound P) {record : StoredRecord} :
    store.Published record ↔
      store.byHash.get? record.manifest.recordHash = some record ∨
        store.chunked.completed.get? record.manifest.recordHash = some record := by
  constructor
  · rintro (⟨recordHash, hget⟩ | ⟨recordHash, hget⟩)
    · rw [(h.byHash recordHash record hget).1]
      exact .inl hget
    · rw [(h.chunked.completed recordHash record hget).1]
      exact .inr hget
  · rintro (hget | hget)
    · exact .inl ⟨_, hget⟩
    · exact .inr ⟨_, hget⟩

/-- A record is looked up under its hash. -/
theorem findByRecordHash_eq_some (h : store.Sound P) (hid : store.Identified)
    {recordHash : B3Hash} {record : StoredRecord} :
    store.findByRecordHash recordHash = some record ↔
      store.Published record ∧ record.manifest.recordHash = recordHash := by
  rw [findByRecordHash, ChunkedStore.findCompleted]
  constructor
  · intro hfound
    rcases Option.or_eq_some_iff.1 hfound with hget | ⟨-, hget⟩
    · exact ⟨.inl ⟨_, hget⟩, (h.byHash _ _ hget).1⟩
    · exact ⟨.inr ⟨_, hget⟩, (h.chunked.completed _ _ hget).1⟩
  · rintro ⟨hpublished, rfl⟩
    rcases (published_iff h).1 hpublished with hget | hget
    · rw [hget, Option.some_or]
    · cases hinline : store.byHash.get? record.manifest.recordHash with
      | none => rw [Option.none_or, hget]
      | some other =>
          rw [hid.disjoint _ other hinline] at hget
          cases hget

theorem Identified.eq_of_recordHash (hid : store.Identified) (h : store.Sound P)
    {record other : StoredRecord} (hrecord : store.Published record)
    (hother : store.Published other)
    (hsame : record.manifest.recordHash = other.manifest.recordHash) : record = other := by
  have hfound := (findByRecordHash_eq_some h hid).2 ⟨hrecord, hsame⟩
  rw [(findByRecordHash_eq_some h hid).2 ⟨hother, rfl⟩] at hfound
  exact (Option.some.inj hfound).symm

theorem Identified.eq_of_shortSignature (hid : store.Identified) (h : store.Sound P)
    {record other : StoredRecord} (hrecord : store.Published record)
    (hother : store.Published other) (hsame : record.shortSignature = other.shortSignature) :
    record = other :=
  hid.eq_of_recordHash h hrecord hother (hid.apart record other hrecord hother hsame)

theorem Identified.findByShortSignature (hid : store.Identified) (h : store.Sound P)
    {record : StoredRecord} (hpublished : store.Published record) :
    store.findByShortSignature record.shortSignature = some record := by
  have halphabet := (hid.proper record hpublished).1
  rw [RecordStore.findByShortSignature]
  cases hget : store.byShortSignature.get? record.shortSignature with
  | some recordHash =>
      obtain ⟨other, hother, hsame⟩ := (hid.signed _ _).1 hget
      have hinline : store.Published other := .inl ⟨_, hother⟩
      rw [hid.eq_of_shortSignature h hinline hpublished hsame] at hother
      exact (findByRecordHash_eq_some h hid).2 ⟨hpublished, (h.byHash _ _ hother).1⟩
  | none =>
      have hchunked : store.chunked.completed.get? record.manifest.recordHash = some record := by
        rcases (published_iff h).1 hpublished with hinline | hchunked
        · rw [(hid.signed _ _).2 ⟨record, hinline, rfl⟩] at hget
          cases hget
        · exact hchunked
      show store.chunked.findCompletedById record.shortSignature = some record
      rw [findCompletedById_signature halphabet]
      cases hfind : store.chunked.completed.values.find?
          (·.shortSignature = record.shortSignature) with
      | none =>
          have hnone := List.find?_eq_none.1 hfind record
            (OrderedMap.mem_values_iff.2 ⟨_, hchunked⟩)
          simp at hnone
      | some other =>
          obtain ⟨recordHash, hother⟩ :=
            OrderedMap.mem_values_iff.1 (List.mem_of_find?_eq_some hfind)
          have hsame := List.find?_some hfind
          rw [decide_eq_true_iff] at hsame
          rw [hid.eq_of_shortSignature h (.inr ⟨_, hother⟩) hpublished hsame]

/-- A signature does not begin like the text of a hash. -/
theorem findByShortSignatureOrHash_eq {shortSignature : JsString}
    (halphabet : InAlphabet shortSignature) :
    store.findByShortSignatureOrHash shortSignature = store.findByShortSignature shortSignature := by
  rw [findByShortSignatureOrHash, if_neg]
  intro hprefix
  obtain ⟨rest, hrest⟩ := List.isPrefixOf_iff_prefix.1 hprefix
  have hcolon : (58 : UInt16) ∈ shortSignature := by
    rw [← hrest]
    exact List.mem_append_left _ (show (58 : UInt16) ∈ hashPrefix by decide)
  exact absurd (halphabet 58 hcolon) (by decide)

/-- A candidate that is taken is not reserved, and no other record has it. -/
theorem candidateFree_iff {recordHash : B3Hash} {candidate : JsString} :
    store.candidateFree recordHash candidate = true ↔
      isReservedShortSignature candidate = false ∧
        ∀ record, store.findByShortSignature candidate = some record →
          record.manifest.recordHash = recordHash := by
  rw [candidateFree, Bool.and_eq_true, Bool.not_eq_true']
  cases store.findByShortSignature candidate with
  | none => simp
  | some record => simp

/-! ## What the calls change -/

theorem unused_iff {records : OrderedMap B3Hash StoredRecord} {shortSignature : JsString} :
    IngestApi.unused records.values shortSignature = true ↔
      ∀ (recordHash : B3Hash) (record : StoredRecord), records.get? recordHash = some record →
        record.shortSignature ≠ shortSignature := by
  rw [IngestApi.unused, List.all_eq_true]
  constructor
  · intro h recordHash record hget
    exact decide_eq_true_iff.1 (h record (OrderedMap.mem_values_iff.2 ⟨recordHash, hget⟩))
  · intro h record hmem
    obtain ⟨recordHash, hget⟩ := OrderedMap.mem_values_iff.1 hmem
    exact decide_eq_true_iff.2 (h recordHash record hget)

/-- A call that stores no record. -/
theorem Identified.quiet (hid : store.Identified) (hbyHash : next.byHash = store.byHash)
    (hbyShort : next.byShortSignature = store.byShortSignature)
    (hcompleted : next.chunked.completed = store.chunked.completed)
    (hawaiting : ∀ task ∈ next.chunked.awaiting, task ∈ store.chunked.awaiting ∨
      Proper task.shortSignature ∧ ∀ record ∈ task.found, store.Published record) :
    next.Identified := by
  have hpublished (record : StoredRecord) : next.Published record ↔ store.Published record := by
    rw [Published, Published, hbyHash, hcompleted]
  constructor
  case disjoint =>
    rw [hbyHash, hcompleted]
    exact hid.disjoint
  case signed =>
    rw [hbyHash, hbyShort]
    exact hid.signed
  case apart =>
    intro record other hrecord hother
    exact hid.apart record other ((hpublished record).1 hrecord) ((hpublished other).1 hother)
  case proper => exact fun record hrecord => hid.proper record ((hpublished record).1 hrecord)
  case tasks =>
    intro task htask
    simp only [hpublished]
    rcases hawaiting task htask with hmem | hnew
    · exact hid.tasks task hmem
    · exact hnew

/-- A record joins the others under a signature that none of them has. -/
theorem Identified.add (hid : store.Identified) (record : StoredRecord)
    (hpublished : ∀ other : StoredRecord,
      next.Published other ↔ other = record ∨ store.Published other)
    (hdisjoint : ∀ (recordHash : B3Hash) (other : StoredRecord),
      next.byHash.get? recordHash = some other → next.chunked.completed.get? recordHash = none)
    (hsigned : ∀ (shortSignature : JsString) (recordHash : B3Hash),
      next.byShortSignature.get? shortSignature = some recordHash ↔
        ∃ other : StoredRecord, next.byHash.get? recordHash = some other ∧
          other.shortSignature = shortSignature)
    (hunused : ∀ other : StoredRecord, store.Published other →
      other.shortSignature ≠ record.shortSignature)
    (hproper : Proper record.shortSignature)
    (hawaiting : ∀ task ∈ next.chunked.awaiting, task ∈ store.chunked.awaiting) :
    next.Identified := by
  constructor
  case disjoint => exact hdisjoint
  case signed => exact hsigned
  case apart =>
    intro first second hfirst hsecond hsame
    rcases (hpublished first).1 hfirst with rfl | hfirst
    · rcases (hpublished second).1 hsecond with rfl | hsecond
      · rfl
      · exact absurd hsame.symm (hunused second hsecond)
    · rcases (hpublished second).1 hsecond with rfl | hsecond
      · exact absurd hsame (hunused first hfirst)
      · exact hid.apart first second hfirst hsecond hsame
  case proper =>
    intro other hother
    rcases (hpublished other).1 hother with rfl | hother
    · exact hproper
    · exact hid.proper other hother
  case tasks =>
    intro task htask
    obtain ⟨hsignature, hfound⟩ := hid.tasks task (hawaiting task htask)
    exact ⟨hsignature, fun other hother => (hpublished other).2 (.inr (hfound other hother))⟩

/-- A posted record that is not stored. -/
theorem Identified.save (hid : store.Identified) {recordHash : B3Hash} {record : StoredRecord}
    (hinline : store.byHash.get? recordHash = none)
    (hchunked : store.chunked.completed.get? recordHash = none)
    (howner : (store.byShortSignature.get? record.shortSignature).any (· ≠ recordHash) = false)
    (hunused : IngestApi.unused store.chunked.completed.values record.shortSignature = true)
    (hproper : Proper record.shortSignature)
    (sessions : OrderedMap JsString ObservedSession) :
    Identified { store with
      byHash := store.byHash.set recordHash record
      byShortSignature := store.byShortSignature.set record.shortSignature recordHash
      observedSessions := sessions } := by
  have hfree : store.byShortSignature.get? record.shortSignature = none := by
    cases hget : store.byShortSignature.get? record.shortSignature with
    | none => rfl
    | some other =>
        rw [hget, Option.any_some, decide_eq_false_iff_not, not_not] at howner
        obtain ⟨stored, hstored, -⟩ := (hid.signed _ _).1 hget
        rw [howner, hinline] at hstored
        cases hstored
  apply hid.add record
  case hpublished =>
    intro other
    rw [Published, Published]
    constructor
    · rintro (⟨otherHash, hget⟩ | hget)
      · simp only [OrderedMap.get?_set] at hget
        split at hget
        · exact .inl (Option.some.inj hget).symm
        · exact .inr (.inl ⟨otherHash, hget⟩)
      · exact .inr (.inr hget)
    · rintro (rfl | ⟨otherHash, hget⟩ | hget)
      · exact .inl ⟨recordHash, OrderedMap.get?_set_self _ _ _⟩
      · refine .inl ⟨otherHash, ?_⟩
        rw [OrderedMap.get?_set_ne, hget]
        rintro rfl
        rw [hinline] at hget
        cases hget
      · exact .inr hget
  case hdisjoint =>
    intro otherHash other hget
    simp only [OrderedMap.get?_set] at hget
    split at hget
    · rename_i hsame
      rw [hsame]
      exact hchunked
    · exact hid.disjoint otherHash other hget
  case hsigned =>
    intro shortSignature otherHash
    simp only [OrderedMap.get?_set]
    by_cases hsignature : shortSignature = record.shortSignature
    · subst hsignature
      rw [if_pos rfl]
      constructor
      · rintro hsome
        cases hsome
        exact ⟨record, if_pos rfl, rfl⟩
      · rintro ⟨other, hother, hsame⟩
        split at hother
        · rename_i hhash
          rw [hhash]
        · have htaken := (hid.signed record.shortSignature otherHash).2 ⟨other, hother, hsame⟩
          rw [hfree] at htaken
          cases htaken
    · rw [if_neg hsignature, hid.signed]
      constructor
      · rintro ⟨other, hother, hsame⟩
        refine ⟨other, ?_, hsame⟩
        rw [if_neg, hother]
        rintro rfl
        rw [hinline] at hother
        cases hother
      · rintro ⟨other, hother, hsame⟩
        split at hother
        · cases hother
          exact absurd hsame.symm hsignature
        · exact ⟨other, hother, hsame⟩
  case hunused =>
    rintro other (⟨otherHash, hget⟩ | ⟨otherHash, hget⟩) hsame
    · have htaken := (hid.signed record.shortSignature otherHash).2 ⟨other, hget, hsame⟩
      rw [hfree] at htaken
      cases htaken
    · exact unused_iff.1 hunused otherHash other hget hsame
  case hproper => exact hproper
  case hawaiting => exact fun task htask => htask

/-- An upload that is published. -/
theorem Identified.publish (hid : store.Identified) {recordHash : B3Hash} {record : StoredRecord}
    (hinline : store.byHash.get? recordHash = none)
    (hchunked : store.chunked.completed.get? recordHash = none)
    (hunused : IngestApi.unused store.byHash.values record.shortSignature = true)
    (hunused' : IngestApi.unused store.chunked.completed.values record.shortSignature = true)
    (hproper : Proper record.shortSignature) (hbyHash : next.byHash = store.byHash)
    (hbyShort : next.byShortSignature = store.byShortSignature)
    (hcompleted : next.chunked.completed = store.chunked.completed.set recordHash record)
    (hawaiting : ∀ task ∈ next.chunked.awaiting, task ∈ store.chunked.awaiting) :
    next.Identified := by
  apply hid.add record
  case hpublished =>
    intro other
    rw [Published, Published, hbyHash, hcompleted]
    constructor
    · rintro (hget | ⟨otherHash, hget⟩)
      · exact .inr (.inl hget)
      · rw [OrderedMap.get?_set] at hget
        split at hget
        · exact .inl (Option.some.inj hget).symm
        · exact .inr (.inr ⟨otherHash, hget⟩)
    · rintro (rfl | hget | ⟨otherHash, hget⟩)
      · exact .inr ⟨recordHash, OrderedMap.get?_set_self _ _ _⟩
      · exact .inl hget
      · refine .inr ⟨otherHash, ?_⟩
        rw [OrderedMap.get?_set_ne, hget]
        rintro rfl
        rw [hchunked] at hget
        cases hget
  case hdisjoint =>
    intro otherHash other hget
    rw [hbyHash] at hget
    rw [hcompleted, OrderedMap.get?_set_ne]
    · exact hid.disjoint otherHash other hget
    · rintro rfl
      rw [hinline] at hget
      cases hget
  case hsigned =>
    rw [hbyHash, hbyShort]
    exact hid.signed
  case hunused =>
    rintro other (⟨otherHash, hget⟩ | ⟨otherHash, hget⟩)
    · exact unused_iff.1 hunused otherHash other hget
    · exact unused_iff.1 hunused' otherHash other hget
  case hproper => exact hproper
  case hawaiting => exact hawaiting

variable {clock : Clock} {options : ChunkedOptions A}

/-- A posted record, saved in time. -/
theorem saveRecord_identified (clock : Clock) (h : store.Sound P) (hid : store.Identified)
    (input : SaveRecordInput) (now : JsString) (hproper : Proper input.shortSignature)
    (hstored : ∀ record : StoredRecord,
      store.byHash.get? input.record.manifest.recordHash = some record →
        record.shortSignature = input.shortSignature)
    (hunused : store.findByRecordHash input.record.manifest.recordHash = none →
      IngestApi.unused store.chunked.completed.values input.shortSignature = true) :
    (store.saveRecord P clock input now).1.Identified ∧
      ∀ record : StoredRecord, store.Published record →
        record.manifest.recordHash = input.record.manifest.recordHash →
          (store.saveRecord P clock input now).2 = .ok ⟨record, false⟩ := by
  have hfound (record : StoredRecord) (hpublished : store.Published record)
      (hsame : record.manifest.recordHash = input.record.manifest.recordHash) :=
    (findByRecordHash_eq_some h hid).2 ⟨hpublished, hsame⟩
  simp only [saveRecord, findByRecordHash] at hfound hunused ⊢
  cases hchunked : store.chunked.findCompleted input.record.manifest.recordHash with
  | some chunked =>
      refine ⟨hid, fun record hpublished hsame => ?_⟩
      have hone := hid.eq_of_recordHash h hpublished (.inr ⟨_, hchunked⟩)
        (hsame.trans (h.chunked.completed _ _ hchunked).1.symm)
      rw [hone]
  | none =>
      cases hinline : store.byHash.get? input.record.manifest.recordHash with
      | some existing =>
          have hsignature := hstored existing hinline
          simp only [hsignature, ne_eq, not_true, if_false]
          refine ⟨hid, fun record hpublished hsame => ?_⟩
          have hone := hfound record hpublished hsame
          rw [hinline, Option.some_or] at hone
          rw [Option.some.inj hone]
      | none =>
          rw [hinline, hchunked] at hunused
          have habsent (record : StoredRecord) (hpublished : store.Published record)
              (hsame : record.manifest.recordHash = input.record.manifest.recordHash) : False := by
            have hone := hfound record hpublished hsame
            rw [hinline, hchunked] at hone
            cases hone
          simp only
          split
          · exact ⟨hid, fun record hpublished hsame => (habsent record hpublished hsame).elim⟩
          rename_i howner
          split
          · exact ⟨hid, fun record hpublished hsame => (habsent record hpublished hsame).elim⟩
          · exact ⟨hid.save hinline hchunked (Bool.eq_false_iff.2 howner) (hunused rfl) hproper _,
              fun record hpublished hsame => (habsent record hpublished hsame).elim⟩

theorem begin_awaiting (chunked : ChunkedStore A) (uploadId : JsString)
    (manifest : RecordManifest) (observation : Option UploadObservation) (starting : Option Nat) :
    (chunked.begin P options uploadId manifest observation starting).1.awaiting =
      chunked.awaiting := by
  unfold ChunkedStore.begin
  repeat (split; · rfl)
  split
  · split
    · rfl
    · split <;> rfl
  · rfl

theorem append_awaiting (chunked : ChunkedStore A) (id : JsString) (offset : Nat)
    (events : List Json) :
    (chunked.append P options id offset events).1.awaiting = chunked.awaiting := by
  unfold ChunkedStore.append
  split
  · rfl
  split
  · rfl
  split
  · rfl
  split
  · split
    · rfl
    · rfl
    · split <;> rfl
  · split
    · rfl
    · split <;> rfl

theorem finalize_identified (h : store.Sound P) (hid : store.Identified) (id : JsString)
    {shortSignature : JsString} (hproper : Proper shortSignature) :
    Identified { store with
      chunked := (store.chunked.finalize store.findByRecordHash id shortSignature).1 } := by
  unfold ChunkedStore.finalize
  split
  · exact hid
  · rename_i object state hupload
    refine hid.quiet ?_ ?_ ?_ ?_
    · rfl
    · rfl
    · rfl
    intro task htask
    rcases List.mem_append.1 htask with hold | hnew
    · exact .inl hold
    · rw [List.mem_singleton.1 hnew]
      exact .inr ⟨hproper, fun record hrecord => ((findByRecordHash_eq_some h hid).1 hrecord).1⟩

/-- A `finalize` that resumes in time. -/
theorem resume_identified (h : store.Sound P) (hid : store.Identified)
    {result : Except StoreError (Response A)}
    (hperform : store.perform P clock options .resume = some (next, result))
    (htimely : ∀ (task : Finalizing) (state : UploadState A),
      IngestApi.resuming store.chunked = some (task, state) →
        task.found.or (store.chunked.findCompleted state.manifest.recordHash) = none →
          store.byHash.get? state.manifest.recordHash = none ∧
            (state.nextSeq = state.manifest.eventCount →
              IngestApi.unused store.byHash.values task.shortSignature = true ∧
              IngestApi.unused store.chunked.completed.values task.shortSignature = true)) :
    next.Identified ∧ ∀ record : StoredRecord, store.Published record →
      (IngestApi.resuming store.chunked).map (fun entry => entry.2.manifest.recordHash) =
          some record.manifest.recordHash →
        ∃ response, result = .ok response ∧ IngestApi.Existing record response := by
  simp only [perform] at hperform
  split at hperform
  · cases hperform
  rename_i task awaiting hawaiting
  have htask : task ∈ store.chunked.awaiting := by
    rw [hawaiting]
    exact List.mem_cons_self ..
  obtain ⟨state, hstate, -, hfoundHash⟩ := h.chunked.waiting task htask
  have hresuming : IngestApi.resuming store.chunked = some (task, state) := by
    rw [IngestApi.resuming, hawaiting, List.head?_cons, Option.bind_some, hstate, Option.map_some]
  have hrest (other : Finalizing) (hother : other ∈ awaiting) :
      other ∈ store.chunked.awaiting := by
    rw [hawaiting]
    exact List.mem_cons_of_mem _ hother
  simp only [hresuming, Option.map_some, Option.some.injEq]
  simp only [ChunkedStore.finishFinalize, hstate] at hperform
  have hcompleted : ({ store.chunked with awaiting } : ChunkedStore A).findCompleted
      state.manifest.recordHash = store.chunked.findCompleted state.manifest.recordHash := rfl
  rw [hcompleted] at hperform
  cases hexisting : task.found.or (store.chunked.findCompleted state.manifest.recordHash) with
  | some existing =>
      rw [hexisting] at hperform
      simp only [Option.some.injEq, Prod.mk.injEq] at hperform
      obtain ⟨rfl, rfl⟩ := hperform
      have hpublished : store.Published existing ∧
          existing.manifest.recordHash = state.manifest.recordHash := by
        rcases Option.or_eq_some_iff.1 hexisting with hfound | ⟨-, hget⟩
        · exact ⟨(hid.tasks task htask).2 existing hfound, hfoundHash existing hfound⟩
        · exact ⟨.inr ⟨_, hget⟩, (h.chunked.completed _ _ hget).1⟩
      refine ⟨hid.quiet rfl rfl rfl fun other hother => .inl (hrest other hother), ?_⟩
      intro record hrecord hsame
      have hone := hid.eq_of_recordHash h hpublished.1 hrecord (hpublished.2.trans hsame)
      subst hone
      exact ⟨_, rfl, rfl, rfl, rfl⟩
  | none =>
      obtain ⟨hinline, hunused⟩ := htimely task state hresuming hexisting
      have hchunked := (Option.or_eq_none_iff.1 hexisting).2
      have hproper := (hid.tasks task htask).1
      have habsent (record : StoredRecord) (hrecord : store.Published record)
          (hsame : state.manifest.recordHash = record.manifest.recordHash) : False := by
        rcases (published_iff h).1 hrecord with hget | hget
        · rw [← hsame, hinline] at hget
          cases hget
        · rw [← hsame] at hget
          rw [ChunkedStore.findCompleted, hget] at hchunked
          cases hchunked
      rw [hexisting] at hperform
      refine ⟨?_, fun record hrecord hsame => (habsent record hrecord hsame).elim⟩
      have hsame (sessions : OrderedMap JsString ObservedSession) : Identified
          { store with
            chunked := { store.chunked with awaiting }, observedSessions := sessions } := by
        refine hid.quiet ?_ ?_ ?_ fun other hother => .inl (hrest other hother)
        · rfl
        · rfl
        · rfl
      simp only [Option.some.injEq, Prod.mk.injEq] at hperform
      obtain ⟨rfl, -⟩ := hperform
      split
      · exact hsame _
      split
      · exact hsame _
      split
      · exact hsame _
      · obtain ⟨hcomplete, -⟩ := ChunkedStore.derive_ok ‹_›
        apply hid.publish hinline hchunked
        case hcompleted => rfl
        case hbyHash => rfl
        case hbyShort => rfl
        case hunused => exact (hunused hcomplete).1
        case hunused' => exact (hunused hcomplete).2
        case hproper => exact hproper
        case hawaiting => exact hrest

end

end RecordStore

end Pmbah.Store
