import Pmbah.Store.SignatureInvariant

/-!
# Steps of the API

What a step keeps of a store whose records are identified by their signatures, if the save it
may make is timely.
-/

namespace Pmbah.Store

open Js Format Library

variable {A : Type}

namespace IngestApi

variable {P : Platform} {clock : Clock} {options : ChunkedOptions A} {initialLength : Nat}
variable {api next : IngestApi A}

structure Sound (P : Platform) (api : IngestApi A) : Prop where
  store : api.store.Sound P
  identified : api.store.Identified
  choosing : ∀ request ∈ api.requests, ∀ candidates, request.phase = .choosing candidates →
    ∀ candidate ∈ candidates, InAlphabet candidate
  chosen : ∀ request ∈ api.requests, ∀ shortSignature, request.phase = .chosen shortSignature →
    Proper shortSignature

theorem sound_empty (P : Platform) : Sound P (empty : IngestApi A) where
  store := RecordStore.sound_empty P
  identified := RecordStore.identified_empty
  choosing := by simp [empty]
  chosen := by simp [empty]

theorem Sound.withRequest (h : Sound P api) (publication : Publication) :
    Sound P { api with requests := api.requests ++ [opened initialLength publication] } where
  store := h.store
  identified := h.identified
  choosing := by
    intro request hrequest candidates hphase candidate hcandidate
    rcases List.mem_append.1 hrequest with hold | hnew
    · exact h.choosing request hold candidates hphase candidate hcandidate
    · rw [List.mem_singleton.1 hnew] at hphase
      cases hphase
      exact candidate_inAlphabet hcandidate
  chosen := by
    intro request hrequest shortSignature hphase
    rcases List.mem_append.1 hrequest with hold | hnew
    · exact h.chosen request hold shortSignature hphase
    · rw [List.mem_singleton.1 hnew] at hphase
      cases hphase

theorem Sound.withStore (h : Sound P api) {store : RecordStore A} (hstore : store.Sound P)
    (hid : store.Identified) {requests : List Request}
    (hrequests : ∀ request ∈ requests, request ∈ api.requests) : Sound P { store, requests } where
  store := hstore
  identified := hid
  choosing := fun request hrequest => h.choosing request (hrequests request hrequest)
  chosen := fun request hrequest => h.chosen request (hrequests request hrequest)

theorem Sound.examine (h : Sound P api) {place : Nat} {publication : Publication}
    {candidate : JsString} {candidates : List JsString}
    (hrequest : api.requests[place]? = some ⟨publication, .choosing (candidate :: candidates)⟩) :
    Sound P { api with
      requests := api.requests.set place ⟨publication,
        if api.store.candidateFree publication.recordHash candidate then .chosen candidate
        else .choosing candidates⟩ } := by
  have hall := h.choosing _ (List.mem_of_getElem? hrequest) _ rfl
  refine ⟨h.store, h.identified, ?_, ?_⟩
  · intro request hmem rest hphase other hother
    rcases List.mem_or_eq_of_mem_set hmem with hold | rfl
    · exact h.choosing request hold rest hphase other hother
    · simp only at hphase
      split at hphase
      · cases hphase
      · cases hphase
        exact hall other (List.mem_cons_of_mem _ hother)
  · intro request hmem shortSignature hphase
    rcases List.mem_or_eq_of_mem_set hmem with hold | rfl
    · exact h.chosen request hold shortSignature hphase
    · simp only at hphase
      split at hphase
      · rename_i hfree
        cases hphase
        exact ⟨hall candidate (List.mem_cons_self ..), (RecordStore.candidateFree_iff.1 hfree).1⟩
      · cases hphase

/-- A saved signature, whatever is saved. -/
theorem Sound.save (h : Sound P api) {place : Nat} {now : JsString} {publication : Publication}
    {shortSignature : JsString}
    (hrequest : api.requests[place]? = some ⟨publication, .chosen shortSignature⟩)
    (htimely : api.timely (.save place now) = true) {store : RecordStore A}
    {answer : Except StoreError (RecordStore.Response A)}
    (hperform : api.store.perform P clock options (publication.action shortSignature now) =
      some (store, answer)) :
    store.Identified ∧ ∀ record : StoredRecord, api.store.Published record →
      api.saves (.save place now) = some record.manifest.recordHash →
        ∃ response, answer = .ok response ∧ Existing record response := by
  have hproper := h.chosen _ (List.mem_of_getElem? hrequest) _ rfl
  simp only [saves, timely, hrequest] at htimely ⊢
  cases publication with
  | upload uploadId recordHash =>
      simp only [Publication.action, RecordStore.perform, Option.some.injEq, Prod.mk.injEq]
        at hperform
      obtain ⟨rfl, -⟩ := hperform
      refine ⟨RecordStore.finalize_identified h.store h.identified uploadId hproper, ?_⟩
      intro record hrecord hnone
      cases hnone
  | record input =>
      simp only [Publication.action, RecordStore.perform, Option.some.injEq, Prod.mk.injEq]
        at hperform
      obtain ⟨rfl, rfl⟩ := hperform
      simp only at htimely
      have hstored (record : StoredRecord)
          (hget : api.store.byHash.get? input.record.manifest.recordHash = some record) :
          record.shortSignature = shortSignature := by
        rw [hget] at htimely
        exact decide_eq_true_iff.1 htimely
      have hunused (hnone : api.store.findByRecordHash input.record.manifest.recordHash = none) :
          unused api.store.chunked.completed.values shortSignature = true := by
        obtain ⟨hinline, hchunked⟩ := Option.or_eq_none_iff.1 hnone
        rw [hinline, hchunked] at htimely
        simpa using htimely
      obtain ⟨hidentified, hrepublished⟩ := RecordStore.saveRecord_identified clock
        h.store h.identified { input with shortSignature } now hproper hstored hunused
      refine ⟨hidentified, fun record hrecord hsame => ?_⟩
      rw [hrepublished record hrecord (Option.some.inj hsame).symm]
      exact ⟨_, rfl, rfl, rfl⟩

theorem perform_spec (h : Sound P api) {call : Call}
    {answer : Option (Except StoreError (RecordStore.Response A))}
    (htimely : api.timely call = true)
    (hperform : api.perform P clock options initialLength call = some (next, answer)) :
    Sound P next ∧ ∀ record : StoredRecord, api.store.Published record →
      api.saves call = some record.manifest.recordHash →
        ∃ response, answer = some (.ok response) ∧ Existing record response := by
  have hquiet {call : Call} (hnone : api.saves call = none) (record : StoredRecord)
      (_ : api.store.Published record)
      (hsaves : api.saves call = some record.manifest.recordHash) :
      ∃ response, answer = some (.ok response) ∧ Existing record response := by
    rw [hnone] at hsaves
    cases hsaves
  cases call with
  | postRecord input =>
      simp only [perform, Option.some.injEq, Prod.mk.injEq] at hperform
      obtain ⟨rfl, -⟩ := hperform
      exact ⟨h.withRequest (.record input), hquiet rfl⟩
  | finalize uploadId =>
      simp only [perform] at hperform
      split at hperform
      · simp only [Option.some.injEq, Prod.mk.injEq] at hperform
        obtain ⟨rfl, -⟩ := hperform
        exact ⟨h, hquiet rfl⟩
      · rename_i object state hupload
        simp only [Option.some.injEq, Prod.mk.injEq] at hperform
        obtain ⟨rfl, -⟩ := hperform
        exact ⟨h.withRequest (.upload uploadId state.manifest.recordHash), hquiet rfl⟩
  | examine place =>
      simp only [perform] at hperform
      split at hperform
      · rename_i publication candidate candidates hrequest
        simp only [Option.some.injEq, Prod.mk.injEq] at hperform
        obtain ⟨rfl, -⟩ := hperform
        exact ⟨h.examine hrequest, hquiet rfl⟩
      · simp only [Option.some.injEq, Prod.mk.injEq] at hperform
        obtain ⟨rfl, -⟩ := hperform
        refine ⟨h.withStore h.store h.identified fun request hmem => ?_, hquiet rfl⟩
        exact (List.eraseIdx_sublist api.requests place).subset hmem
      · cases hperform
  | save place now =>
      simp only [perform] at hperform
      split at hperform
      · rename_i publication shortSignature hrequest
        obtain ⟨⟨store, saved⟩, hstore, hpair⟩ := Option.map_eq_some_iff.1 hperform
        simp only [Prod.mk.injEq] at hpair
        obtain ⟨rfl, rfl⟩ := hpair
        obtain ⟨hidentified, hrepublished⟩ := h.save hrequest htimely hstore
        refine ⟨h.withStore (RecordStore.perform_spec h.store hstore).1 hidentified
          fun request hmem => ?_, ?_⟩
        · exact (List.eraseIdx_sublist api.requests place).subset hmem
        · intro record hrecord hsaves
          obtain ⟨response, hresponse, hexisting⟩ := hrepublished record hrecord hsaves
          exact ⟨response, congrArg some hresponse, hexisting⟩
      · cases hperform
  | other action =>
      simp only [perform] at hperform
      split at hperform
      · cases hperform
      rename_i haction
      obtain ⟨⟨store, answered⟩, hstore, hpair⟩ := Option.map_eq_some_iff.1 hperform
      simp only [Prod.mk.injEq] at hpair
      obtain ⟨rfl, rfl⟩ := hpair
      have hsound := (RecordStore.perform_spec h.store hstore).1
      have hrequests : ∀ request ∈ api.requests, request ∈ api.requests := fun _ hmem => hmem
      cases action with
      | appendObservedCheckpoint input now checkpointId =>
          simp only [RecordStore.perform, Option.some.injEq, Prod.mk.injEq] at hstore
          obtain ⟨rfl, -⟩ := hstore
          refine ⟨h.withStore hsound (h.identified.quiet ?_ ?_ ?_ fun _ hmem => .inl hmem)
            hrequests, hquiet rfl⟩
          · rfl
          · rfl
          · rfl
      | getObservedSessionForBinding input =>
          simp only [RecordStore.perform, Option.some.injEq, Prod.mk.injEq] at hstore
          obtain ⟨rfl, -⟩ := hstore
          exact ⟨h.withStore hsound h.identified hrequests, hquiet rfl⟩
      | saveRecord input now => exact absurd rfl haction
      | finalize uploadId shortSignature => exact absurd rfl haction
      | begin uploadId manifest observation starting =>
          simp only [RecordStore.perform, Option.some.injEq, Prod.mk.injEq] at hstore
          obtain ⟨rfl, -⟩ := hstore
          have hcompleted := (ChunkedStore.begin_sound options h.store.chunked uploadId manifest
            observation starting).2.2
          refine ⟨h.withStore hsound (h.identified.quiet ?_ ?_ hcompleted ?_) hrequests,
            hquiet rfl⟩
          · rfl
          · rfl
          · intro task htask
            rw [RecordStore.begin_awaiting] at htask
            exact .inl htask
      | append uploadId offset events =>
          simp only [RecordStore.perform, Option.some.injEq, Prod.mk.injEq] at hstore
          obtain ⟨rfl, -⟩ := hstore
          have hcompleted := (ChunkedStore.append_sound options h.store.chunked uploadId offset
            events).2.2
          refine ⟨h.withStore hsound (h.identified.quiet ?_ ?_ hcompleted ?_) hrequests,
            hquiet rfl⟩
          · rfl
          · rfl
          · intro task htask
            rw [RecordStore.append_awaiting] at htask
            exact .inl htask
      | resume =>
          have hintime (task : Finalizing) (state : UploadState A)
              (hresuming : resuming api.store.chunked = some (task, state))
              (hnone : task.found.or
                (api.store.chunked.findCompleted state.manifest.recordHash) = none) :
              api.store.byHash.get? state.manifest.recordHash = none ∧
                (state.nextSeq = state.manifest.eventCount →
                  unused api.store.byHash.values task.shortSignature = true ∧
                  unused api.store.chunked.completed.values task.shortSignature = true) := by
            simp only [timely, hresuming, hnone, Option.isSome_none, Bool.false_or,
              Bool.and_eq_true, Option.isNone_iff_eq_none, Bool.or_eq_true, bne_iff_ne] at htimely
            exact ⟨htimely.1, fun hcomplete => htimely.2.resolve_left fun hne => hne hcomplete⟩
          obtain ⟨hidentified, hrepublished⟩ :=
            RecordStore.resume_identified h.store h.identified hstore hintime
          refine ⟨h.withStore hsound hidentified hrequests, fun record hrecord hsaves => ?_⟩
          obtain ⟨response, rfl, hexisting⟩ := hrepublished record hrecord hsaves
          exact ⟨response, rfl, hexisting⟩

end IngestApi

end Pmbah.Store
