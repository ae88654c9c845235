import Pmbah.Store.QuietCalls
import Pmbah.Store.SignatureSteps

/-!
# Undisturbed requests

A request whose lookup and save no other save separates is timely: its record has the
candidate that it found free, or no record has it.
-/

namespace Pmbah.Store

open Js Format Library

variable {A : Type}

namespace IngestApi

variable {P : Platform} {clock : Clock} {options : ChunkedOptions A} {initialLength : Nat}
variable {api next : IngestApi A}

/-- Every request, and every record that was posted, has tried the candidates in their order. -/
structure InOrder (initialLength : Nat) (api : IngestApi A) : Prop where
  choosing : ∀ request ∈ api.requests, ∀ candidates, request.phase = .choosing candidates →
    api.store.Tried initialLength request.publication.recordHash candidates
  chosen : ∀ request ∈ api.requests, ∀ shortSignature, request.phase = .chosen shortSignature →
    ∃ rest, api.store.Tried initialLength request.publication.recordHash (shortSignature :: rest)
  posted : ∀ (recordHash : B3Hash) (record : StoredRecord),
    api.store.byHash.get? recordHash = some record →
      ∃ rest, api.store.Tried initialLength recordHash (record.shortSignature :: rest)

theorem inOrder_empty (initialLength : Nat) : InOrder initialLength (empty : IngestApi A) where
  choosing := by simp [empty]
  chosen := by simp [empty]
  posted := by simp [empty, RecordStore.empty]

theorem InOrder.withRequest (h : InOrder initialLength api) (publication : Publication) :
    InOrder initialLength
      { api with requests := api.requests ++ [opened initialLength publication] } where
  choosing := by
    intro request hrequest candidates hphase
    rcases List.mem_append.1 hrequest with hold | hnew
    · exact h.choosing request hold candidates hphase
    · rw [List.mem_singleton.1 hnew] at hphase ⊢
      cases hphase
      exact ⟨[], rfl, by simp⟩
  chosen := by
    intro request hrequest shortSignature hphase
    rcases List.mem_append.1 hrequest with hold | hnew
    · exact h.chosen request hold shortSignature hphase
    · rw [List.mem_singleton.1 hnew] at hphase
      cases hphase
  posted := h.posted

theorem InOrder.withRequests (h : InOrder initialLength api) {requests : List Request}
    (hrequests : ∀ request ∈ requests, request ∈ api.requests) :
    InOrder initialLength { api with requests } where
  choosing := fun request hrequest => h.choosing request (hrequests request hrequest)
  chosen := fun request hrequest => h.chosen request (hrequests request hrequest)
  posted := h.posted

theorem InOrder.examine (h : InOrder initialLength api) {place : Nat} {publication : Publication}
    {candidate : JsString} {candidates : List JsString}
    (hrequest : api.requests[place]? = some ⟨publication, .choosing (candidate :: candidates)⟩) :
    InOrder initialLength { api with
      requests := api.requests.set place ⟨publication,
        if api.store.candidateFree publication.recordHash candidate then .chosen candidate
        else .choosing candidates⟩ } := by
  have hall := h.choosing _ (List.mem_of_getElem? hrequest) _ rfl
  refine ⟨?_, ?_, h.posted⟩
  · intro request hmem rest hphase
    rcases List.mem_or_eq_of_mem_set hmem with hold | rfl
    · exact h.choosing request hold rest hphase
    · simp only at hphase
      split at hphase
      · cases hphase
      · rename_i htaken
        cases hphase
        obtain ⟨tried, hsplit, hbefore⟩ := hall
        refine ⟨tried ++ [candidate], by simp [hsplit], fun other hother => ?_⟩
        rcases List.mem_append.1 hother with htried | hlast
        · exact hbefore other htried
        · rw [List.mem_singleton.1 hlast]
          exact Bool.eq_false_iff.2 htaken
  · intro request hmem shortSignature hphase
    rcases List.mem_or_eq_of_mem_set hmem with hold | rfl
    · exact h.chosen request hold shortSignature hphase
    · simp only at hphase
      split at hphase
      · cases hphase
        exact ⟨candidates, hall⟩
      · cases hphase

/-- Records that join the others take more candidates, never fewer. -/
theorem InOrder.withStore (h : InOrder initialLength api) (hsound : Sound P api)
    {store : RecordStore A} (hstore : store.Sound P) (hid : store.Identified)
    (hpublished : ∀ record : StoredRecord, api.store.Published record → store.Published record)
    (hposted : ∀ (recordHash : B3Hash) (record : StoredRecord),
      store.byHash.get? recordHash = some record →
        api.store.byHash.get? recordHash = some record ∨
          ∃ request ∈ api.requests, request.publication.recordHash = recordHash ∧
            request.phase = .chosen record.shortSignature) :
    InOrder initialLength { api with store } := by
  have hkept {recordHash : B3Hash} {candidates : List JsString}
      (htried : api.store.Tried initialLength recordHash candidates) :
      store.Tried initialLength recordHash candidates :=
    htried.kept fun candidate halphabet => RecordStore.candidateFree_of_kept hsound.store
      hsound.identified hstore hid hpublished halphabet
  refine ⟨fun request hmem candidates hphase => hkept (h.choosing request hmem candidates hphase),
    fun request hmem shortSignature hphase => ?_, fun recordHash record hget => ?_⟩
  · obtain ⟨rest, htried⟩ := h.chosen request hmem shortSignature hphase
    exact ⟨rest, hkept htried⟩
  · rcases hposted recordHash record hget with hold | ⟨request, hmem, rfl, hphase⟩
    · obtain ⟨rest, htried⟩ := h.posted recordHash record hold
      exact ⟨rest, hkept htried⟩
    · obtain ⟨rest, htried⟩ := h.chosen request hmem _ hphase
      exact ⟨rest, hkept htried⟩

theorem InOrder.perform (h : InOrder initialLength api) (hsound : Sound P api) {call : Call}
    {answer : Option (Except StoreError (RecordStore.Response A))}
    (htimely : api.timely call = true)
    (hperform : api.perform P clock options initialLength call = some (next, answer)) :
    InOrder initialLength next := by
  have hnext := (perform_spec hsound htimely hperform).1
  cases call with
  | postRecord input =>
      simp only [IngestApi.perform, Option.some.injEq, Prod.mk.injEq] at hperform
      obtain ⟨rfl, -⟩ := hperform
      exact h.withRequest (.record input)
  | finalize uploadId =>
      simp only [IngestApi.perform] at hperform
      split at hperform
      · simp only [Option.some.injEq, Prod.mk.injEq] at hperform
        obtain ⟨rfl, -⟩ := hperform
        exact h
      · rename_i object state hupload
        simp only [Option.some.injEq, Prod.mk.injEq] at hperform
        obtain ⟨rfl, -⟩ := hperform
        exact h.withRequest (.upload uploadId state.manifest.recordHash)
  | examine place =>
      simp only [IngestApi.perform] at hperform
      split at hperform
      · rename_i publication candidate candidates hrequest
        simp only [Option.some.injEq, Prod.mk.injEq] at hperform
        obtain ⟨rfl, -⟩ := hperform
        exact h.examine hrequest
      · simp only [Option.some.injEq, Prod.mk.injEq] at hperform
        obtain ⟨rfl, -⟩ := hperform
        exact h.withRequests fun request hmem =>
          (List.eraseIdx_sublist api.requests place).subset hmem
      · cases hperform
  | save place now =>
      simp only [IngestApi.perform] at hperform
      split at hperform
      · rename_i publication shortSignature hrequest
        obtain ⟨⟨store, saved⟩, hstore, hpair⟩ := Option.map_eq_some_iff.1 hperform
        simp only [Prod.mk.injEq] at hpair
        obtain ⟨rfl, rfl⟩ := hpair
        have hkept : InOrder initialLength { api with store } := by
          refine h.withStore hsound hnext.store hnext.identified
            (fun record => RecordStore.perform_published hsound.store hstore) ?_
          intro recordHash record hget
          rcases RecordStore.perform_byHash hsound.store hstore hget with
            hold | ⟨input, time, haction, rfl, hsignature⟩
          · exact .inl hold
          · refine .inr ⟨_, List.mem_of_getElem? hrequest, ?_, ?_⟩
            · cases publication with
              | record posted =>
                  cases haction
                  rfl
              | upload uploadId recordHash => cases haction
            · cases publication with
              | record posted =>
                  cases haction
                  rw [hsignature]
              | upload uploadId recordHash => cases haction
        exact hkept.withRequests fun request hmem =>
          (List.eraseIdx_sublist api.requests place).subset hmem
      · cases hperform
  | other action =>
      simp only [IngestApi.perform] at hperform
      split at hperform
      · cases hperform
      rename_i haction
      obtain ⟨⟨store, answered⟩, hstore, hpair⟩ := Option.map_eq_some_iff.1 hperform
      simp only [Prod.mk.injEq] at hpair
      obtain ⟨rfl, rfl⟩ := hpair
      refine h.withStore hsound hnext.store hnext.identified
        (fun record => RecordStore.perform_published hsound.store hstore) ?_
      intro recordHash record hget
      rcases RecordStore.perform_byHash hsound.store hstore hget with
        hold | ⟨input, time, rfl, -⟩
      · exact .inl hold
      · exact absurd rfl haction

theorem inOrder_run (run : Run (step P clock options initialLength)
    (fun api call => api.timely call = true) .empty api) :
    Sound P api ∧ InOrder initialLength api := by
  refine Run.invariant (I := fun api => Sound P api ∧ InOrder initialLength api) ?_ run
    ⟨sound_empty P, inOrder_empty initialLength⟩
  rintro api call next ⟨hsound, horder⟩ htimely htaken
  obtain ⟨⟨reached, answer⟩, hperform, rfl⟩ := Option.map_eq_some_iff.1 htaken
  exact ⟨(perform_spec hsound htimely hperform).1, horder.perform hsound htimely hperform⟩

/-! ## Requests that no save separates -/

theorem timely_of_saves {call : Call} (hquiet : api.saves call = none) :
    api.timely call = true := by
  cases call with
  | save place now =>
      simp only [saves] at hquiet
      simp only [timely]
      split at hquiet
      · cases hquiet
      · rfl
  | other action =>
      cases action with
      | resume =>
          simp only [timely, Option.map_eq_none_iff.1 hquiet]
      | _ => rfl
  | _ => rfl

theorem mem_of_resuming {chunked : ChunkedStore A} {task : Finalizing} {state : UploadState A}
    (hresuming : resuming chunked = some (task, state)) :
    task ∈ chunked.awaiting ∧ chunked.objects[task.object]? = some state := by
  obtain ⟨first, hfirst, hstate⟩ := Option.bind_eq_some_iff.1 hresuming
  obtain ⟨found, hfound, hpair⟩ := Option.map_eq_some_iff.1 hstate
  cases hpair
  exact ⟨List.mem_of_mem_head? hfirst, hfound⟩

/-- A step that saves no record takes the store by a quiet call, if at all. -/
theorem perform_quiet {call : Call}
    {answer : Option (Except StoreError (RecordStore.Response A))}
    (hsaves : api.saves call = none)
    (hperform : api.perform P clock options initialLength call = some (next, answer)) :
    next.store = api.store ∨ ∃ action result, api.store.Quiet action ∧
      api.store.perform P clock options action = some (next.store, result) := by
  cases call with
  | postRecord input =>
      simp only [perform, Option.some.injEq, Prod.mk.injEq] at hperform
      obtain ⟨rfl, -⟩ := hperform
      exact .inl rfl
  | finalize uploadId =>
      simp only [perform] at hperform
      split at hperform
      all_goals
        simp only [Option.some.injEq, Prod.mk.injEq] at hperform
        obtain ⟨rfl, -⟩ := hperform
        exact .inl rfl
  | examine place =>
      simp only [perform] at hperform
      split at hperform
      · simp only [Option.some.injEq, Prod.mk.injEq] at hperform
        obtain ⟨rfl, -⟩ := hperform
        exact .inl rfl
      · simp only [Option.some.injEq, Prod.mk.injEq] at hperform
        obtain ⟨rfl, -⟩ := hperform
        exact .inl rfl
      · cases hperform
  | save place now =>
      simp only [perform] at hperform
      split at hperform
      · rename_i publication shortSignature hrequest
        obtain ⟨⟨store, saved⟩, hstore, hpair⟩ := Option.map_eq_some_iff.1 hperform
        simp only [Prod.mk.injEq] at hpair
        obtain ⟨rfl, rfl⟩ := hpair
        refine .inr ⟨_, saved, ?_, hstore⟩
        cases publication with
        | record input =>
            rw [saves, hrequest] at hsaves
            cases hsaves
        | upload uploadId recordHash => trivial
      · cases hperform
  | other action =>
      simp only [perform] at hperform
      split at hperform
      · cases hperform
      rename_i haction
      obtain ⟨⟨store, answered⟩, hstore, hpair⟩ := Option.map_eq_some_iff.1 hperform
      simp only [Prod.mk.injEq] at hpair
      obtain ⟨rfl, rfl⟩ := hpair
      refine .inr ⟨action, answered, ?_, hstore⟩
      cases action with
      | saveRecord input now => exact absurd rfl haction
      | resume => exact Option.map_eq_none_iff.1 hsaves
      | _ => trivial

/-- What holds after a run in which no record is saved. -/
theorem quiet_run (h : Sound P api) (horder : InOrder initialLength api)
    (quiet : Run (step P clock options initialLength)
      (fun api call => api.saves call = none) api next) :
    (Sound P next ∧ InOrder initialLength next) ∧ RecordStore.SameRecords api.store next.store ∧
      ∀ task ∈ next.store.chunked.awaiting,
        task ∈ api.store.chunked.awaiting ∨ next.store.UpToDate task := by
  induction quiet with
  | refl => exact ⟨⟨h, horder⟩, .refl _, fun task htask => .inl htask⟩
  | step _ hsaves htaken ih =>
      obtain ⟨⟨hsound, hbefore⟩, hsame, htasks⟩ := ih
      obtain ⟨⟨reached, answer⟩, hperform, rfl⟩ := Option.map_eq_some_iff.1 htaken
      have htimely := timely_of_saves hsaves
      refine ⟨⟨(perform_spec hsound htimely hperform).1,
        hbefore.perform hsound htimely hperform⟩, ?_⟩
      rcases perform_quiet hsaves hperform with hstore | ⟨action, result, hquiet, hstore⟩
      · rw [hstore]
        exact ⟨hsame, htasks⟩
      · refine ⟨hsame.trans (RecordStore.perform_sameRecords hsound.store hquiet hstore), ?_⟩
        intro task htask
        rcases RecordStore.perform_upToDate hsound.store hquiet hstore htask with
          ⟨hold, hkept⟩ | hnew
        · exact (htasks task hold).imp_right hkept
        · exact .inr hnew

/-- A request whose candidate is still free. -/
theorem Sound.timely_save (h : Sound P api) (horder : InOrder initialLength api) {place : Nat}
    {publication : Publication} {shortSignature : JsString}
    (hrequest : api.requests[place]? = some ⟨publication, .chosen shortSignature⟩)
    (hfree : api.store.candidateFree publication.recordHash shortSignature = true)
    (now : JsString) : api.timely (.save place now) = true := by
  have hproper := h.chosen _ (List.mem_of_getElem? hrequest) _ rfl
  cases publication with
  | upload uploadId recordHash => simp only [timely, hrequest]
  | record input =>
      simp only [timely, hrequest]
      cases hinline : api.store.byHash.get? input.record.manifest.recordHash with
      | some record =>
          have hpublished : api.store.Published record := .inl ⟨_, hinline⟩
          have hhash := (h.store.byHash _ _ hinline).1
          obtain ⟨rest, hposted⟩ := horder.posted _ record hinline
          obtain ⟨rest', hchosen⟩ := horder.chosen _ (List.mem_of_getElem? hrequest) _ rfl
          have hown : api.store.candidateFree input.record.manifest.recordHash
              record.shortSignature = true :=
            (RecordStore.candidateFree_eq_true h.store h.identified
              (h.identified.proper record hpublished).1).2
              ⟨(h.identified.proper record hpublished).2, fun other hother hsame => by
                rw [h.identified.eq_of_shortSignature h.store hother hpublished hsame, hhash]⟩
          exact decide_eq_true_iff.2 (hposted.head_eq hchosen hown hfree)
      | none =>
          cases hchunked : api.store.chunked.findCompleted input.record.manifest.recordHash with
          | some record => rfl
          | none =>
              have hnone : api.store.findByRecordHash input.record.manifest.recordHash = none := by
                rw [RecordStore.findByRecordHash, hinline, hchunked]
                rfl
              have hunused := (RecordStore.unused_of_free h.store h.identified hproper.1 hnone
                hfree).2
              rw [hunused]
              rfl

/-- A call that has found what there is, and whose candidate is still free. -/
theorem Sound.timely_resume (h : Sound P api) {task : Finalizing} {state : UploadState A}
    (hresuming : resuming api.store.chunked = some (task, state))
    (hfound : task.found = api.store.findByRecordHash state.manifest.recordHash)
    (hfree : api.store.candidateFree state.manifest.recordHash task.shortSignature = true) :
    api.timely (.other .resume) = true := by
  simp only [timely, hresuming]
  cases hexisting : task.found.or (api.store.chunked.findCompleted state.manifest.recordHash) with
  | some existing => rfl
  | none =>
      have hnone := (Option.or_eq_none_iff.1 hexisting).1
      rw [hfound] at hnone
      have hproper := (h.identified.tasks task (mem_of_resuming hresuming).1).1
      obtain ⟨hinline, hchunked⟩ :=
        RecordStore.unused_of_free h.store h.identified hproper.1 hnone hfree
      rw [hinline, hchunked, (Option.or_eq_none_iff.1 hnone).1]
      simp

/-- Since the earlier state, what is saved under a signature that was free then is timely: by a
request, or by a `finalize` that has begun to wait since. -/
structure TimelySince (api later : IngestApi A) : Prop where
  save : ∀ (place : Nat) (publication : Publication) (shortSignature now : JsString),
    later.requests[place]? = some ⟨publication, .chosen shortSignature⟩ →
      api.store.candidateFree publication.recordHash shortSignature = true →
        later.timely (.save place now) = true
  resume : ∀ (task : Finalizing) (state : UploadState A),
    resuming later.store.chunked = some (task, state) → task ∉ api.store.chunked.awaiting →
      api.store.candidateFree state.manifest.recordHash task.shortSignature = true →
        later.timely (.other .resume) = true

/-- A lookup and a save that no other save separates. -/
theorem timelySince_quiet (h : Sound P api) (horder : InOrder initialLength api)
    (quiet : Run (step P clock options initialLength)
      (fun api call => api.saves call = none) api next) : TimelySince api next := by
  obtain ⟨⟨hsound, hnext⟩, hsame, htasks⟩ := quiet_run h horder quiet
  constructor
  case save =>
    intro place publication shortSignature now hrequest hfree
    apply hsound.timely_save hnext hrequest
    rw [hsame.candidateFree]
    exact hfree
  case resume =>
    intro task state hresuming hnew hfree
    obtain ⟨hmem, hobject⟩ := mem_of_resuming hresuming
    have hfound := (htasks task hmem).resolve_left hnew
    apply hsound.timely_resume hresuming (hfound state hobject)
    rw [hsame.candidateFree]
    exact hfree

end IngestApi

end Pmbah.Store
