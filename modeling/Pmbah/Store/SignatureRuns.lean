import Pmbah.Store.UndisturbedRequests

/-!
# Runs of the API

As long as every save is timely, short signatures identify the records of a store,
whatever the requests and their order.
-/

namespace Pmbah.Store

open Js Format Library

variable {A : Type}

namespace IngestApi

variable {P : Platform} {clock : Clock} {options : ChunkedOptions A} {initialLength : Nat}
variable {api : IngestApi A}

theorem Sound.identifies (h : Sound P api) :
    Identifies P clock options initialLength (fun api call => api.timely call = true) api where
  distinct := fun _ _ hrecord hother hsame =>
    h.identified.eq_of_shortSignature h.store hrecord hother hsame
  unreserved := fun record hrecord => (h.identified.proper record hrecord).2
  found := by
    intro record hrecord
    rw [RecordStore.findByShortSignatureOrHash_eq (h.identified.proper record hrecord).1]
    exact h.identified.findByShortSignature h.store hrecord
  republished := fun _ _ _ record htimely hrecord hsaves hperform =>
    (perform_spec h htimely hperform).2 record hrecord hsaves

/-- Whatever the requests and their order, as long as every save is timely; and what is saved
under a signature that was free is timely when nothing has been saved since. -/
theorem identifies_run (run : Run (step P clock options initialLength)
    (fun api call => api.timely call = true) .empty api) :
    Identifies P clock options initialLength (fun api call => api.timely call = true) api ∧
      ∀ later, Run (step P clock options initialLength) (fun api call => api.saves call = none)
        api later → TimelySince api later := by
  obtain ⟨hsound, horder⟩ := inOrder_run run
  exact ⟨hsound.identifies, fun later quiet => timelySince_quiet hsound horder quiet⟩

/-! ## Two uploads -/

def uploadCalls (uploadId : JsString) (t : Nat) : List Call :=
  [.other (.begin uploadId (RecordStore.uploadManifest t) none none),
    .other (.append uploadId 0 [(RecordStore.uploadEvent t).toJson]), .finalize uploadId]

def firstUpload : JsString := js "00000000-0000-4000-8000-000000000001"

def secondUpload : JsString := js "00000000-0000-4000-8000-000000000002"

def thirdUpload : JsString := js "00000000-0000-4000-8000-000000000003"

/-- Both requests choose before either saves. -/
def racingCalls : List Call :=
  uploadCalls firstUpload 2 ++ uploadCalls secondUpload 6 ++
    [.examine 0, .examine 1, .save 0 (js "now"), .save 0 (js "now"), .other .resume,
      .other .resume]

/-- Each request saves before the next chooses.  The first record is published again, and so
is an upload of a third one that has no events yet. -/
def orderlyCalls : List Call :=
  uploadCalls firstUpload 2 ++ [.examine 0, .save 0 (js "now"), .other .resume] ++
    uploadCalls secondUpload 6 ++
    [.examine 0, .examine 0, .save 0 (js "now"), .other .resume, .finalize firstUpload,
      .examine 0, .save 0 (js "now"), .other .resume,
      .other (.begin thirdUpload (RecordStore.uploadManifest 7) none none),
      .finalize thirdUpload, .examine 0, .save 0 (js "now"), .other .resume]

def exampleStep : IngestApi Unit → Call → Option (IngestApi Unit) :=
  step Platform.standard RecordStore.exampleClock RecordStore.exampleOptions 1

/-- Two records are stored under the signature `B`. -/
theorem not_identifies_racing : ∃ api, Run exampleStep (fun _ _ => True) .empty api ∧
    ¬ Identifies Platform.standard RecordStore.exampleClock RecordStore.exampleOptions 1
      (fun _ _ => True) api := by
  have hrun : (runAll exampleStep (fun _ _ => True) .empty racingCalls).any (fun api =>
      (api.store.chunked.completed.get? (RecordStore.uploadHash 2)).any fun record =>
        (api.store.chunked.completed.get? (RecordStore.uploadHash 6)).any fun other =>
          decide (record.shortSignature = other.shortSignature) &&
            decide (record.manifest.recordHash ≠ other.manifest.recordHash)) = true := by
    decide +kernel
  obtain ⟨api, hlast, hrecords⟩ := (Option.any_eq_true _ _).1 hrun
  obtain ⟨record, hrecord, hother⟩ := (Option.any_eq_true _ _).1 hrecords
  obtain ⟨other, hother, hsame⟩ := (Option.any_eq_true _ _).1 hother
  rw [Bool.and_eq_true, decide_eq_true_iff, decide_eq_true_iff] at hsame
  refine ⟨api, Run.of_runAll hlast, fun hidentifies => hsame.2 ?_⟩
  rw [hidentifies.distinct record other (.inr ⟨_, hrecord⟩) (.inr ⟨_, hother⟩) hsame.1]

theorem identifies_orderly : ∃ api : IngestApi Unit,
    (∃ record other : StoredRecord, api.store.Published record ∧ api.store.Published other ∧
      record.manifest.recordHash ≠ other.manifest.recordHash) ∧
    Identifies Platform.standard RecordStore.exampleClock RecordStore.exampleOptions 1
      (fun api call => api.timely call = true) api ∧
    ∀ later, Run exampleStep (fun api call => api.saves call = none) api later →
      TimelySince api later := by
  have hrun : (runAll exampleStep (fun api call => api.timely call = true) .empty
      orderlyCalls).any (fun api =>
        (api.store.chunked.completed.get? (RecordStore.uploadHash 2)).any fun record =>
          (api.store.chunked.completed.get? (RecordStore.uploadHash 6)).any fun other =>
            decide (record.manifest.recordHash ≠ other.manifest.recordHash)) = true := by
    decide +kernel
  obtain ⟨api, hlast, hrecords⟩ := (Option.any_eq_true _ _).1 hrun
  obtain ⟨record, hrecord, hother⟩ := (Option.any_eq_true _ _).1 hrecords
  obtain ⟨other, hother, hne⟩ := (Option.any_eq_true _ _).1 hother
  rw [decide_eq_true_iff] at hne
  exact ⟨api, ⟨record, other, .inr ⟨_, hrecord⟩, .inr ⟨_, hother⟩, hne⟩,
    identifies_run (Run.of_runAll hlast)⟩

end IngestApi

end Pmbah.Store
