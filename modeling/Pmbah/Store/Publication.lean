import Pmbah.Store.ShortSignature

/-!
# Publishing under a short signature

`postRecord` and the API's `finalize` choose a signature, one lookup at a time, and save the
record in a later step, so requests can choose the same one.
-/

namespace Pmbah.Store

open Js Format Library

variable {A : Type}

/-- What a request is about to save; the signature of an input is not read. -/
inductive Publication where
  | record (input : SaveRecordInput)
  | upload (uploadId : JsString) (recordHash : B3Hash)

def Publication.recordHash : Publication → B3Hash
  | .record input => input.record.manifest.recordHash
  | .upload _ recordHash => recordHash

def Publication.action (publication : Publication) (shortSignature now : JsString) :
    RecordStore.Action :=
  match publication with
  | .record input => .saveRecord { input with shortSignature } now
  | .upload uploadId _ => .finalize uploadId shortSignature

inductive Phase where
  | choosing (candidates : List JsString)
  | chosen (shortSignature : JsString)

structure Request where
  publication : Publication
  phase : Phase

structure IngestApi (A : Type) where
  store : RecordStore A
  requests : List Request

/-- A step of a request, or another call to the store. -/
inductive Call where
  | postRecord (input : SaveRecordInput)
  | finalize (uploadId : JsString)
  | examine (place : Nat)
  | save (place : Nat) (now : JsString)
  | other (action : RecordStore.Action)

/-- The calls that are made with a signature. -/
def RecordStore.Action.takesSignature : RecordStore.Action → Bool
  | .saveRecord _ _ => true
  | .finalize _ _ => true
  | _ => false

namespace IngestApi

def empty : IngestApi A := { store := .empty, requests := [] }

section

variable (P : Platform) (clock : Clock) (options : ChunkedOptions A) (initialLength : Nat)

def opened (publication : Publication) : Request :=
  ⟨publication, .choosing (signatureCandidates initialLength publication.recordHash)⟩

/-- Every step and its answer, if it gives one; there is none when nothing is there to go on. -/
def perform (api : IngestApi A) :
    Call → Option (IngestApi A × Option (Except StoreError (RecordStore.Response A)))
  | .postRecord input =>
      some ({ api with requests := api.requests ++ [opened initialLength (.record input)] }, none)
  | .finalize uploadId =>
      match api.store.chunked.upload? uploadId with
      | none => some (api, some (.error (uploadError 404 (js "upload_not_found"))))
      | some (_, state) =>
          some ({ api with requests := api.requests ++
            [opened initialLength (.upload uploadId state.manifest.recordHash)] }, none)
  | .examine place =>
      match api.requests[place]? with
      | some ⟨publication, .choosing (candidate :: candidates)⟩ =>
          let phase :=
            if api.store.candidateFree publication.recordHash candidate then .chosen candidate
            else .choosing candidates
          some ({ api with requests := api.requests.set place ⟨publication, phase⟩ }, none)
      | some ⟨_, .choosing []⟩ =>
          some ({ api with requests := api.requests.eraseIdx place },
            some (.error (.thrown (.error (js "could not generate unique short signature")))))
      | _ => none
  | .save place now =>
      match api.requests[place]? with
      | some ⟨publication, .chosen shortSignature⟩ =>
          (api.store.perform P clock options (publication.action shortSignature now)).map
            fun (store, answer) =>
              ({ store, requests := api.requests.eraseIdx place }, some answer)
      | _ => none
  | .other action =>
      if action.takesSignature then none
      else (api.store.perform P clock options action).map fun (store, answer) =>
        ({ api with store }, some answer)

def step (api : IngestApi A) (call : Call) : Option (IngestApi A) :=
  (api.perform P clock options initialLength call).map Prod.fst

end

/-- A `finalize` that resumes, with the state that it holds. -/
def resuming (store : ChunkedStore A) : Option (Finalizing × UploadState A) :=
  store.awaiting.head?.bind fun task => store.objects[task.object]?.map fun state => (task, state)

/-- The hash of the record that a step saves. -/
def saves (api : IngestApi A) : Call → Option B3Hash
  | .save place _ =>
      match api.requests[place]? with
      | some ⟨.record input, .chosen _⟩ => some input.record.manifest.recordHash
      | _ => none
  | .other .resume => (resuming api.store.chunked).map fun entry => entry.2.manifest.recordHash
  | _ => none

/-- No other record has the signature. -/
def unused (records : List StoredRecord) (shortSignature : JsString) : Bool :=
  records.all fun record => decide (record.shortSignature ≠ shortSignature)

/-- What has changed since a signature was chosen, or since a lookup, does not matter: a
posted record that is stored has this signature, and one that is not finds it unused by the
chunked records; a record that a `finalize` publishes has not been posted since, and finds its
signature unused if the upload is complete. -/
def timely (api : IngestApi A) : Call → Bool
  | .save place _ =>
      match api.requests[place]? with
      | some ⟨.record input, .chosen shortSignature⟩ =>
          match api.store.byHash.get? input.record.manifest.recordHash with
          | some record => decide (record.shortSignature = shortSignature)
          | none =>
              (api.store.chunked.findCompleted input.record.manifest.recordHash).isSome ||
                unused api.store.chunked.completed.values shortSignature
      | _ => true
  | .other .resume =>
      match resuming api.store.chunked with
      | some (task, state) =>
          (task.found.or (api.store.chunked.findCompleted state.manifest.recordHash)).isSome ||
            (api.store.byHash.get? state.manifest.recordHash).isNone &&
              (state.nextSeq != state.manifest.eventCount ||
                unused api.store.byHash.values task.shortSignature &&
                  unused api.store.chunked.completed.values task.shortSignature)
      | none => true
  | _ => true

/-- The answer to saving a record that is stored. -/
def Existing (record : StoredRecord) : RecordStore.Response A → Prop
  | .saved result =>
      result.stored.shortSignature = record.shortSignature ∧ result.created = false
  | .finalized result =>
      result.recordHash = record.manifest.recordHash ∧
        result.shortSignature = record.shortSignature ∧ result.created = false
  | _ => False

/-- Short signatures identify records. -/
structure Identifies (P : Platform) (clock : Clock) (options : ChunkedOptions A)
    (initialLength : Nat) (allowed : IngestApi A → Call → Prop) (api : IngestApi A) : Prop where
  distinct : ∀ record other : StoredRecord, api.store.Published record →
    api.store.Published other → record.shortSignature = other.shortSignature → record = other
  unreserved : ∀ record : StoredRecord, api.store.Published record →
    isReservedShortSignature record.shortSignature = false
  found : ∀ record : StoredRecord, api.store.Published record →
    api.store.findByShortSignatureOrHash record.shortSignature = some record
  republished : ∀ (call : Call) (next : IngestApi A)
    (answer : Option (Except StoreError (RecordStore.Response A))) (record : StoredRecord),
    allowed api call → api.store.Published record →
      api.saves call = some record.manifest.recordHash →
        api.perform P clock options initialLength call = some (next, answer) →
          ∃ response, answer = some (.ok response) ∧ Existing record response

end IngestApi

end Pmbah.Store
