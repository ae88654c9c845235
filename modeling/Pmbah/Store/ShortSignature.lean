import Mathlib.Data.Nat.Digits.Defs
import Pmbah.Store.Finality

/-!
# Short signatures

A short signature is the beginning of a record's hash in base 58.  The candidates are
examined one after another, each when its lookup is answered.
-/

namespace Pmbah.Store

open Js Format Library

variable {A : Type}

def reservedRoutePrefixes : List JsString :=
  [js "api", js "docs", js "blog", js "write", js "assets", js "record-assets", js "images",
    js "health", js "ready", js "live"]

def base58Alphabet : JsString := js "123456789ABCDEFGHJKLMNPQRSTUVWXYZabcdefghijkmnopqrstuvwxyz"

/-- `alphabet[remainder]`. -/
def base58Digit (remainder : Nat) : UInt16 := base58Alphabet.getD remainder 49

def base58Encode (bytes : List UInt8) : JsString :=
  let value := bytes.foldl (fun value byte => value * 256 + byte.toNat) 0
  let output := List.replicate (bytes.takeWhile (· = 0)).length (base58Digit 0) ++
    ((Nat.digits 58 value).map base58Digit).reverse
  if output.isEmpty then [base58Digit 0] else output

def isReservedShortSignature (candidate : JsString) : Bool :=
  reservedRoutePrefixes.any fun reserved => reserved.isPrefixOf (toLowerCase candidate)

/-- The candidates for a record, in the order in which they are examined. -/
def signatureCandidates (initialLength : Nat) (recordHash : B3Hash) : List JsString :=
  let encoded := base58Encode recordHash.bytes
  [encoded, js "X" ++ encoded].flatMap fun source =>
    (List.range' initialLength (source.length + 1 - initialLength)).map source.take

/-- Written in the alphabet: a signature is never the text of a hash, which has a colon. -/
def InAlphabet (signature : JsString) : Prop := ∀ unit ∈ signature, unit ∈ base58Alphabet

theorem base58Digit_mem (remainder : Nat) : base58Digit remainder ∈ base58Alphabet := by
  rw [base58Digit, List.getD_eq_getElem?_getD]
  cases hget : base58Alphabet[remainder]? with
  | none => decide
  | some unit => exact List.mem_of_getElem? hget

theorem base58Encode_inAlphabet (bytes : List UInt8) : InAlphabet (base58Encode bytes) := by
  intro unit hmem
  simp only [base58Encode] at hmem
  split at hmem
  · rw [List.mem_singleton.1 hmem]
    exact base58Digit_mem 0
  · rcases List.mem_append.1 hmem with hzero | hdigit
    · rw [(List.mem_replicate.1 hzero).2]
      exact base58Digit_mem 0
    · obtain ⟨digit, -, rfl⟩ := List.mem_map.1 (List.mem_reverse.1 hdigit)
      exact base58Digit_mem digit

theorem candidate_inAlphabet {initialLength : Nat} {recordHash : B3Hash} {candidate : JsString}
    (h : candidate ∈ signatureCandidates initialLength recordHash) : InAlphabet candidate := by
  obtain ⟨source, hsource, hcandidate⟩ := List.mem_flatMap.1 h
  obtain ⟨length, -, rfl⟩ := List.mem_map.1 hcandidate
  intro unit hunit
  have hmem := List.mem_of_mem_take hunit
  have hencoded := base58Encode_inAlphabet recordHash.bytes
  rcases List.mem_cons.1 hsource with rfl | hsource
  · exact hencoded unit hmem
  · rw [List.mem_singleton.1 hsource] at hmem
    rcases List.mem_append.1 hmem with hmark | hmem
    · rw [List.mem_singleton.1 hmark]
      decide
    · exact hencoded unit hmem

theorem InAlphabet.ne_text {signature : JsString} (h : InAlphabet signature) (recordHash : B3Hash) :
    recordHash.text ≠ signature := by
  rintro rfl
  have hcolon : (58 : UInt16) ∈ recordHash.text :=
    List.mem_append_left _ (show (58 : UInt16) ∈ hashPrefix by decide)
  exact absurd (h 58 hcolon) (by decide)

/-! ## Lookups -/

/-- `findCompleted` of any id. -/
def ChunkedStore.findCompletedById (store : ChunkedStore A) (id : JsString) :
    Option StoredRecord :=
  ((store.completed.entries.find? (·.1.text = id)).map Prod.snd).or
    (store.completed.values.find? (·.shortSignature = id))

namespace RecordStore

def findByShortSignature (store : RecordStore A) (shortSignature : JsString) :
    Option StoredRecord :=
  match store.byShortSignature.get? shortSignature with
  | some recordHash => store.findByRecordHash recordHash
  | none => store.chunked.findCompletedById shortSignature

/-- `findByRecordHash` of a text that begins like one of a hash. -/
def findByHashText (store : RecordStore A) (id : JsString) : Option StoredRecord :=
  ((store.byHash.entries.find? (·.1.text = id)).map Prod.snd).or
    (store.chunked.findCompletedById id)

def findByShortSignatureOrHash (store : RecordStore A) (id : JsString) : Option StoredRecord :=
  if hashPrefix.isPrefixOf id then store.findByHashText id else store.findByShortSignature id

/-- A candidate that is examined is taken, or the next one is. -/
def candidateFree (store : RecordStore A) (recordHash : B3Hash) (candidate : JsString) : Bool :=
  !isReservedShortSignature candidate &&
    (store.findByShortSignature candidate).all fun existing =>
      existing.manifest.recordHash = recordHash

theorem findCompletedById_signature {store : ChunkedStore A} {signature : JsString}
    (h : InAlphabet signature) :
    store.findCompletedById signature =
      store.completed.values.find? (·.shortSignature = signature) := by
  have hnone : store.completed.entries.find? (·.1.text = signature) = none := by
    rw [List.find?_eq_none]
    intro entry _
    rw [decide_eq_true_iff]
    exact h.ne_text entry.1
  rw [ChunkedStore.findCompletedById, hnone]
  rfl

end RecordStore

end Pmbah.Store
