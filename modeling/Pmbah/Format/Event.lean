import Pmbah.Format.Canonical

/-!
# Valid events

`validateEvent` accepts exactly the objects that carry the seven fields of a
valid event and nothing else, and the canonical text of such an object is that
of the event it carries.
-/

namespace Pmbah.Format

open Js Library

/-- The object carries the fields of the event and no others. -/
structure ReadsAs (value : Json) (event : BufferMutation) : Prop where
  isObject : value.isPlainObject = true
  known : ∀ key ∈ value.keys, key ∈ eventKeys
  seq : value.field (js "seq") = some (Json.ofNat event.seq)
  t : value.field (js "t") = some (Json.ofNat event.t)
  op : value.field (js "op") = some (.str event.op.text)
  pos : value.field (js "pos") = some (natOrNull event.pos)
  delLen : value.field (js "del_len") = some (natOrNull event.delLen)
  insLen : value.field (js "ins_len") = some (natOrNull event.insLen)
  source : value.field (js "source") = some (.str event.source.text)

theorem readsAs_toJson (event : BufferMutation) : ReadsAs event.toJson event where
  isObject := rfl
  known := by
    intro key hkey
    simpa only [BufferMutation.toJson, Json.keys, List.map_cons, List.map_nil, eventKeys]
      using hkey
  seq := rfl
  t := rfl
  op := rfl
  pos := rfl
  delLen := rfl
  insLen := rfl
  source := rfl

/-! ## Fields -/

@[simp] theorem number?_ofNat (n : Nat) :
    Json.number? (some (Json.ofNat n)) = some (.ofNat n) := rfl

theorem ofNat_inj {m n : Nat} : JsNumber.ofNat m = JsNumber.ofNat n ↔ m = n := by
  constructor
  · intro h
    exact Int.ofNat_inj.mp (JsNumber.ofInt_injective h)
  · rintro rfl
    rfl

theorem eq_ofNat_of_toInt? {value : Option Json} {z : Int} (hz : 0 ≤ z)
    (h : (Json.number? value).bind JsNumber.toInt? = some z) :
    value = some (Json.ofNat z.toNat) := by
  match value with
  | some (.num x) =>
      have hx : x = .ofInt z := JsNumber.eq_ofInt_of_toInt? h
      rw [hx, Json.ofNat, JsNumber.ofNat, Int.toNat_of_nonneg hz]
  | none | some .null | some (.bool _) | some (.str _) | some (.arr _) | some (.obj _) =>
      simp [Json.number?] at h

theorem isBoundedNonNegativeInteger_iff {value : Option Json} :
    isBoundedNonNegativeInteger value = true ↔
      ∃ n ≤ maxIntegerFieldValue, value = some (Json.ofNat n) := by
  constructor
  · intro h
    unfold isBoundedNonNegativeInteger at h
    split at h
    · rename_i z hz
      simp only [Bool.and_eq_true, decide_eq_true_eq] at h
      exact ⟨z.toNat, by omega, eq_ofNat_of_toInt? h.1 hz⟩
    · simp at h
  · rintro ⟨n, hn, rfl⟩
    simp [isBoundedNonNegativeInteger]
    omega

theorem isSafeElapsed_iff {value : Option Json} :
    isSafeElapsed value = true ↔ ∃ n ≤ maxTimeFieldValue, value = some (Json.ofNat n) := by
  constructor
  · intro h
    unfold isSafeElapsed at h
    split at h
    · rename_i z hz
      simp only [Bool.and_eq_true, decide_eq_true_eq] at h
      exact ⟨z.toNat, by omega, eq_ofNat_of_toInt? h.1 hz⟩
    · simp at h
  · rintro ⟨n, hn, rfl⟩
    simp [isSafeElapsed]
    omega

theorem isNullable_iff {value : Option Json} :
    (isNull value || isBoundedNonNegativeInteger value) = true ↔
      ∃ size : Option Nat, (∀ n ∈ size, n ≤ maxIntegerFieldValue) ∧
        value = some (natOrNull size) := by
  rw [Bool.or_eq_true, isBoundedNonNegativeInteger_iff]
  constructor
  · rintro (hnull | ⟨n, hn, rfl⟩)
    · match value with
      | some .null => exact ⟨none, by simp, rfl⟩
      | none | some (.bool _) | some (.num _) | some (.str _) | some (.arr _)
      | some (.obj _) => simp [isNull] at hnull
    · exact ⟨some n, by simpa using hn, rfl⟩
  · rintro ⟨size, hsize, rfl⟩
    cases size with
    | none => exact Or.inl rfl
    | some n => exact Or.inr ⟨n, hsize n rfl, rfl⟩

theorem text?_any_isSome {α : Type} {read : JsString → Option α} {value : Option Json} :
    ((Json.text? value).any fun text => (read text).isSome) = true ↔
      ∃ text member, value = some (.str text) ∧ read text = some member := by
  match value with
  | some (.str text) => simp [Json.text?, Option.isSome_iff_exists]
  | none | some .null | some (.bool _) | some (.num _) | some (.arr _) | some (.obj _) =>
      simp [Json.text?]

theorem validateSizes_eq_nil {op : Operation} {delLen insLen : Option Nat} :
    validateSizes (some (.str op.text)) (some (natOrNull delLen)) (some (natOrNull insLen)) = []
      ↔ sizesAgree op delLen insLen := by
  have notZero : ∀ size, numberNotZero (some (natOrNull size)) = false ↔ ∀ n ∈ size, n = 0 := by
    intro size
    cases size with
    | none => simp [numberNotZero, natOrNull, Json.number?]
    | some n =>
        have hzero : JsNumber.ofInt 0 = JsNumber.ofNat 0 := rfl
        simp [numberNotZero, natOrNull, hzero, ofNat_inj]
  have notPositive :
      ∀ size, numberNotPositive (some (natOrNull size)) = false ↔ ∀ n ∈ size, 0 < n := by
    intro size
    cases size with
    | none => simp [numberNotPositive, natOrNull, Json.number?]
    | some n => simp [numberNotPositive, natOrNull, JsNumber.ofNat]
  have named : ∀ name : Operation,
      (Json.text? (some (.str op.text)) == some name.text) = decide (op = name) := by
    intro name
    cases op <;> cases name <;> decide
  simp only [validateSizes, named, List.append_eq_nil_iff, require_eq_nil]
  cases op <;> simp [sizesAgree, notZero, notPositive]

/-! ## Acceptance -/

theorem validateSeq_eq_nil {P : Platform} {seq : Option Json} {expectedSeq : Option Nat} :
    validateSeq P seq expectedSeq = .ok [] ↔
      ∀ n ∈ expectedSeq, Json.number? seq = some (.ofNat n) := by
  cases expectedSeq with
  | none => simp [validateSeq]
  | some n =>
      simp only [validateSeq, Option.mem_some_iff, forall_eq']
      split
      · simp_all
      · cases P.toText seq <;> simp_all [Except.map]

/-- An event is accepted exactly when it carries a valid event at its place. -/
theorem validateEvent_eq_nil {P : Platform} {value : Json} {expectedSeq : Option Nat} :
    validateEvent P value expectedSeq = .ok [] ↔
      ∃ event : BufferMutation, event.Valid ∧ ReadsAs value event ∧
        ∀ n ∈ expectedSeq, event.seq = n := by
  have filter_nil : (value.keys.filter fun key => !eventKeys.contains key) = [] ↔
      ∀ key ∈ value.keys, key ∈ eventKeys := by
    simp [List.filter_eq_nil_iff]
  constructor
  · intro h
    unfold validateEvent at h
    split at h
    · simp at h
    · rename_i hobject
      cases hseqErrors : validateSeq P (value.field (js "seq")) expectedSeq with
      | error thrown => simp [hseqErrors, Except.map] at h
      | ok seqErrors =>
          simp only [hseqErrors, Except.map, Except.ok.injEq, List.append_eq_nil_iff,
            List.map_eq_nil_iff, filter_nil, validateNonNegativeInteger,
            validateElapsedMilliseconds, validateNullableNonNegativeInteger,
            require_eq_nil, isBoundedNonNegativeInteger_iff, isSafeElapsed_iff,
            isNullable_iff, text?_any_isSome] at h
          obtain ⟨⟨⟨⟨⟨⟨⟨⟨⟨hknown, ⟨seq, hseq, eseq⟩⟩, ⟨t, ht, et⟩⟩, ⟨pos, hpos, epos⟩⟩,
            ⟨del, hdel, edel⟩⟩, ⟨ins, hins, eins⟩⟩, hnil⟩, ⟨opText, op, eop, hop⟩⟩,
            ⟨sourceText, source, esource, hsource⟩⟩, hsizes⟩ := h
          have hopText : op.text = opText := ofText?_eq_some hop
          have hsourceText : source.text = sourceText := ofText?_eq_some hsource
          subst hnil hopText hsourceText
          rw [eop, edel, eins, validateSizes_eq_nil] at hsizes
          rw [validateSeq_eq_nil, eseq] at hseqErrors
          refine ⟨⟨seq, t, op, pos, del, ins, source⟩,
            ⟨hseq, ht, hpos, hdel, hins, hsizes⟩,
            ⟨by simpa using hobject, hknown, eseq, et, eop, epos, edel, eins, esource⟩, ?_⟩
          intro n hn
          have := hseqErrors n hn
          simpa [ofNat_inj] using this
  · rintro ⟨event, hvalid, hreads, hexpected⟩
    have hseqErrors : validateSeq P (value.field (js "seq")) expectedSeq = .ok [] := by
      rw [validateSeq_eq_nil, hreads.seq]
      intro n hn
      simpa [ofNat_inj] using hexpected n hn
    unfold validateEvent
    rw [if_neg (by simp [hreads.isObject]), hseqErrors]
    simp only [Except.map, Except.ok.injEq, List.append_eq_nil_iff, List.map_eq_nil_iff,
      filter_nil, validateNonNegativeInteger, validateElapsedMilliseconds,
      validateNullableNonNegativeInteger, require_eq_nil, isBoundedNonNegativeInteger_iff,
      isSafeElapsed_iff, isNullable_iff, text?_any_isSome]
    refine ⟨⟨⟨⟨⟨⟨⟨⟨⟨hreads.known, ⟨_, hvalid.seq_le, hreads.seq⟩⟩,
      ⟨_, hvalid.t_le, hreads.t⟩⟩, ⟨_, hvalid.pos_le, hreads.pos⟩⟩,
      ⟨_, hvalid.delLen_le, hreads.delLen⟩⟩, ⟨_, hvalid.insLen_le, hreads.insLen⟩⟩, trivial⟩,
      ⟨_, _, hreads.op, Operation.ofText?_text _⟩⟩,
      ⟨_, _, hreads.source, Source.ofText?_text _⟩⟩, ?_⟩
    rw [hreads.op, hreads.delLen, hreads.insLen, validateSizes_eq_nil]
    exact hvalid.sizes

theorem readEvent_of_readsAs {value : Json} {event : BufferMutation}
    (h : ReadsAs value event) : readEvent value = event := by
  have nullable : ∀ size : Option Nat,
      ((Json.number? (some (natOrNull size))).bind JsNumber.toInt?).map Int.toNat = size := by
    intro size
    cases size <;> rfl
  cases event
  simp [readEvent, Json.natAt, Json.textAt, nullableNatAt, h.seq, h.t, h.op, h.pos,
    h.delLen, h.insLen, h.source, nullable, Json.text?]

/-- The events of a log that has been accepted, and the order they are in. -/
theorem assertValidEvent_ok {P : Platform} {value : Json} :
    assertValidEvent P value = .ok () ↔
      ∃ event : BufferMutation, event.Valid ∧ ReadsAs value event := by
  have hnone : validateEvent P value none = .ok [] ↔
      ∃ event : BufferMutation, event.Valid ∧ ReadsAs value event := by
    simp [validateEvent_eq_nil]
  rw [← hnone]
  unfold assertValidEvent
  cases validateEvent P value none <;> simp

/-! ## Canonical text -/

def nullableText : Option Nat → JsString
  | none => js "null"
  | some n => natText n

/-- The canonical JSON of an event. -/
def eventText (event : BufferMutation) : JsString :=
  js "\x7b\"del_len\":" ++ (nullableText event.delLen ++
    (js ",\"ins_len\":" ++ (nullableText event.insLen ++
      (js ",\"op\":\"" ++ (event.op.text ++
        (js "\",\"pos\":" ++ (nullableText event.pos ++
          (js ",\"seq\":" ++ (natText event.seq ++
            (js ",\"source\":\"" ++ (event.source.text ++
              (js "\",\"t\":" ++ (natText event.t ++ js "\x7d")))))))))))))

theorem canonicalizeJson_ofNat (P : Platform) {n : Nat} (h : n ≤ maxSafeInteger) :
    canonicalizeJson P (Json.ofNat n) = .ok (natText n) := by
  have hnum : canonicalizeJson P (Json.ofNat n) = .ok (P.numberToString (.ofNat n)) := by
    rw [Json.ofNat, canonicalizeJson]
    rfl
  rw [hnum, Platform.numberToString, JsNumber.toInt?_ofNat]
  simp only [Int.natAbs_natCast, if_pos h]
  rw [if_neg (by omega)]

theorem canonicalizeJson_natOrNull (P : Platform) {size : Option Nat}
    (h : ∀ n ∈ size, n ≤ maxIntegerFieldValue) :
    canonicalizeJson P (natOrNull size) = .ok (nullableText size) := by
  cases size with
  | none => simp [natOrNull, nullableText, canonicalizeJson]
  | some n =>
      have hn : n ≤ maxIntegerFieldValue := h n rfl
      exact canonicalizeJson_ofNat P (Nat.le_trans hn (by decide))

theorem stringify_operation (op : Operation) :
    stringifyString op.text = js "\"" ++ op.text ++ js "\"" := by
  cases op <;> decide

theorem stringify_source (source : Source) :
    stringifyString source.text = js "\"" ++ source.text ++ js "\"" := by
  cases source <;> decide

/-- The keys of an event are written in this order. -/
theorem canonicalizeJson_event (P : Platform) (seq t op pos del ins source : Json)
    {seqText tText opText posText delText insText sourceText : JsString}
    (hseq : canonicalizeJson P seq = .ok seqText) (ht : canonicalizeJson P t = .ok tText)
    (hop : canonicalizeJson P op = .ok opText) (hpos : canonicalizeJson P pos = .ok posText)
    (hdel : canonicalizeJson P del = .ok delText)
    (hins : canonicalizeJson P ins = .ok insText)
    (hsource : canonicalizeJson P source = .ok sourceText) :
    canonicalizeJson P (.ofFields [(js "seq", some seq), (js "t", some t), (js "op", some op),
        (js "pos", some pos), (js "del_len", some del), (js "ins_len", some ins),
        (js "source", some source)]) =
      .ok (js "\x7b\"del_len\":" ++ (delText ++ (js ",\"ins_len\":" ++ (insText ++
        (js ",\"op\":" ++ (opText ++ (js ",\"pos\":" ++ (posText ++ (js ",\"seq\":" ++
          (seqText ++ (js ",\"source\":" ++ (sourceText ++ (js ",\"t\":" ++ (tText ++
            js "\x7d")))))))))))))) := by
  have hsorted : List.insertionSort keyLe
      [(js "seq", canonicalizeJson P seq), (js "t", canonicalizeJson P t),
        (js "op", canonicalizeJson P op), (js "pos", canonicalizeJson P pos),
        (js "del_len", canonicalizeJson P del), (js "ins_len", canonicalizeJson P ins),
        (js "source", canonicalizeJson P source)] =
      [(js "del_len", canonicalizeJson P del), (js "ins_len", canonicalizeJson P ins),
        (js "op", canonicalizeJson P op), (js "pos", canonicalizeJson P pos),
        (js "seq", canonicalizeJson P seq), (js "source", canonicalizeJson P source),
        (js "t", canonicalizeJson P t)] := by rfl
  have hkeys : stringifyString (js "del_len") = js "\"del_len\"" ∧
      stringifyString (js "ins_len") = js "\"ins_len\"" ∧
      stringifyString (js "op") = js "\"op\"" ∧ stringifyString (js "pos") = js "\"pos\"" ∧
      stringifyString (js "seq") = js "\"seq\"" ∧
      stringifyString (js "source") = js "\"source\"" ∧
      stringifyString (js "t") = js "\"t\"" := by decide
  obtain ⟨kdel, kins, kop, kpos, kseq, ksource, kt⟩ := hkeys
  simp only [Json.ofFields, List.filterMap_cons, List.filterMap_nil, Option.map_some,
    canonicalizeJson, canonicalizeFields]
  rw [hsorted, hseq, ht, hop, hpos, hdel, hins, hsource]
  simp only [writeFields, Except.map, kdel, kins, kop, kpos, kseq, ksource, kt, joinWith]
  simp only [List.append_assoc]
  rfl

theorem canonicalizeEvent_eq (P : Platform) {value : Json} {event : BufferMutation}
    (hvalid : event.Valid) (hreads : ReadsAs value event) :
    canonicalizeEvent P value = .ok (eventText event) := by
  have hassert : assertValidEvent P value = .ok () :=
    assertValidEvent_ok.2 ⟨event, hvalid, hreads⟩
  have hseq : event.seq ≤ maxSafeInteger := Nat.le_trans hvalid.seq_le (by decide)
  have ht : event.t ≤ maxSafeInteger := hvalid.t_le
  rw [canonicalizeEvent, hassert, hreads.seq, hreads.t, hreads.op, hreads.pos, hreads.delLen,
    hreads.insLen, hreads.source]
  simp only
  rw [canonicalizeJson_event P _ _ _ _ _ _ _
    (canonicalizeJson_ofNat P hseq) (canonicalizeJson_ofNat P ht)
    (by rw [canonicalizeJson, stringify_operation])
    (canonicalizeJson_natOrNull P hvalid.pos_le)
    (canonicalizeJson_natOrNull P hvalid.delLen_le)
    (canonicalizeJson_natOrNull P hvalid.insLen_le)
    (by rw [canonicalizeJson, stringify_source])]
  rw [eventText]
  simp only [List.append_assoc]
  rfl

/-! ## The canonical text determines the event -/

/-- A comma, a quotation mark or a closing brace. -/
def endsField (unit : UInt16) : Prop := unit = 44 ∨ unit = 34 ∨ unit = 125

instance (unit : UInt16) : Decidable (endsField unit) := by
  unfold endsField
  infer_instance

theorem not_endsField_of_digit {unit : UInt16} (h : isDigitUnit unit) : ¬ endsField unit := by
  rintro (rfl | rfl | rfl) <;> exact absurd h (by decide)

theorem not_endsField_of_all {text : JsString}
    (h : text.all (fun unit => !decide (endsField unit)) = true) :
    ∀ unit ∈ text, ¬ endsField unit := by
  simpa using h

theorem natText_prefixCode : PrefixCode endsField natText :=
  .of_words natText_injective fun _ _ hunit =>
    not_endsField_of_digit (isDigitUnit_of_mem_natText hunit)

theorem nullableText_injective : Function.Injective nullableText := by
  intro a b h
  have null_ne : ∀ n, js "null" ≠ natText n := by
    intro n hn
    have hmem : (110 : UInt16) ∈ natText n := by rw [← hn]; decide
    exact absurd (isDigitUnit_of_mem_natText hmem) (by decide)
  cases a with
  | none =>
      cases b with
      | none => rfl
      | some n => exact absurd h (null_ne n)
  | some m =>
      cases b with
      | none => exact absurd h.symm (null_ne m)
      | some n => rw [natText_injective h]

theorem nullableText_prefixCode : PrefixCode endsField nullableText := by
  refine .of_words nullableText_injective fun size => ?_
  cases size with
  | none => exact not_endsField_of_all (by decide)
  | some n => exact fun unit hunit => not_endsField_of_digit (isDigitUnit_of_mem_natText hunit)

theorem operation_prefixCode : PrefixCode endsField Operation.text := by
  refine .of_words ?_ ?_
  · intro a b h
    have := congrArg Operation.ofText? h
    simpa using this
  · intro op
    apply not_endsField_of_all
    cases op <;> decide

theorem source_prefixCode : PrefixCode endsField Source.text := by
  refine .of_words ?_ ?_
  · intro a b h
    have := congrArg Source.ofText? h
    simpa using this
  · intro source
    apply not_endsField_of_all
    cases source <;> decide

/-- A fixed key that a value before it cannot run into. -/
def opensWithStop (key : JsString) : Bool := key.head?.any fun unit => decide (endsField unit)

theorem stopsWith_of_opens {key : JsString} (hkey : opensWithStop key = true)
    (text : JsString) : StopsWith endsField (key ++ text) := by
  cases key with
  | nil => simp [opensWithStop] at hkey
  | cons unit rest => exact stopsWith_cons (by simpa [opensWithStop] using hkey)

/-- Reads one part off two equal texts that go on with a fixed key. -/
theorem cancel_part {α : Type} {enc : α → JsString} (henc : PrefixCode endsField enc)
    {a b : α} {key s t : JsString} (hkey : opensWithStop key = true)
    (h : enc a ++ (key ++ s) = enc b ++ (key ++ t)) : a = b ∧ s = t := by
  obtain ⟨hab, hrest⟩ :=
    henc a b _ _ (stopsWith_of_opens hkey s) (stopsWith_of_opens hkey t) h
  exact ⟨hab, List.append_cancel_left hrest⟩

theorem eventText_injective : Function.Injective eventText := by
  intro a b h
  have h := List.append_cancel_left h
  obtain ⟨hdel, h⟩ := cancel_part nullableText_prefixCode (by decide) h
  obtain ⟨hins, h⟩ := cancel_part nullableText_prefixCode (by decide) h
  obtain ⟨hop, h⟩ := cancel_part operation_prefixCode (by decide) h
  obtain ⟨hpos, h⟩ := cancel_part nullableText_prefixCode (by decide) h
  obtain ⟨hseq, h⟩ := cancel_part natText_prefixCode (by decide) h
  obtain ⟨hsource, h⟩ := cancel_part source_prefixCode (by decide) h
  have hbrace : StopsWith endsField (js "\x7d") := stopsWith_cons (by decide)
  obtain ⟨ht, -⟩ := natText_prefixCode _ _ _ _ hbrace hbrace h
  cases a
  cases b
  simp_all

theorem nullableText_ascii (size : Option Nat) : Ascii (nullableText size) := by
  cases size with
  | none => decide
  | some n => exact natText_ascii n

theorem eventText_ascii (event : BufferMutation) : Ascii (eventText event) := by
  have hop : Ascii event.op.text := by cases event.op <;> decide
  have hsource : Ascii event.source.text := by cases event.source <;> decide
  simp only [eventText, ascii_append]
  refine ⟨by decide, nullableText_ascii _, by decide, nullableText_ascii _, by decide, hop,
    by decide, nullableText_ascii _, by decide, natText_ascii _, by decide, hsource,
    by decide, natText_ascii _, by decide⟩

end Pmbah.Format
