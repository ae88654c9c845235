import Mathlib.Data.List.Permutation
import Pmbah.Library.OrderedMap
import Pmbah.Format.Verify

/-!
# Text bindings and finalization seals

The values that a record hash covers beside its events, read off a valid
manifest, and the texts that are hashed for them.
-/

namespace Pmbah.Format

open Js Library

/-- A commitment to canonical text. -/
structure TextBinding where
  canonicalLength : Nat
  commitment : JsString
  deriving DecidableEq

structure TextBinding.Valid (binding : TextBinding) : Prop where
  length_pos : 0 < binding.canonicalLength
  length_le : binding.canonicalLength ≤ maxIntegerFieldValue
  commitment : isB3HashText binding.commitment = true

/-- The object carries the binding and nothing else. -/
structure BindingReads (value : Json) (binding : TextBinding) : Prop where
  isObject : value.isPlainObject = true
  known : ∀ key ∈ value.keys, key ∈ bindingKeys
  scheme : value.field (js "scheme") = some (.str textBindingScheme)
  canonicalLength : value.field (js "canonical_length") = some (Json.ofNat binding.canonicalLength)
  commitment : value.field (js "commitment") = some (.str binding.commitment)

/-- The binding in an object that has been validated. -/
def readTextBinding (value : Json) : TextBinding where
  canonicalLength := value.natAt (js "canonical_length")
  commitment := value.textAt (js "commitment")

theorem readTextBinding_of_reads {value : Json} {binding : TextBinding}
    (h : BindingReads value binding) : readTextBinding value = binding := by
  cases binding
  simp [readTextBinding, Json.natAt, Json.textAt, h.canonicalLength, h.commitment, Json.text?]

theorem isB3Hash_iff {value : Option Json} :
    isB3Hash value = true ↔ ∃ text, value = some (.str text) ∧ isB3HashText text = true :=
  text?_any

theorem validateTextBinding_eq_nil {value : Json} :
    validateTextBinding value = [] ↔
      ∃ binding : TextBinding, binding.Valid ∧ BindingReads value binding := by
  have filter_nil : (value.keys.filter fun key => !bindingKeys.contains key) = [] ↔
      ∀ key ∈ value.keys, key ∈ bindingKeys := by
    simp [List.filter_eq_nil_iff]
  have scheme_iff : (Json.text? (value.field (js "scheme")) == some textBindingScheme) = true ↔
      value.field (js "scheme") = some (.str textBindingScheme) := by
    match value.field (js "scheme") with
    | some (.str text) => simp [Json.text?]
    | none | some .null | some (.bool _) | some (.num _) | some (.arr _) | some (.obj _) =>
        simp [Json.text?]
  have hzero : JsNumber.ofInt 0 = JsNumber.ofNat 0 := rfl
  unfold validateTextBinding
  split
  · rename_i hobject
    simp only [List.cons_ne_nil, false_iff, not_exists, not_and]
    intro binding _ hreads
    simp [hreads.isObject] at hobject
  · rename_i hobject
    simp only [List.append_eq_nil_iff, List.map_eq_nil_iff, filter_nil, require_eq_nil,
      scheme_iff, validateNonNegativeInteger, isBoundedNonNegativeInteger_iff, isB3Hash_iff]
    constructor
    · rintro ⟨⟨⟨⟨hknown, hscheme⟩, ⟨n, hn, hlength⟩⟩, hpos⟩, ⟨text, htext, hb3⟩⟩
      refine ⟨⟨n, text⟩, ⟨?_, hn, hb3⟩,
        ⟨by simpa using hobject, hknown, hscheme, hlength, htext⟩⟩
      have hne : JsNumber.ofNat n ≠ JsNumber.ofNat 0 := by
        simpa [hlength, hzero] using hpos
      exact Nat.pos_of_ne_zero fun hnil => hne (congrArg JsNumber.ofNat hnil)
    · rintro ⟨binding, hvalid, hreads⟩
      refine ⟨⟨⟨⟨hreads.known, hreads.scheme⟩, ⟨_, hvalid.length_le, hreads.canonicalLength⟩⟩,
        ?_⟩, ⟨_, hreads.commitment, hvalid.commitment⟩⟩
      have hne : JsNumber.ofNat binding.canonicalLength ≠ JsNumber.ofNat 0 := by
        rw [ne_eq, ofNat_inj]
        exact hvalid.length_pos.ne'
      simpa [hreads.canonicalLength, hzero] using hne

/-! ## Plain strings -/

/-- A printable ASCII unit that a JSON string shows as itself. -/
def isPlainUnit (unit : UInt16) : Bool :=
  0x20 ≤ unit.toNat && unit.toNat < 0x7F && unit != 34 && unit != 92

theorem quoteBody_of_plain {text : JsString} (h : ∀ unit ∈ text, isPlainUnit unit = true) :
    quoteBody text = text := by
  have quoteUnit_plain : ∀ unit, isPlainUnit unit = true →
      isSurrogate unit = false ∧ isHighSurrogate unit = false ∧ quoteUnit unit = [unit] := by
    intro unit hunit
    simp only [isPlainUnit, Bool.and_eq_true, decide_eq_true_eq, bne_iff_ne] at hunit
    obtain ⟨⟨⟨hlow, hhigh⟩, hquote⟩, hslash⟩ := hunit
    have hne : ∀ n : UInt16, n.toNat < 0x20 → unit ≠ n := by
      rintro n hn rfl
      omega
    refine ⟨?_, ?_, ?_⟩
    · simp [isSurrogate, isHighSurrogate, isLowSurrogate]
      omega
    · simp [isHighSurrogate]
      omega
    · simp only [quoteUnit, if_neg hquote, if_neg hslash, if_neg (hne 8 (by decide)),
        if_neg (hne 12 (by decide)), if_neg (hne 10 (by decide)), if_neg (hne 13 (by decide)),
        if_neg (hne 9 (by decide))]
      rw [if_neg (by omega)]
  induction text using quoteBody.induct with
  | case1 => rfl
  | case2 unit hsurrogate =>
      obtain ⟨hplain, -, -⟩ := quoteUnit_plain unit (h unit (by simp))
      rw [hsurrogate] at hplain
      cases hplain
  | case3 unit _ =>
      obtain ⟨hplain, -, hquote⟩ := quoteUnit_plain unit (h unit (by simp))
      rw [quoteBody, hplain, hquote]
      rfl
  | case4 unit next rest hpair _ =>
      obtain ⟨-, hhigh, -⟩ := quoteUnit_plain unit (h unit (by simp))
      rw [hpair.1] at hhigh
      cases hhigh
  | case5 unit next rest _ hsurrogate _ =>
      obtain ⟨hplain, -, -⟩ := quoteUnit_plain unit (h unit (by simp))
      rw [hsurrogate] at hplain
      cases hplain
  | case6 unit next rest hpair hsurrogate ih =>
      obtain ⟨-, -, hquote⟩ := quoteUnit_plain unit (h unit (by simp))
      rw [quoteBody, if_neg hpair, if_neg hsurrogate, hquote,
        ih fun u hu => h u (List.mem_cons_of_mem unit hu)]
      rfl

theorem isPlainUnit_of_hex {unit : UInt16} (h : isHexUnit unit = true) :
    isPlainUnit unit = true := by
  simp only [isHexUnit, Bool.or_eq_true, Bool.and_eq_true, decide_eq_true_eq] at h
  simp only [isPlainUnit, Bool.and_eq_true, decide_eq_true_eq, bne_iff_ne]
  refine ⟨⟨by omega, ?_⟩, ?_⟩
  · rintro rfl
    simp at h
  · rintro rfl
    simp at h

theorem isPlainUnit_of_b3 {text : JsString} (h : isB3HashText text = true) :
    ∀ unit ∈ text, isPlainUnit unit = true := by
  simp only [isB3HashText, Bool.and_eq_true, beq_iff_eq, List.all_eq_true] at h
  obtain ⟨⟨hfront, -⟩, hhex⟩ := h
  intro unit hunit
  rw [← List.take_append_drop 3 text, List.mem_append, hfront] at hunit
  rcases hunit with hunit | hunit
  · exact List.all_eq_true.1 (by decide : hashPrefix.all isPlainUnit = true) unit hunit
  · exact isPlainUnit_of_hex (hhex unit hunit)

theorem length_of_b3 {text : JsString} (h : isB3HashText text = true) : text.length = 67 := by
  simp only [isB3HashText, Bool.and_eq_true, beq_iff_eq] at h
  exact h.1.2

theorem ascii_of_plain {text : JsString} (h : ∀ unit ∈ text, isPlainUnit unit = true) :
    Ascii text := by
  intro unit hunit
  have hplain := h unit hunit
  simp only [isPlainUnit, Bool.and_eq_true, decide_eq_true_eq] at hplain
  omega

/-! ## Canonical text of a binding -/

/-- The canonical JSON of a binding. -/
def bindingText (binding : TextBinding) : JsString :=
  js "\x7b\"canonical_length\":" ++ (natText binding.canonicalLength ++
    (js ",\"commitment\":\"" ++ (binding.commitment ++
      js "\",\"scheme\":\"canon-letters/0.1\"\x7d")))

theorem stringify_of_plain {text : JsString} (h : ∀ unit ∈ text, isPlainUnit unit = true) :
    stringifyString text = js "\"" ++ text ++ js "\"" := by
  rw [stringifyString, quoteBody_of_plain h]

/-- The three fields of a binding are written in one order, however they come. -/
theorem canonicalizeJson_permuted (P : Platform) (scheme length commitment : Json)
    {fields : List (JsString × Json)}
    (horder : fields ∈ [(js "scheme", scheme), (js "canonical_length", length),
      (js "commitment", commitment)].permutations')
    {schemeText lengthText commitmentText : JsString}
    (hscheme : canonicalizeJson P scheme = .ok schemeText)
    (hlength : canonicalizeJson P length = .ok lengthText)
    (hcommitment : canonicalizeJson P commitment = .ok commitmentText) :
    canonicalizeJson P (.obj fields) =
      .ok (js "\x7b\"canonical_length\":" ++ (lengthText ++ (js ",\"commitment\":" ++
        (commitmentText ++ (js ",\"scheme\":" ++ (schemeText ++ js "\x7d")))))) := by
  have hsorted : List.insertionSort keyLe (canonicalizeFields P fields) =
      [(js "canonical_length", canonicalizeJson P length),
        (js "commitment", canonicalizeJson P commitment),
        (js "scheme", canonicalizeJson P scheme)] := by
    simp only [List.permutations', List.permutations'Aux, List.flatMap_cons, List.flatMap_nil,
      List.map_cons, List.map_nil, List.append_nil, List.mem_append, List.mem_cons,
      List.not_mem_nil, or_false] at horder
    rcases horder with ((rfl | rfl | rfl) | (rfl | rfl | rfl)) <;> rfl
  have hkeys : stringifyString (js "canonical_length") = js "\"canonical_length\"" ∧
      stringifyString (js "commitment") = js "\"commitment\"" ∧
      stringifyString (js "scheme") = js "\"scheme\"" := by decide
  obtain ⟨klength, kcommitment, kscheme⟩ := hkeys
  rw [canonicalizeJson, hsorted, hscheme, hlength, hcommitment]
  simp only [writeFields, Except.map, klength, kcommitment, kscheme, joinWith,
    List.append_assoc]
  rfl

theorem perm_of_bindingReads {fields : List (JsString × Json)} {binding : TextBinding}
    (hreads : BindingReads (.obj fields) binding) (hnodup : (fields.map Prod.fst).Nodup) :
    fields.Perm [(js "scheme", .str textBindingScheme),
      (js "canonical_length", Json.ofNat binding.canonicalLength),
      (js "commitment", .str binding.commitment)] := by
  have hmem : ∀ key value, (key, value) ∈ fields ↔ fields.lookup key = some value :=
    fun key value => (lookup_eq_some_iff_mem hnodup).symm
  have hthree : [(js "scheme", Json.str textBindingScheme),
      (js "canonical_length", Json.ofNat binding.canonicalLength),
      (js "commitment", Json.str binding.commitment)].Nodup :=
    List.Nodup.of_map Prod.fst (by decide : bindingKeys.Nodup)
  refine (List.perm_ext_iff_of_nodup hnodup.of_map hthree).2 ?_
  rintro ⟨key, value⟩
  rw [hmem]
  have hscheme : fields.lookup (js "scheme") = some (.str textBindingScheme) := hreads.scheme
  have hlength : fields.lookup (js "canonical_length") =
      some (Json.ofNat binding.canonicalLength) := hreads.canonicalLength
  have hcommitment : fields.lookup (js "commitment") = some (.str binding.commitment) :=
    hreads.commitment
  simp only [List.mem_cons, List.not_mem_nil, or_false, Prod.mk.injEq]
  constructor
  · intro hvalue
    have hkey : key ∈ bindingKeys :=
      hreads.known key (List.mem_map.2 ⟨(key, value), (hmem key value).2 hvalue, rfl⟩)
    simp only [bindingKeys, List.mem_cons, List.not_mem_nil, or_false] at hkey
    rcases hkey with rfl | rfl | rfl
    · exact Or.inl ⟨rfl, Option.some.inj (hvalue.symm.trans hscheme)⟩
    · exact Or.inr (Or.inl ⟨rfl, Option.some.inj (hvalue.symm.trans hlength)⟩)
    · exact Or.inr (Or.inr ⟨rfl, Option.some.inj (hvalue.symm.trans hcommitment)⟩)
  · rintro (⟨rfl, rfl⟩ | ⟨rfl, rfl⟩ | ⟨rfl, rfl⟩)
    · exact hscheme
    · exact hlength
    · exact hcommitment

theorem textBindingScheme_plain : ∀ unit ∈ textBindingScheme, isPlainUnit unit = true :=
  List.all_eq_true.1 (by decide)

theorem canonicalizeJson_binding (P : Platform) {value : Json} {binding : TextBinding}
    (hvalid : binding.Valid) (hreads : BindingReads value binding) (hnodup : value.keys.Nodup) :
    canonicalizeJson P value = .ok (bindingText binding) := by
  match value, hreads, hnodup with
  | .obj fields, hreads, hnodup =>
    have hlength : binding.canonicalLength ≤ maxSafeInteger :=
      Nat.le_trans hvalid.length_le (by decide)
    rw [canonicalizeJson_permuted P _ _ _
      (List.mem_permutations'.2 (perm_of_bindingReads hreads hnodup))
      (by rw [canonicalizeJson, stringify_of_plain textBindingScheme_plain])
      (canonicalizeJson_ofNat P hlength)
      (by rw [canonicalizeJson, stringify_of_plain (isPlainUnit_of_b3 hvalid.commitment)])]
    rw [bindingText]
    simp only [List.append_assoc]
    rfl

theorem canonicalizeTextBinding_eq (P : Platform) {value : Json} {binding : TextBinding}
    (hvalid : binding.Valid) (hreads : BindingReads value binding) :
    canonicalizeTextBinding P value = .ok (bindingText binding) := by
  have hassert : assertValidTextBinding value = .ok () :=
    throwErrors_ok.2 (validateTextBinding_eq_nil.2 ⟨binding, hvalid, hreads⟩)
  rw [canonicalizeTextBinding, hassert, hreads.scheme, hreads.canonicalLength,
    hreads.commitment]
  refine canonicalizeJson_binding P hvalid ?_ ?_
  · exact ⟨rfl, fun key hkey => hkey, rfl, rfl, rfl⟩
  · exact (by decide : bindingKeys.Nodup)

end Pmbah.Format
