import Mathlib.Data.Option.Basic
import Pmbah.Format.TextBinding

/-!
# The record hash commits to the record

Four kinds of byte strings are hashed for a record: the first event after the
version and the session, each later event after the previous digest, and the
0.2 and 0.3 seals after the last digest.  They can be told apart and taken
apart, so two records with one hash are the same record or exhibit a collision.
-/

namespace Pmbah.Format

open Js Library

/-! ## Seals -/

def textOrNull : Option JsString → Json
  | none => .null
  | some text => .str text

def quotedOrNull : Option JsString → JsString
  | none => js "null"
  | some text => js "\"" ++ text ++ js "\""

def bindingOrNull : Option TextBinding → JsString
  | none => js "null"
  | some binding => bindingText binding

/-- The canonical JSON of a 0.3 finalization. -/
def sealText (durationMs : Nat) (parentRecord : Option JsString)
    (binding : Option TextBinding) : JsString :=
  js "\x7b\"duration_ms\":" ++ (natText durationMs ++
    (js ",\"format_version\":\"0.3\",\"parent_record\":" ++ (quotedOrNull parentRecord ++
      (js ",\"text_binding\":" ++ (bindingOrNull binding ++ js "\x7d")))))

/-- What is hashed after the last event, if anything is. -/
def sealMessage (version : FormatVersion) (durationMs : Nat) (parentRecord : Option JsString)
    (binding : Option TextBinding) (tip : B3Hash) : Option (List UInt8) :=
  match version with
  | .v0_1 => none
  | .v0_2 => binding.map fun binding => tip.bytes ++ utf8ToBytes (bindingText binding)
  | .v0_3 => some (tip.bytes ++ utf8ToBytes (sealText durationMs parentRecord binding))

/-- The binding of a manifest that has been validated. -/
def recordBinding (manifest : Json) : Option TextBinding :=
  (manifest.field (js "text_binding")).map readTextBinding

/-- The parent of a manifest that has been validated; absent and null are one. -/
def recordParent (manifest : Json) : Option JsString :=
  Json.text? (manifest.field (js "parent_record"))

/-- The fields of a valid manifest that a seal covers. -/
structure SealReads (manifest : Json) (parentRecord : Option JsString)
    (binding : Option TextBinding) : Prop where
  parent_eq : Json.orNull (manifest.field (js "parent_record")) = textOrNull parentRecord
  parentValid : ∀ parent ∈ parentRecord, isB3HashText parent = true
  binding_eq : Option.Rel (fun value binding => TextBinding.Valid binding ∧
    BindingReads value binding) (manifest.field (js "text_binding")) binding
  unbound : manifestVersion manifest = .v0_1 → binding = none

theorem parentReads {value : Option Json}
    (h : (isAbsentOrNull value || isB3Hash value) = true) :
    Json.orNull value = textOrNull (Json.text? value) ∧
      ∀ parent ∈ Json.text? value, isB3HashText parent = true := by
  rw [Bool.or_eq_true, isB3Hash_iff] at h
  rcases h with hnull | ⟨text, rfl, htext⟩
  · match value with
    | none | some .null => exact ⟨rfl, by simp [Json.text?]⟩
    | some (.bool _) | some (.num _) | some (.str _) | some (.arr _) | some (.obj _) =>
        simp [isAbsentOrNull] at hnull
  · exact ⟨rfl, by simpa [Json.text?] using htext⟩

theorem sealReads_of_valid {P : Platform} {manifest : Json}
    (h : validateManifest P manifest = []) :
    SealReads manifest (recordParent manifest) (recordBinding manifest) := by
  obtain ⟨version, sessionId, count, duration, hreads⟩ := manifestReads_of_valid h
  have hversion := hreads.manifestVersion
  have haccepted := validateManifest_eq_nil.1 h
  obtain ⟨hparentEq, hparentValid⟩ := parentReads haccepted.parent
  have hbinding := haccepted.binding
  simp only [validateManifestBinding, hreads.hasVersion, Json.text?, Option.bind_some,
    FormatVersion.ofText?_text, List.append_eq_nil_iff, require_eq_nil] at hbinding
  refine ⟨hparentEq, hparentValid, ?_, ?_⟩
  · rw [recordBinding]
    cases hfield : manifest.field (js "text_binding") with
    | none => exact .none
    | some value =>
        have hvalue : validateTextBinding value = [] := by
          cases version <;> simp_all [Json.hasField]
        obtain ⟨binding, hvalid, hvalueReads⟩ := validateTextBinding_eq_nil.1 hvalue
        rw [Option.map_some, readTextBinding_of_reads hvalueReads]
        exact .some ⟨hvalid, hvalueReads⟩
  · intro hv01
    rw [hversion] at hv01
    subst hv01
    simpa [Json.hasField, recordBinding] using hbinding.1

/-- The fields of a finalization are written in this order. -/
theorem canonicalizeJson_seal (P : Platform) (duration parent binding : Json)
    {durationText parentText bindText : JsString}
    (hduration : canonicalizeJson P duration = .ok durationText)
    (hparent : canonicalizeJson P parent = .ok parentText)
    (hbinding : canonicalizeJson P binding = .ok bindText) :
    canonicalizeJson P (.ofFields [(js "format_version", some (.str (js "0.3"))),
        (js "duration_ms", some duration), (js "parent_record", some parent),
        (js "text_binding", some binding)]) =
      .ok (js "\x7b\"duration_ms\":" ++ (durationText ++
        (js ",\"format_version\":\"0.3\",\"parent_record\":" ++ (parentText ++
          (js ",\"text_binding\":" ++ (bindText ++ js "\x7d")))))) := by
  have hversion : canonicalizeJson P (.str (js "0.3")) = .ok (js "\"0.3\"") := by
    rw [canonicalizeJson]
    decide
  have hsorted : List.insertionSort keyLe
      [(js "format_version", canonicalizeJson P (.str (js "0.3"))),
        (js "duration_ms", canonicalizeJson P duration),
        (js "parent_record", canonicalizeJson P parent),
        (js "text_binding", canonicalizeJson P binding)] =
      [(js "duration_ms", canonicalizeJson P duration),
        (js "format_version", canonicalizeJson P (.str (js "0.3"))),
        (js "parent_record", canonicalizeJson P parent),
        (js "text_binding", canonicalizeJson P binding)] := by rfl
  have hkeys : stringifyString (js "duration_ms") = js "\"duration_ms\"" ∧
      stringifyString (js "format_version") = js "\"format_version\"" ∧
      stringifyString (js "parent_record") = js "\"parent_record\"" ∧
      stringifyString (js "text_binding") = js "\"text_binding\"" := by decide
  obtain ⟨kduration, kversion, kparent, kbinding⟩ := hkeys
  have hopen : js "\x7b\"duration_ms\":" = js "\x7b" ++ (js "\"duration_ms\"" ++ js ":") := by decide
  have hparentKey : js ",\"format_version\":\"0.3\",\"parent_record\":" =
      js "," ++ (js "\"format_version\"" ++ (js ":" ++ (js "\"0.3\"" ++
        (js "," ++ (js "\"parent_record\"" ++ js ":"))))) := by decide
  have hbindingKey : js ",\"text_binding\":" =
      js "," ++ (js "\"text_binding\"" ++ js ":") := by decide
  simp only [Json.ofFields, List.filterMap_cons, List.filterMap_nil, Option.map_some]
  rw [canonicalizeJson]
  simp only [canonicalizeFields]
  rw [hsorted, hversion, hduration, hparent, hbinding]
  simp only [writeFields, Except.map, kduration, kversion, kparent, kbinding, joinWith,
    hopen, hparentKey, hbindingKey, List.append_assoc]

theorem canonicalizeJson_textOrNull (P : Platform) {text : Option JsString}
    (h : ∀ value ∈ text, isB3HashText value = true) :
    canonicalizeJson P (textOrNull text) = .ok (quotedOrNull text) := by
  cases text with
  | none => simp [textOrNull, quotedOrNull, canonicalizeJson]
  | some value =>
      rw [textOrNull, canonicalizeJson, stringify_of_plain (isPlainUnit_of_b3 (h value rfl))]
      rfl

/-- Sealing a valid manifest hashes the seal message, if there is one. -/
theorem sealManifest_eq {P : Platform} {manifest : Json}
    (hmanifest : validateManifest P manifest = []) (hwell : manifest.wellFormed = true)
    (tip : B3Hash) :
    sealManifest P manifest tip =
      .ok (match sealMessage (manifestVersion manifest) (manifest.natAt (js "duration_ms"))
          (recordParent manifest) (recordBinding manifest) tip with
        | none => tip
        | some message => P.blake3 message) := by
  obtain ⟨version, sessionId, count, duration, hreads⟩ := manifestReads_of_valid hmanifest
  have hseal := sealReads_of_valid hmanifest
  have haccepted := validateManifest_eq_nil.1 hmanifest
  have hdurationLe : duration ≤ maxSafeInteger := hreads.durationMs_le
  rw [sealManifest, hreads.manifestVersion, hreads.natAt_durationMs]
  have hnodup : ∀ value, manifest.field (js "text_binding") = some value → value.keys.Nodup :=
    fun value hvalue =>
      Json.nodup_keys_of_wellFormed (Json.wellFormed_of_field hwell hvalue)
  have hrel := hseal.binding_eq
  cases version with
  | v0_1 => rfl
  | v0_2 =>
      cases hfield : manifest.field (js "text_binding") with
      | none =>
          rw [hfield] at hrel
          cases hbinding : recordBinding manifest with
          | none => rfl
          | some binding => rw [hbinding] at hrel; cases hrel
      | some value =>
          rw [hfield] at hrel
          cases hbinding : recordBinding manifest with
          | none => rw [hbinding] at hrel; cases hrel
          | some binding =>
              rw [hbinding] at hrel
              cases hrel with
              | some hvalue =>
                  simp only [sealRecordHash, sealMessage,
                    canonicalizeTextBinding_eq P hvalue.1 hvalue.2]
                  rfl
  | v0_3 =>
      have hbindingText : canonicalizeJson P (Json.orNull (manifest.field (js "text_binding"))) =
          .ok (bindingOrNull (recordBinding manifest)) := by
        cases hfield : manifest.field (js "text_binding") with
        | none => simp [Json.orNull, recordBinding, hfield, bindingOrNull, canonicalizeJson]
        | some value =>
            rw [hfield] at hrel
            cases hbinding : recordBinding manifest with
            | none => rw [hbinding] at hrel; cases hrel
            | some binding =>
                rw [hbinding] at hrel
                cases hrel with
                | some hvalue =>
                    exact canonicalizeJson_binding P hvalue.1 hvalue.2 (hnodup value hfield)
      have herrors : finalizationErrors (manifest.field (js "text_binding"))
          (manifestFinalization manifest) = [] := by
        simp only [finalizationErrors, manifestFinalization, validateElapsedMilliseconds,
          List.append_eq_nil_iff, require_eq_nil]
        refine ⟨⟨haccepted.duration, haccepted.parent⟩, ?_⟩
        cases hfield : manifest.field (js "text_binding") with
        | none => rfl
        | some value =>
            rw [hfield] at hrel
            generalize recordBinding manifest = binding at hrel
            cases hrel with
            | some hvalue => exact validateTextBinding_eq_nil.2 ⟨_, hvalue.1, hvalue.2⟩
      rw [sealRecordHash, herrors]
      simp only [throwErrors, List.isEmpty_nil, if_true, manifestFinalization,
        hreads.hasDuration, hseal.parent_eq]
      rw [canonicalizeJson_seal P _ _ _ (canonicalizeJson_ofNat P hdurationLe)
        (canonicalizeJson_textOrNull P hseal.parentValid) hbindingText]
      rfl

/-! ## Seal texts -/

/-- A quoted hash or `null` in front of equal rests is the same one. -/
theorem quotedOrNull_cancel {a b : Option JsString} {s t : JsString}
    (ha : ∀ text ∈ a, isB3HashText text = true) (hb : ∀ text ∈ b, isB3HashText text = true)
    (h : quotedOrNull a ++ s = quotedOrNull b ++ t) : a = b ∧ s = t := by
  cases a with
  | none =>
      cases b with
      | none => exact ⟨rfl, List.append_cancel_left h⟩
      | some text => exact absurd (congrArg List.head? h) (by simp [quotedOrNull, js, charUnits])
  | some text =>
      cases b with
      | none => exact absurd (congrArg List.head? h) (by simp [quotedOrNull, js, charUnits])
      | some other =>
          have hlength : (quotedOrNull (some text)).length = (quotedOrNull (some other)).length := by
            simp [quotedOrNull, length_of_b3 (ha text rfl), length_of_b3 (hb other rfl)]
          obtain ⟨hquoted, hrest⟩ := List.append_inj h hlength
          simp only [quotedOrNull, List.append_cancel_left_eq, List.append_cancel_right_eq]
            at hquoted
          exact ⟨by rw [hquoted], hrest⟩

theorem bindingText_injective {a b : TextBinding} (ha : a.Valid) (hb : b.Valid)
    (h : bindingText a = bindingText b) : a = b := by
  have h := List.append_cancel_left h
  obtain ⟨hlength, h⟩ := cancel_part natText_prefixCode (by decide) h
  obtain ⟨hcommitment, -⟩ := List.append_inj h
    (by rw [length_of_b3 ha.commitment, length_of_b3 hb.commitment])
  cases a
  cases b
  simp_all

theorem bindingOrNull_injective {a b : Option TextBinding} (ha : ∀ binding ∈ a, binding.Valid)
    (hb : ∀ binding ∈ b, binding.Valid) (h : bindingOrNull a = bindingOrNull b) : a = b := by
  cases a with
  | none =>
      cases b with
      | none => rfl
      | some binding =>
          exact absurd (congrArg List.head? h) (by simp [bindingOrNull, bindingText, js, charUnits])
  | some binding =>
      cases b with
      | none =>
          exact absurd (congrArg List.head? h) (by simp [bindingOrNull, bindingText, js, charUnits])
      | some other => rw [bindingText_injective (ha binding rfl) (hb other rfl) h]

theorem sealText_injective {d d' : Nat} {p p' : Option JsString} {b b' : Option TextBinding}
    (hp : ∀ text ∈ p, isB3HashText text = true) (hp' : ∀ text ∈ p', isB3HashText text = true)
    (hb : ∀ binding ∈ b, binding.Valid) (hb' : ∀ binding ∈ b', binding.Valid)
    (h : sealText d p b = sealText d' p' b') : d = d' ∧ p = p' ∧ b = b' := by
  have h := List.append_cancel_left h
  obtain ⟨hduration, h⟩ := cancel_part natText_prefixCode (by decide) h
  obtain ⟨hparent, h⟩ := quotedOrNull_cancel hp hp' h
  have hbinding := List.append_cancel_right (List.append_cancel_left h)
  exact ⟨hduration, hparent, bindingOrNull_injective hb hb' hbinding⟩

theorem bindingText_ascii {binding : TextBinding} (h : binding.Valid) :
    Ascii (bindingText binding) := by
  simp only [bindingText, ascii_append]
  exact ⟨by decide, natText_ascii _, by decide, ascii_of_plain (isPlainUnit_of_b3 h.commitment),
    by decide⟩

theorem sealText_ascii {d : Nat} {p : Option JsString} {b : Option TextBinding}
    (hp : ∀ text ∈ p, isB3HashText text = true) (hb : ∀ binding ∈ b, binding.Valid) :
    Ascii (sealText d p b) := by
  have hparent : Ascii (quotedOrNull p) := by
    cases p with
    | none => decide
    | some text =>
        simp only [quotedOrNull, ascii_append]
        exact ⟨⟨by decide, ascii_of_plain (isPlainUnit_of_b3 (hp text rfl))⟩, by decide⟩
  have hbinding : Ascii (bindingOrNull b) := by
    cases b with
    | none => decide
    | some binding => exact bindingText_ascii (hb binding rfl)
  simp only [sealText, ascii_append]
  exact ⟨by decide, natText_ascii d, by decide, hparent, by decide, hbinding, by decide⟩

/-- The three kinds of text differ in their third or fourth unit. -/
theorem eventText_ne_bindingText (event : BufferMutation) (binding : TextBinding) :
    eventText event ≠ bindingText binding := by
  intro h
  have := congrArg (fun text => text[2]?) h
  simp [eventText, bindingText, js, charUnits] at this

theorem eventText_ne_sealText (event : BufferMutation) (d : Nat) (p : Option JsString)
    (b : Option TextBinding) : eventText event ≠ sealText d p b := by
  intro h
  have := congrArg (fun text => text[3]?) h
  simp [eventText, sealText, js, charUnits] at this

theorem bindingText_ne_sealText (binding : TextBinding) (d : Nat) (p : Option JsString)
    (b : Option TextBinding) : bindingText binding ≠ sealText d p b := by
  intro h
  have := congrArg (fun text => text[2]?) h
  simp [bindingText, sealText, js, charUnits] at this

/-! ## First events -/

theorem isUuid_unit {value : JsString} (h : isUuid value = true) {i : Nat} {unit : UInt16}
    (hi : value[i]? = some unit) : isHexUnit unit = true ∨ unit = 45 := by
  simp only [isUuid, Bool.and_eq_true, beq_iff_eq, List.all_eq_true, List.mem_range] at h
  obtain ⟨hlength, hunits⟩ := h
  have hlt : i < 36 := by
    have := (List.getElem?_eq_some_iff.1 hi).1
    omega
  have hunit := hunits i hlt
  rw [hi] at hunit
  simp only at hunit
  split at hunit
  · exact Or.inr (by simpa using hunit)
  · split at hunit
    · rw [show unit = 52 by simpa using hunit]
      exact Or.inl (by decide)
    · split at hunit
      · simp only [Bool.or_eq_true, beq_iff_eq] at hunit
        rcases hunit with ((rfl | rfl) | rfl) | rfl <;> exact Or.inl (by decide)
      · exact Or.inl hunit

theorem length_of_isUuid {value : JsString} (h : isUuid value = true) : value.length = 36 := by
  simp only [isUuid, Bool.and_eq_true, beq_iff_eq] at h
  exact h.1

theorem isPlainUnit_of_isUuid {value : JsString} (h : isUuid value = true) :
    ∀ unit ∈ value, isPlainUnit unit = true := by
  intro unit hunit
  obtain ⟨i, hi⟩ := List.mem_iff_getElem?.1 hunit
  rcases isUuid_unit h hi with hhex | rfl
  · exact isPlainUnit_of_hex hhex
  · decide

theorem versionText_ascii (version : FormatVersion) : Ascii version.text := by
  cases version <;> decide

theorem length_versionBytes (version : FormatVersion) :
    (utf8ToBytes version.text).length = 3 := by
  rw [length_utf8ToBytes (versionText_ascii version)]
  cases version <;> rfl

theorem length_chainStart {sessionId : JsString} (h : isUuid sessionId = true)
    (version : FormatVersion) : (chainStart sessionId version).length = 39 := by
  rw [chainStart, List.length_append, length_versionBytes,
    length_utf8ToBytes (ascii_of_plain (isPlainUnit_of_isUuid h)), length_of_isUuid h]

/-- The start determines the session and the version up to the 0.3 upgrade. -/
theorem chainStart_inj {s s' : JsString} {v v' : FormatVersion} (hs : isUuid s = true)
    (hs' : isUuid s' = true) (h : chainStart s v = chainStart s' v') :
    eventChainFormatVersion v = eventChainFormatVersion v' ∧ s = s' := by
  obtain ⟨hversion, hsession⟩ := List.append_inj h
    (by rw [length_versionBytes, length_versionBytes])
  constructor
  · have := utf8ToBytes_injective (versionText_ascii _) (versionText_ascii _) hversion
    have := congrArg FormatVersion.ofText? this
    simpa using this
  · exact utf8ToBytes_injective (ascii_of_plain (isPlainUnit_of_isUuid hs))
      (ascii_of_plain (isPlainUnit_of_isUuid hs')) hsession

theorem utf8ToBytes_getElem? {text : JsString} (h : Ascii text) (i : Nat) :
    (utf8ToBytes text)[i]? = text[i]?.map fun unit => UInt8.ofNat unit.toNat := by
  rw [utf8ToBytes_of_ascii h, List.getElem?_map]

/-- The unit at place 32 of a first message belongs to the session id. -/
theorem chainStart_place {s : JsString} (hs : isUuid s = true) (v : FormatVersion) :
    ∃ unit, isHexUnit unit = true ∧
      (chainStart s v)[32]? = some (UInt8.ofNat unit.toNat) := by
  have hplace := hs
  simp only [isUuid, Bool.and_eq_true, beq_iff_eq, List.all_eq_true, List.mem_range] at hplace
  have hunit := hplace.2 29 (by omega)
  cases hget : s[29]? with
  | none => simp [hget] at hunit
  | some unit =>
      simp only [hget] at hunit
      refine ⟨unit, by simpa using hunit, ?_⟩
      rw [chainStart, List.getElem?_append_right (by rw [length_versionBytes]; omega),
        length_versionBytes,
        utf8ToBytes_getElem? (ascii_of_plain (isPlainUnit_of_isUuid hs)), hget]
      rfl

theorem hex_ne_brace {unit : UInt16} (h : isHexUnit unit = true) :
    UInt8.ofNat unit.toNat ≠ 123 := by
  simp only [isHexUnit, Bool.or_eq_true, Bool.and_eq_true, decide_eq_true_eq] at h
  intro heq
  have := congrArg UInt8.toNat heq
  rw [UInt8.toNat_ofNat', Nat.mod_eq_of_lt (by omega)] at this
  simp at this
  omega

/-- A first message is no digest followed by a text that opens with a brace. -/
theorem first_ne_braced {s : JsString} (hs : isUuid s = true) (v : FormatVersion)
    (rest : List UInt8) (digest : B3Hash) {text : JsString} (htext : Ascii text)
    (hbrace : text[0]? = some 123) :
    chainStart s v ++ rest ≠ digest.bytes ++ utf8ToBytes text := by
  intro h
  obtain ⟨unit, hhex, hplace⟩ := chainStart_place hs v
  have hget := congrArg (fun bytes => bytes[32]?) h
  rw [List.getElem?_append_left (by rw [length_chainStart hs]; omega), hplace,
    List.getElem?_append_right (by rw [digest.length_eq]), digest.length_eq,
    Nat.sub_self, utf8ToBytes_getElem? htext, hbrace] at hget
  simp only [Option.map_some, Option.some.injEq] at hget
  exact hex_ne_brace hhex hget

theorem eventText_brace (event : BufferMutation) : (eventText event)[0]? = some 123 := by
  simp [eventText, js, charUnits]

theorem bindingText_brace (binding : TextBinding) : (bindingText binding)[0]? = some 123 := by
  simp [bindingText, js, charUnits]

theorem sealText_brace (d : Nat) (p : Option JsString) (b : Option TextBinding) :
    (sealText d p b)[0]? = some 123 := by
  simp [sealText, js, charUnits]

/-- Digest and text are read off their concatenation. -/
theorem digest_append_inj {d d' : B3Hash} {text text' : JsString} (htext : Ascii text)
    (htext' : Ascii text') (h : d.bytes ++ utf8ToBytes text = d'.bytes ++ utf8ToBytes text') :
    d = d' ∧ text = text' := by
  obtain ⟨hd, hbytes⟩ := List.append_inj h (by rw [d.length_eq, d'.length_eq])
  refine ⟨?_, utf8ToBytes_injective htext htext' hbytes⟩
  cases d
  cases d'
  simp_all

theorem eventScheme_separated (P : Platform) {s s' : JsString} (hs : isUuid s = true)
    (hs' : isUuid s' = true) (v v' : FormatVersion) :
    (eventScheme P).Separated (chainStart s v) (chainStart s' v') where
  step d d' e e' h := by
    obtain ⟨hd, htext⟩ := digest_append_inj (eventText_ascii e) (eventText_ascii e') h
    exact ⟨hd, eventText_injective htext⟩
  first e e' h := by
    obtain ⟨hstart, hbytes⟩ := List.append_inj h
      (by rw [length_chainStart hs, length_chainStart hs'])
    exact ⟨hstart, eventText_injective
      (utf8ToBytes_injective (eventText_ascii e) (eventText_ascii e') hbytes)⟩
  first_ne_step d e e' :=
    first_ne_braced hs v _ d (eventText_ascii e') (eventText_brace e')
  step_ne_first d e e' h :=
    first_ne_braced hs' v' _ d (eventText_ascii e) (eventText_brace e) h.symm

/-! ## Commitment -/

/-- What a record hash is computed from. -/
structure Commitment where
  version : FormatVersion
  sessionId : JsString
  events : List BufferMutation
  binding : Option TextBinding
  durationMs : Nat
  parentRecord : Option JsString

namespace Commitment

structure Valid (c : Commitment) : Prop where
  uuid : isUuid c.sessionId = true
  nonempty : c.events ≠ []
  bindingValid : ∀ binding ∈ c.binding, binding.Valid
  parentValid : ∀ parent ∈ c.parentRecord, isB3HashText parent = true
  unbound : c.version = .v0_1 → c.binding = none

def tip (P : Platform) (c : Commitment) : Option B3Hash :=
  eventTip P c.sessionId c.version c.events

def sealed (c : Commitment) (tip : B3Hash) : Option (List UInt8) :=
  sealMessage c.version c.durationMs c.parentRecord c.binding tip

/-- Every byte string that is hashed. -/
def messages (P : Platform) (c : Commitment) : List (List UInt8) :=
  (eventScheme P).messages (chainStart c.sessionId c.version) c.events ++
    ((c.tip P).bind c.sealed).toList

def hash (P : Platform) (c : Commitment) : Option B3Hash :=
  (c.tip P).map fun tip =>
    match c.sealed tip with
    | none => tip
    | some message => P.blake3 message

/-- The same record, as far as its version records it. -/
def Agrees (c c' : Commitment) : Prop :=
  c.version = c'.version ∧ c.sessionId = c'.sessionId ∧ c.events = c'.events ∧
    c.binding = c'.binding ∧
    (c.version = .v0_3 → c.durationMs = c'.durationMs ∧ c.parentRecord = c'.parentRecord)

variable {P : Platform} {c c' : Commitment}

theorem Valid.tip_eq_some (P : Platform) (h : c.Valid) : ∃ tip, c.tip P = some tip := by
  refine Option.ne_none_iff_exists'.1 fun hnone => h.nonempty ?_
  exact (eventScheme P).tip_eq_none.1 hnone

/-- Two seals that are one byte string seal one tip with the same values. -/
theorem seal_inj (h : c.Valid) (h' : c'.Valid) {tip tip' : B3Hash} {message : List UInt8}
    (hseal : c.sealed tip = some message) (hseal' : c'.sealed tip' = some message) :
    tip = tip' ∧ c.version = c'.version ∧ c.binding = c'.binding ∧
      (c.version = .v0_3 → c.durationMs = c'.durationMs ∧ c.parentRecord = c'.parentRecord) := by
  have hascii := @sealText_ascii c.durationMs c.parentRecord c.binding h.parentValid h.bindingValid
  have hascii' :=
    @sealText_ascii c'.durationMs c'.parentRecord c'.binding h'.parentValid h'.bindingValid
  unfold sealed sealMessage at hseal hseal'
  cases hversion : c.version with
  | v0_1 => simp [hversion] at hseal
  | v0_2 =>
      simp only [hversion, Option.map_eq_some_iff] at hseal
      obtain ⟨binding, hbinding, rfl⟩ := hseal
      have hvalid := h.bindingValid binding hbinding
      cases hversion' : c'.version with
      | v0_1 => simp [hversion'] at hseal'
      | v0_2 =>
          simp only [hversion', Option.map_eq_some_iff] at hseal'
          obtain ⟨binding', hbinding', hmessage⟩ := hseal'
          have hvalid' := h'.bindingValid binding' hbinding'
          obtain ⟨htip, htext⟩ :=
            digest_append_inj (bindingText_ascii hvalid') (bindingText_ascii hvalid) hmessage
          refine ⟨htip.symm, rfl, ?_, by simp⟩
          rw [hbinding, hbinding', bindingText_injective hvalid' hvalid htext]
      | v0_3 =>
          simp only [hversion', Option.some.injEq] at hseal'
          obtain ⟨-, htext⟩ := digest_append_inj hascii' (bindingText_ascii hvalid) hseal'
          exact absurd htext.symm (bindingText_ne_sealText _ _ _ _)
  | v0_3 =>
      simp only [hversion, Option.some.injEq] at hseal
      subst hseal
      cases hversion' : c'.version with
      | v0_1 => simp [hversion'] at hseal'
      | v0_2 =>
          simp only [hversion', Option.map_eq_some_iff] at hseal'
          obtain ⟨binding', hbinding', hmessage⟩ := hseal'
          obtain ⟨-, htext⟩ := digest_append_inj
            (bindingText_ascii (h'.bindingValid binding' hbinding')) hascii hmessage
          exact absurd htext (bindingText_ne_sealText _ _ _ _)
      | v0_3 =>
          simp only [hversion', Option.some.injEq] at hseal'
          obtain ⟨htip, htext⟩ := digest_append_inj hascii' hascii hseal'
          obtain ⟨hduration, hparent, hbinding⟩ := sealText_injective h'.parentValid
            h.parentValid h'.bindingValid h.bindingValid htext
          exact ⟨htip.symm, rfl, hbinding.symm, fun _ => ⟨hduration.symm, hparent.symm⟩⟩

/-- No seal is the message of an event. -/
theorem seal_ne_message (h : c.Valid) {s : JsString} (hs : isUuid s = true)
    {v : FormatVersion} {tip : B3Hash} {message : List UInt8} (hseal : c.sealed tip = some message)
    (previous : Option B3Hash) (event : BufferMutation) :
    message ≠ (eventScheme P).message (chainStart s v) previous event := by
  have hbraced : ∃ text, Ascii text ∧ text[0]? = some 123 ∧ eventText event ≠ text ∧
      message = tip.bytes ++ utf8ToBytes text := by
    unfold sealed sealMessage at hseal
    cases hversion : c.version with
    | v0_1 => simp [hversion] at hseal
    | v0_2 =>
        simp only [hversion, Option.map_eq_some_iff] at hseal
        obtain ⟨binding, hbinding, rfl⟩ := hseal
        exact ⟨bindingText binding, bindingText_ascii (h.bindingValid binding hbinding),
          bindingText_brace binding, eventText_ne_bindingText event binding, rfl⟩
    | v0_3 =>
        simp only [hversion, Option.some.injEq] at hseal
        exact ⟨_, sealText_ascii h.parentValid h.bindingValid, sealText_brace _ _ _,
          eventText_ne_sealText event _ _ _, hseal.symm⟩
  obtain ⟨text, hascii, hbrace, hne, rfl⟩ := hbraced
  intro hmessage
  cases previous with
  | none => exact first_ne_braced hs v _ tip hascii hbrace hmessage.symm
  | some digest =>
      obtain ⟨-, htext⟩ := digest_append_inj hascii (eventText_ascii event) hmessage
      exact hne htext.symm

/-- Equal event tips commit to one session and log, up to a collision. -/
theorem tip_binding (h : c.Valid) (h' : c'.Valid) (htip : c.tip P = c'.tip P) :
    (eventChainFormatVersion c.version = eventChainFormatVersion c'.version ∧
      c.sessionId = c'.sessionId ∧ c.events = c'.events) ∨
      Collision P.blake3 (c.messages P) (c'.messages P) := by
  rcases (eventScheme P).tip_binding (eventScheme_separated P h.uuid h'.uuid c.version c'.version)
    h.nonempty h'.nonempty htip with ⟨hstart, hevents⟩ | hcollision
  · obtain ⟨hversion, hsession⟩ := chainStart_inj h.uuid h'.uuid hstart
    exact Or.inl ⟨hversion, hsession, hevents⟩
  · exact Or.inr (hcollision.mono (List.subset_append_left _ _) (List.subset_append_left _ _))

theorem mem_messages_of_seal {tip : B3Hash} {message : List UInt8} (htip : c.tip P = some tip)
    (hseal : c.sealed tip = some message) : message ∈ c.messages P := by
  simp [messages, htip, hseal]

/-- A seal never hashes to the tip of an unsealed record without a collision. -/
theorem collision_of_seal_eq_tip (h : c.Valid) (h' : c'.Valid) {tip tip' : B3Hash}
    {message : List UInt8} (htip : c.tip P = some tip) (hseal : c.sealed tip = some message)
    (htip' : c'.tip P = some tip') (hhash : P.blake3 message = tip') :
    Collision P.blake3 (c.messages P) (c'.messages P) := by
  obtain ⟨previous, event, hmem, hlast⟩ := (eventScheme P).exists_message_of_tip htip'
  exact ⟨message, mem_messages_of_seal htip hseal, _, List.mem_append_left _ hmem,
    seal_ne_message h h'.uuid hseal previous event, hhash.trans hlast.symm⟩

/-- Records with one hash agree or collide. -/
theorem agrees_or_collision (h : c.Valid) (h' : c'.Valid) (hhash : c.hash P = c'.hash P) :
    Agrees c c' ∨ Collision P.blake3 (c.messages P) (c'.messages P) := by
  obtain ⟨tip, htip⟩ := h.tip_eq_some P
  obtain ⟨tip', htip'⟩ := h'.tip_eq_some P
  simp only [hash, htip, htip', Option.map_some, Option.some.injEq] at hhash
  cases hseal : c.sealed tip with
  | some message =>
      cases hseal' : c'.sealed tip' with
      | some message' =>
          simp only [hseal, hseal'] at hhash
          rcases eq_or_collision (mem_messages_of_seal htip hseal)
            (mem_messages_of_seal htip' hseal') hhash with rfl | hcollision
          · obtain ⟨rfl, hversion, hbinding, hfinal⟩ := seal_inj h h' hseal hseal'
            rcases tip_binding h h' (htip.trans htip'.symm) with
              ⟨-, hsession, hevents⟩ | hcollision
            · exact Or.inl ⟨hversion, hsession, hevents, hbinding, hfinal⟩
            · exact Or.inr hcollision
          · exact Or.inr hcollision
      | none =>
          simp only [hseal, hseal'] at hhash
          exact Or.inr (collision_of_seal_eq_tip h h' htip hseal htip' hhash)
  | none =>
      cases hseal' : c'.sealed tip' with
      | some message' =>
          simp only [hseal, hseal'] at hhash
          obtain ⟨a, ha, b, hb, hne, heq⟩ :=
            collision_of_seal_eq_tip h' h htip' hseal' htip hhash.symm
          exact Or.inr ⟨b, hb, a, ha, hne.symm, heq.symm⟩
      | none =>
          simp only [hseal, hseal'] at hhash
          subst hhash
          rcases tip_binding h h' (htip.trans htip'.symm) with
            ⟨hversion, hsession, hevents⟩ | hcollision
          · left
            have hunsealed : ∀ {c : Commitment}, c.Valid → c.sealed tip = none →
                c.version ≠ .v0_3 ∧ c.binding = none := by
              intro c hvalid hnone
              unfold sealed sealMessage at hnone
              cases hc : c.version with
              | v0_1 => exact ⟨by simp, hvalid.unbound hc⟩
              | v0_2 => exact ⟨by simp, by simpa [hc] using hnone⟩
              | v0_3 => simp [hc] at hnone
            obtain ⟨hne, hnone⟩ := hunsealed h hseal
            obtain ⟨hne', hnone'⟩ := hunsealed h' hseal'
            refine ⟨?_, hsession, hevents, by rw [hnone, hnone'], fun h3 => absurd h3 hne⟩
            cases hc : c.version <;> cases hc' : c'.version <;>
              simp_all [eventChainFormatVersion]
          · exact Or.inr hcollision

end Commitment

/-! ## Records -/

/-- What the hash of a validated record is computed from. -/
def recordCommitment (manifest : Json) (values : List Json) : Commitment where
  version := manifestVersion manifest
  sessionId := manifest.textAt (js "session_id")
  events := values.map readEvent
  binding := recordBinding manifest
  durationMs := manifest.natAt (js "duration_ms")
  parentRecord := recordParent manifest

/-- `computeRecordHash` with the values of a manifest. -/
def computeManifestHash (P : Platform) (manifest : Json) (values : List Json) :
    Except JsError B3Hash :=
  computeRecordHash P values (manifest.textAt (js "session_id")) (manifestVersion manifest)
    (manifest.field (js "text_binding")) (manifestFinalization manifest)

/-- The byte strings that `computeRecordHash` hashes for a record. -/
def hashedMessages (P : Platform) (manifest : Json) (values : List Json) : List (List UInt8) :=
  (recordCommitment manifest values).messages P

theorem mem_binding_of_rel {value : Option Json} {binding : Option TextBinding}
    (h : Option.Rel (fun value binding => TextBinding.Valid binding ∧
      BindingReads value binding) value binding) : ∀ b ∈ binding, b.Valid := by
  cases h with
  | some hvalue => simpa using hvalue.1
  | none => simp

/-- A hash that is computed is that of the commitment. -/
theorem computeManifestHash_eq {P : Platform} {manifest : Json} {values : List Json}
    {hash : B3Hash} (hmanifest : validateManifest P manifest = [])
    (hwell : manifest.wellFormed = true)
    (h : computeManifestHash P manifest values = .ok hash) :
    ReadsAsLog values (recordCommitment manifest values).events ∧
      ValidLog (recordCommitment manifest values).events ∧
      (recordCommitment manifest values).Valid ∧
      (recordCommitment manifest values).hash P = some hash := by
  obtain ⟨version, sessionId, count, duration, hreads⟩ := manifestReads_of_valid hmanifest
  have hseal := sealReads_of_valid hmanifest
  have huuid : isUuid (manifest.textAt (js "session_id")) = true := by
    rw [hreads.textAt_sessionId]
    exact hreads.uuid
  obtain ⟨events, hlog, hlogValid⟩ : ∃ events, ReadsAsLog values events ∧ ValidLog events := by
    refine assertValidEventLog_ok.1 (?_ : assertValidEventLog P values = .ok ())
    cases hassert : assertValidEventLog P values with
    | ok u => rfl
    | error thrown =>
        unfold computeManifestHash computeRecordHash computeEventHashChain at h
        cases hempty : assertNonEmptyEventLog values <;> simp [hempty, hassert] at h
  have hevents : (recordCommitment manifest values).events = events := hlog.map_readEvent
  have hne : events ≠ [] := by
    rintro rfl
    rw [List.forall₂_nil_right_iff.1 hlog] at h
    simp [computeManifestHash, computeRecordHash, computeEventHashChain,
      assertNonEmptyEventLog] at h
  have hvalid : (recordCommitment manifest values).Valid :=
    ⟨huuid, by rw [hevents]; exact hne, mem_binding_of_rel hseal.binding_eq, hseal.parentValid,
      hseal.unbound⟩
  obtain ⟨tip, htip⟩ := hvalid.tip_eq_some P
  refine ⟨by rw [hevents]; exact hlog, by rw [hevents]; exact hlogValid, hvalid, ?_⟩
  have htipEvents : eventTip P (manifest.textAt (js "session_id")) (manifestVersion manifest)
      events = some tip := by
    rw [← hevents]
    exact htip
  rw [computeManifestHash, computeRecordHash_eq huuid hlog hlogValid htipEvents] at h
  have hsealed := sealManifest_eq hmanifest hwell tip
  rw [sealManifest, h, Except.ok.injEq] at hsealed
  rw [Commitment.hash, htip, Option.map_some, hsealed]
  rfl

/-- One record, as far as its format version records it. -/
structure SameRecord (manifest manifest' : Json) (values values' : List Json) : Prop where
  version : manifest.field (js "format_version") = manifest'.field (js "format_version")
  session : manifest.field (js "session_id") = manifest'.field (js "session_id")
  events : ∃ events, ReadsAsLog values events ∧ ReadsAsLog values' events
  binding : recordBinding manifest = recordBinding manifest'
  finalization : manifestVersion manifest = .v0_3 →
    manifest.field (js "duration_ms") = manifest'.field (js "duration_ms") ∧
      Json.orNull (manifest.field (js "parent_record")) =
        Json.orNull (manifest'.field (js "parent_record"))

/-- Two valid records with one hash are one record, or two of the byte strings
hashed for them collide. -/
theorem recordHash_binding (P : Platform) {manifest manifest' : Json} {values values' : List Json}
    {hash : B3Hash}
    (hmanifest : validateManifest P manifest = []) (hwell : manifest.wellFormed = true)
    (hmanifest' : validateManifest P manifest' = []) (hwell' : manifest'.wellFormed = true)
    (h : computeManifestHash P manifest values = .ok hash)
    (h' : computeManifestHash P manifest' values' = .ok hash) :
    SameRecord manifest manifest' values values' ∨
      Collision P.blake3 (hashedMessages P manifest values)
        (hashedMessages P manifest' values') := by
  obtain ⟨hlog, -, hvalid, hhash⟩ := computeManifestHash_eq hmanifest hwell h
  obtain ⟨hlog', -, hvalid', hhash'⟩ := computeManifestHash_eq hmanifest' hwell' h'
  rcases Commitment.agrees_or_collision hvalid hvalid' (hhash.trans hhash'.symm) with
    ⟨hversion, hsession, hevents, hbinding, hfinal⟩ | hcollision
  · left
    obtain ⟨version, sessionId, count, duration, hreads⟩ := manifestReads_of_valid hmanifest
    obtain ⟨version', sessionId', count', duration', hreads'⟩ := manifestReads_of_valid hmanifest'
    have hseal := sealReads_of_valid hmanifest
    have hseal' := sealReads_of_valid hmanifest'
    simp only [recordCommitment, hreads.manifestVersion, hreads'.manifestVersion] at hversion
    simp only [recordCommitment, hreads.textAt_sessionId, hreads'.textAt_sessionId] at hsession
    subst hversion hsession
    refine ⟨?_, ?_, ⟨_, hlog, by rw [hevents]; exact hlog'⟩, hbinding, fun h3 => ?_⟩
    · rw [hreads.hasVersion, hreads'.hasVersion]
    · rw [hreads.hasSession, hreads'.hasSession]
    · obtain ⟨hduration, hparent⟩ := hfinal h3
      simp only [recordCommitment, hreads.natAt_durationMs, hreads'.natAt_durationMs] at hduration
      refine ⟨by rw [hreads.hasDuration, hreads'.hasDuration, hduration], ?_⟩
      rw [hseal.parent_eq, hseal'.parent_eq]
      exact congrArg textOrNull hparent
  · exact Or.inr hcollision

/-- A 0.3 manifest without a binding, its parent record left to the caller. -/
def finishedManifest (parentRecord : List (JsString × Json)) : Json :=
  .obj ([(js "format_version", .str (js "0.3")),
    (js "record_hash",
      .str (js "b3:5e995fa7fb12582f9a9a94adc9d52975fc314b116f250b95d6fec01f4c2aca04")),
    (js "session_id", .str (js "123e4567-e89b-42d3-a456-426614174000")),
    (js "producer", .obj [(js "id", .str (js "fixture")), (js "version", .str (js "0.1.0")),
      (js "capabilities", .arr [])]),
    (js "event_count", Json.ofNat 1), (js "duration_ms", Json.ofNat 5),
    (js "attestations", .arr [])] ++ parentRecord)

def oneInsert : List Json :=
  [BufferMutation.toJson ⟨0, 0, .insert, some 0, some 0, some 1, .typing⟩]

/-- An absent parent record and a null one give one hash and are one record. -/
theorem recordHash_binding_absent_parent :
    ∃ hash, computeManifestHash Platform.standard (finishedManifest []) oneInsert = .ok hash ∧
      (SameRecord (finishedManifest []) (finishedManifest [(js "parent_record", .null)])
          oneInsert oneInsert ∨
        Collision Platform.standard.blake3
          (hashedMessages Platform.standard (finishedManifest []) oneInsert)
          (hashedMessages Platform.standard (finishedManifest [(js "parent_record", .null)])
            oneInsert)) := by
  have hvalid : validateManifest Platform.standard (finishedManifest []) = [] := by
    decide +kernel
  have hvalid' : validateManifest Platform.standard
      (finishedManifest [(js "parent_record", .null)]) = [] := by
    decide +kernel
  obtain ⟨hash, h⟩ : ∃ hash,
      computeManifestHash Platform.standard (finishedManifest []) oneInsert = .ok hash :=
    ⟨_, rfl⟩
  have h' : computeManifestHash Platform.standard
      (finishedManifest [(js "parent_record", .null)]) oneInsert = .ok hash := by
    rw [← h]
    rfl
  exact ⟨hash, h, recordHash_binding Platform.standard hvalid (by decide +kernel) hvalid'
    (by decide +kernel) h h'⟩

end Pmbah.Format
