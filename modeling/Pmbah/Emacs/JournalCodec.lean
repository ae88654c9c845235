import Pmbah.Emacs.JournalReader
import Pmbah.Library.OrderedMap

/-!
# The journal reads back

The worker writes one line for a valid event, and the line is short text
without a newline.  The reader gives back the events of any range between line
boundaries, however the file system cuts the range.
-/

namespace Pmbah.Emacs

open Js Format Library

variable {P : Platform}

/-! ## The text of a valid event -/

mutual

theorem stringify_eq_jsonText : ∀ (value : Json), integral value = true →
    stringify P value = jsonText P value
  | .null, _ => rfl
  | .bool _, _ => rfl
  | .num value, h => by
      obtain ⟨z, hz, -⟩ := (Option.any_eq_true _ _).1 h
      rw [JsNumber.eq_ofInt_of_toInt? hz]
      rfl
  | .str _, _ => rfl
  | .arr items, h => by
      rw [stringify, jsonText, stringifyItems_eq_itemTexts items h]
  | .obj fields, h => by
      rw [stringify, jsonText, stringifyFields_eq_fieldTexts fields h]

theorem stringifyItems_eq_itemTexts : ∀ (items : List Json), itemsIntegral items = true →
    stringifyItems P items = itemTexts P items
  | [], _ => rfl
  | item :: items, h => by
      rw [itemsIntegral, Bool.and_eq_true] at h
      rw [stringifyItems, itemTexts, stringify_eq_jsonText item h.1,
        stringifyItems_eq_itemTexts items h.2]

theorem stringifyFields_eq_fieldTexts : ∀ (fields : List (JsString × Json)),
    fieldsIntegral fields = true → stringifyFields P fields = fieldTexts P fields
  | [], _ => rfl
  | (key, value) :: fields, h => by
      rw [fieldsIntegral, Bool.and_eq_true] at h
      rw [stringifyFields, fieldTexts, stringify_eq_jsonText value h.1,
        stringifyFields_eq_fieldTexts fields h.2]

end

/-- Text below 128 without a newline, up to a length. -/
structure ShortText (bound : Nat) (text : JsString) : Prop where
  ascii : Ascii text
  noNewline : (10 : UInt16) ∉ text
  length_le : text.length ≤ bound

instance (bound : Nat) (text : JsString) : Decidable (ShortText bound text) :=
  decidable_of_iff ((∀ unit ∈ text, unit.toNat < 0x80) ∧ (10 : UInt16) ∉ text ∧
      text.length ≤ bound)
    ⟨fun h => ⟨h.1, h.2.1, h.2.2⟩, fun h => ⟨h.ascii, h.noNewline, h.length_le⟩⟩

theorem ShortText.append {m n : Nat} {first second : JsString} (h : ShortText m first)
    (h' : ShortText n second) : ShortText (m + n) (first ++ second) where
  ascii := ascii_append.2 ⟨h.ascii, h'.ascii⟩
  noNewline hten := (List.mem_append.1 hten).elim h.noNewline h'.noNewline
  length_le := by
    have := h.length_le
    have := h'.length_le
    rw [List.length_append]
    omega

theorem ShortText.mono {m n : Nat} {text : JsString} (h : ShortText m text) (hle : m ≤ n) :
    ShortText n text :=
  ⟨h.ascii, h.noNewline, h.length_le.trans hle⟩

theorem shortText_natText {n : Nat} (h : n ≤ maxTimeFieldValue) : ShortText 16 (natText n) where
  ascii := natText_ascii n
  noNewline := newline_not_mem_natText n
  length_le := by
    rw [natText, List.length_map, Nat.length_toDigits_le_iff (by decide) (by decide)]
    exact Nat.lt_of_le_of_lt h (by decide)

theorem shortText_joinWith {bound : Nat} {items : List JsString}
    (h : ∀ item ∈ items, ShortText bound item) :
    ShortText ((bound + 1) * items.length) (joinWith (js ",") items) := by
  induction items with
  | nil => exact ⟨fun _ hunit => (List.not_mem_nil hunit).elim, List.not_mem_nil, by simp [joinWith]⟩
  | cons item items ih =>
      have hitem := h item List.mem_cons_self
      have hrest := ih fun other hother => h other (List.mem_cons_of_mem item hother)
      rw [joinWith_cons, List.length_cons]
      by_cases hnil : items = []
      · rw [if_pos hnil, List.append_nil]
        apply hitem.mono
        rw [hnil]
        simp
      · rw [if_neg hnil]
        have hcomma : ShortText 1 (js ",") := by decide
        apply (hitem.append (hcomma.append hrest)).mono
        rw [Nat.mul_succ]
        omega

/-- A value that a valid event can have in a field. -/
inductive FieldValue : Json → Prop where
  | size (size : Option Nat) (h : ∀ n ∈ size, n ≤ maxTimeFieldValue) :
      FieldValue (natOrNull size)
  | op (op : Operation) : FieldValue (.str op.text)
  | source (source : Source) : FieldValue (.str source.text)

theorem FieldValue.shortText {value : Json} (h : FieldValue value) :
    ShortText 32 (jsonText P value) := by
  cases h with
  | size size hle =>
      cases size with
      | none =>
          show ShortText 32 (js "null")
          decide
      | some n =>
          have hn := hle n rfl
          have htext : jsonText P (natOrNull (some n)) = natText n := by
            have hdouble : integral (natOrNull (some n)) = true :=
              isDouble_of_safe (z := (n : Int)) hn
            rw [← stringify_eq_jsonText (P := P) (natOrNull (some n)) hdouble]
            exact stringify_ofNat P hn
          rw [htext]
          exact (shortText_natText hn).mono (by decide)
  | op op =>
      show ShortText 32 (stringifyString op.text)
      cases op <;> decide
  | source source =>
      show ShortText 32 (stringifyString source.text)
      cases source <;> decide

theorem FieldValue.integral {value : Json} (h : FieldValue value) :
    integral value = true := by
  cases h with
  | size size hle =>
      cases size with
      | none => rfl
      | some n => exact isDouble_of_safe (z := (n : Int)) (hle n rfl)
  | op op => rfl
  | source source => rfl

theorem maxInteger_le_maxTime : maxIntegerFieldValue ≤ maxTimeFieldValue := by decide

/-- What a field of an event that has been read holds. -/
theorem fieldValue_of_readsAs {fields : List (JsString × Json)} {event : BufferMutation}
    (hvalid : event.Valid) (hreads : ReadsAs (.obj fields) event)
    (hnodup : (fields.map Prod.fst).Nodup) {key : JsString} {value : Json}
    (hmem : (key, value) ∈ fields) : key ∈ eventKeys ∧ FieldValue value := by
  have hkey : key ∈ eventKeys := hreads.known key (List.mem_map_of_mem (f := Prod.fst) hmem)
  have hfield : (Json.obj fields).field key = some value :=
    (lookup_eq_some_iff_mem hnodup).2 hmem
  refine ⟨hkey, ?_⟩
  simp only [eventKeys, List.mem_cons, List.not_mem_nil, or_false] at hkey
  rcases hkey with rfl | rfl | rfl | rfl | rfl | rfl | rfl
  · rw [hreads.seq, Option.some.injEq] at hfield
    rw [← hfield]
    exact .size (some event.seq) fun n hn => by
      cases hn
      exact hvalid.seq_le.trans maxInteger_le_maxTime
  · rw [hreads.t, Option.some.injEq] at hfield
    rw [← hfield]
    exact .size (some event.t) fun n hn => by
      cases hn
      exact hvalid.t_le
  · rw [hreads.op, Option.some.injEq] at hfield
    rw [← hfield]
    exact .op event.op
  · rw [hreads.pos, Option.some.injEq] at hfield
    rw [← hfield]
    exact .size event.pos fun n hn => (hvalid.pos_le n hn).trans maxInteger_le_maxTime
  · rw [hreads.delLen, Option.some.injEq] at hfield
    rw [← hfield]
    exact .size event.delLen fun n hn => (hvalid.delLen_le n hn).trans maxInteger_le_maxTime
  · rw [hreads.insLen, Option.some.injEq] at hfield
    rw [← hfield]
    exact .size event.insLen fun n hn => (hvalid.insLen_le n hn).trans maxInteger_le_maxTime
  · rw [hreads.source, Option.some.injEq] at hfield
    rw [← hfield]
    exact .source event.source

theorem shortText_key : ∀ key ∈ eventKeys, ShortText 9 (stringifyString key) := by decide

theorem shortText_fieldTexts {fields : List (JsString × Json)}
    (h : ∀ field ∈ fields, field.1 ∈ eventKeys ∧ FieldValue field.2) :
    ∀ text ∈ fieldTexts P fields, ShortText 42 text := by
  induction fields with
  | nil => exact fun text htext => (List.not_mem_nil htext).elim
  | cons field fields ih =>
      obtain ⟨key, value⟩ := field
      have hfield := h (key, value) List.mem_cons_self
      have hcolon : ShortText 1 (js ":") := by decide
      intro text htext
      rw [fieldTexts, List.mem_cons] at htext
      rcases htext with rfl | htext
      · exact ((shortText_key key hfield.1).append hcolon).append hfield.2.shortText
      · exact ih (fun other hother => h other (List.mem_cons_of_mem _ hother)) text htext

theorem length_fieldTexts (fields : List (JsString × Json)) :
    (fieldTexts P fields).length = fields.length := by
  induction fields with
  | nil => rfl
  | cons field fields ih => rw [fieldTexts, List.length_cons, ih, List.length_cons]

theorem fieldsIntegral_of_fieldValue {fields : List (JsString × Json)}
    (h : ∀ field ∈ fields, FieldValue field.2) : fieldsIntegral fields = true := by
  induction fields with
  | nil => rfl
  | cons field fields ih =>
      obtain ⟨key, value⟩ := field
      rw [fieldsIntegral, (h (key, value) List.mem_cons_self).integral,
        ih fun other hother => h other (List.mem_cons_of_mem _ hother)]
      rfl

/-- An event that the worker accepts. -/
structure ValidEvent (P : Platform) (event : Json) : Prop where
  accepted : validateEvent P event none = .ok []
  formed : event.wellFormed = true

theorem validEvent_toJson {mutation : BufferMutation} (h : mutation.Valid) :
    ValidEvent P mutation.toJson where
  accepted := validateEvent_eq_nil.2 ⟨mutation, h, readsAs_toJson mutation, nofun⟩
  formed := by
    cases mutation with
    | mk seq t op pos delLen insLen source =>
        cases pos <;> cases delLen <;> cases insLen <;> rfl

theorem ValidEvent.fields {event : Json} (h : ValidEvent P event) :
    ∃ fields, event = .obj fields ∧ (fields.map Prod.fst).Nodup ∧
      ∀ field ∈ fields, field.1 ∈ eventKeys ∧ FieldValue field.2 := by
  obtain ⟨mutation, hvalid, hreads, -⟩ := validateEvent_eq_nil.1 h.accepted
  have hobject := hreads.isObject
  have hnodup := Json.nodup_keys_of_wellFormed h.formed
  cases event with
  | obj fields =>
      refine ⟨fields, rfl, hnodup, ?_⟩
      intro field hfield
      obtain ⟨key, value⟩ := field
      exact fieldValue_of_readsAs hvalid hreads hnodup hfield
  | _ => cases hobject

theorem ValidEvent.integral {event : Json} (h : ValidEvent P event) :
    integral event = true := by
  obtain ⟨fields, rfl, -, hfields⟩ := h.fields
  exact fieldsIntegral_of_fieldValue fun field hfield => (hfields field hfield).2

/-- The line of a valid event is short text. -/
theorem ValidEvent.shortText {event : Json} (h : ValidEvent P event) :
    ShortText 303 (stringify P event) := by
  obtain ⟨fields, rfl, hnodup, hfields⟩ := h.fields
  have hcount : fields.length ≤ 7 := by
    have hsubset : fields.map Prod.fst ⊆ eventKeys := by
      intro key hkey
      obtain ⟨field, hfield, rfl⟩ := List.mem_map.1 hkey
      exact (hfields field hfield).1
    have hlength := (List.subperm_of_subset hnodup hsubset).length_le
    rw [List.length_map] at hlength
    exact hlength
  have htexts := shortText_joinWith (shortText_fieldTexts (P := P) hfields)
  rw [length_fieldTexts] at htexts
  have hopen : ShortText 1 (js "\x7b") := by decide
  have hclose : ShortText 1 (js "\x7d") := by decide
  rw [stringify_eq_jsonText _ h.integral, jsonText]
  apply ((hopen.append htexts).append hclose).mono
  omega

/-! ## Lines -/

/-- A line that the reader takes for the value. -/
structure LineReads (numbers : NumberSyntax P) (line : List UInt8) (value : Json) : Prop where
  noNewline : (10 : UInt8) ∉ line
  length_le : line.length ≤ maxLineBytes
  parsed : parseLine numbers line = some value

/-- The bytes of lines that each end in a newline. -/
def lineBytes (lines : List (List UInt8)) : List UInt8 :=
  lines.flatMap fun line => line ++ [10]

/-- The items of lines from an offset on. -/
def lineItems : List (List UInt8) → List Json → Nat → List JournalItem
  | line :: lines, event :: events, offset =>
      ⟨event, offset, offset + line.length + 1⟩ ::
        lineItems lines events (offset + line.length + 1)
  | _, _, _ => []

theorem lineBytes_cons (line : List UInt8) (lines : List (List UInt8)) (more : List UInt8) :
    lineBytes (line :: lines) ++ more = line ++ 10 :: (lineBytes lines ++ more) := by
  simp [lineBytes]

theorem length_lineBytes_cons (line : List UInt8) (lines : List (List UInt8)) :
    (lineBytes (line :: lines)).length = line.length + 1 + (lineBytes lines).length := by
  simp only [lineBytes, List.flatMap_cons, List.length_append, List.length_singleton]

/-- Complete lines are read one for one, and then the bytes behind them. -/
theorem completeLines_lines (numbers : NumberSyntax P) {lines : List (List UInt8)}
    {values : List Json} (h : List.Forall₂ (LineReads numbers) lines values)
    (rest : List UInt8) (offset : Nat) :
    completeLines numbers (lineBytes lines ++ rest) offset =
      (lineItems lines values offset ++
          (completeLines numbers rest (offset + (lineBytes lines).length)).1,
        (completeLines numbers rest (offset + (lineBytes lines).length)).2) := by
  induction h generalizing offset with
  | nil => rfl
  | @cons line value lines values hline _ ih =>
      have hend : offset + line.length + 1 + (lineBytes lines).length =
          offset + (line.length + 1 + (lineBytes lines).length) := by omega
      rw [lineBytes_cons, completeLines_line numbers hline.noNewline,
        if_neg (Nat.not_lt.2 hline.length_le), hline.parsed, length_lineBytes_cons]
      show (_ :: (completeLines numbers _ _).1, (completeLines numbers _ _).2) = _
      rw [ih, lineItems, hend]
      rfl

theorem readAll_lines (numbers : NumberSyntax P) {lines : List (List UInt8)}
    {values : List Json} (h : List.Forall₂ (LineReads numbers) lines values)
    (rest : List UInt8) (offset : Nat) :
    readAll numbers (lineBytes lines ++ rest) offset =
      ⟨lineItems lines values offset ++
          (readAll numbers rest (offset + (lineBytes lines).length)).items,
        (readAll numbers rest (offset + (lineBytes lines).length)).outcome⟩ := by
  rw [readAll_eq, completeLines_lines numbers h, finishReading_append, ← readAll_eq]

/-- Complete lines of bytes that a reader takes, and the bytes behind them. -/
structure Consumed (numbers : NumberSyntax P) (bytes : List UInt8)
    (lines : List (List UInt8)) (values : List Json) (rest : List UInt8) : Prop where
  bytes_eq : bytes = lineBytes lines ++ rest
  reads : List.Forall₂ (LineReads numbers) lines values

theorem Consumed.nil (numbers : NumberSyntax P) (bytes : List UInt8) :
    Consumed numbers bytes [] [] bytes :=
  ⟨rfl, .nil⟩

theorem Consumed.cons {numbers : NumberSyntax P} {bytes line rest : List UInt8} {value : Json}
    {lines : List (List UInt8)} {values : List Json}
    (h : Consumed numbers bytes lines values rest) (hline : LineReads numbers line value) :
    Consumed numbers (line ++ 10 :: bytes) (line :: lines) (value :: values) rest :=
  ⟨by rw [lineBytes_cons, h.bytes_eq], .cons hline h.reads⟩

/-- The first items of a buffer are those of its first lines. -/
theorem completeLines_take (numbers : NumberSyntax P) (bytes : List UInt8) (offset n : Nat) :
    ∃ lines values rest, Consumed numbers bytes lines values rest ∧
      (completeLines numbers bytes offset).1.take n = lineItems lines values offset := by
  induction bytes using lines_induction generalizing offset n with
  | tail bytes h =>
      refine ⟨[], [], bytes, Consumed.nil numbers bytes, ?_⟩
      rw [completeLines_tail numbers h, List.take_nil, lineItems]
      exact fun _ _ _ _ hnil => by cases hnil
  | line line rest h ih =>
      have hnone : ∃ lines values left, Consumed numbers (line ++ 10 :: rest) lines values left ∧
          ([] : List JournalItem) = lineItems lines values offset :=
        ⟨[], [], _, Consumed.nil numbers _, rfl⟩
      rw [completeLines_line numbers h]
      by_cases hlong : maxLineBytes < line.length
      · rw [if_pos hlong, List.take_nil]
        exact hnone
      · rw [if_neg hlong]
        cases hparsed : parseLine numbers line with
        | none =>
            rw [List.take_nil]
            exact hnone
        | some event =>
            cases n with
            | zero => exact hnone
            | succ n =>
                obtain ⟨lines, values, left, hconsumed, hitems⟩ :=
                  ih (offset + line.length + 1) n
                refine ⟨line :: lines, event :: values, left,
                  hconsumed.cons ⟨h, Nat.not_lt.1 hlong, hparsed⟩, ?_⟩
                rw [List.take_succ_cons, hitems]
                rfl

/-- A buffer without a bad line is complete lines and bytes without a newline. -/
theorem completeLines_ok (numbers : NumberSyntax P) {bytes rest : List UInt8}
    {offset after : Nat} {items : List JournalItem}
    (h : completeLines numbers bytes offset = (items, .ok (rest, after))) :
    ∃ lines values, Consumed numbers bytes lines values rest ∧ (10 : UInt8) ∉ rest ∧
      items = lineItems lines values offset ∧
      after = offset + (lineBytes lines).length := by
  induction bytes using lines_induction generalizing offset items with
  | tail bytes hbytes =>
      rw [completeLines_tail numbers hbytes, Prod.mk.injEq, Except.ok.injEq,
        Prod.mk.injEq] at h
      obtain ⟨rfl, rfl, rfl⟩ := h
      exact ⟨[], [], Consumed.nil numbers bytes, hbytes, rfl, rfl⟩
  | line line more hline ih =>
      rw [completeLines_line numbers hline] at h
      split at h
      · cases h
      · rename_i hshort
        split at h
        · cases h
        · rename_i event hparsed
          rw [Prod.mk.injEq] at h
          obtain ⟨lines, values, hconsumed, hrest, hitems, hafter⟩ :=
            ih (Prod.ext rfl h.2)
          refine ⟨line :: lines, event :: values,
            hconsumed.cons ⟨hline, Nat.not_lt.1 hshort, hparsed⟩, hrest, ?_, ?_⟩
          · rw [← h.1]
            exact congrArg (List.cons _) hitems
          · rw [hafter, length_lineBytes_cons]
            omega

theorem lineItems_last {lines : List (List UInt8)} {values : List Json}
    (h : lines.length = values.length) (offset : Nat) :
    ((lineItems lines values offset).getLast?.map JournalItem.endByte).getD offset =
      offset + (lineBytes lines).length := by
  induction lines generalizing values offset with
  | nil => rfl
  | cons line lines ih =>
      cases values with
      | nil => cases h
      | cons value values =>
          have hrest := ih (Nat.succ.inj h) (offset + line.length + 1)
          rw [lineItems, List.getLast?_cons, length_lineBytes_cons, ← Nat.add_assoc,
            ← Nat.add_assoc, ← hrest]
          cases (lineItems lines values (offset + line.length + 1)).getLast? <;> rfl

theorem lineItems_event {lines : List (List UInt8)} {values : List Json}
    (h : lines.length = values.length) (offset : Nat) :
    (lineItems lines values offset).map JournalItem.event = values := by
  induction lines generalizing values offset with
  | nil =>
      cases values with
      | nil => rfl
      | cons value values => cases h
  | cons line lines ih =>
      cases values with
      | nil => cases h
      | cons value values =>
          rw [lineItems, List.map_cons, ih (Nat.succ.inj h)]

/-- The line that the worker writes for an event, without its newline. -/
def eventBytes (P : Platform) (event : Json) : List UInt8 := utf8ToBytes (stringify P event)

theorem ValidEvent.journalLine_eq {event : Json} (h : ValidEvent P event) :
    journalLine P event = eventBytes P event ++ [10] := by
  rw [journalLine, utf8ToBytes_append h.shortText.ascii (by decide)]
  rfl

theorem ValidEvent.lineReads (numbers : NumberSyntax P) {event : Json}
    (h : ValidEvent P event) : LineReads numbers (eventBytes P event) event where
  noNewline hten := by
    rw [eventBytes, utf8ToBytes_of_ascii h.shortText.ascii, List.mem_map] at hten
    obtain ⟨unit, hunit, hbyte⟩ := hten
    have hascii := h.shortText.ascii unit hunit
    have hnat := congrArg UInt8.toNat hbyte
    rw [UInt8.toNat_ofNat', Nat.mod_eq_of_lt (by omega)] at hnat
    have hsame : unit = 10 := UInt16.toNat_inj.mp hnat
    exact h.shortText.noNewline (hsame ▸ hunit)
  length_le := by
    rw [eventBytes, length_utf8ToBytes h.shortText.ascii]
    exact h.shortText.length_le.trans (by decide)
  parsed := by
    rw [parseLine, eventBytes, decodeUtf8_utf8ToBytes h.shortText.ascii,
      stringify_eq_jsonText event h.integral]
    exact jsonParse_jsonText numbers h.integral h.formed

theorem ValidEvent.lineReads_map (numbers : NumberSyntax P) {events : List Json}
    (h : ∀ event ∈ events, ValidEvent P event) :
    List.Forall₂ (LineReads numbers) (events.map (eventBytes P)) events := by
  rw [List.forall₂_map_left_iff, List.forall₂_same]
  exact fun event hevent => (h event hevent).lineReads numbers

/-- What the worker has written for events. -/
def writtenLines (P : Platform) (events : List Json) : List UInt8 :=
  events.flatMap (journalLine P)

theorem writtenLines_eq {events : List Json} (h : ∀ event ∈ events, ValidEvent P event) :
    writtenLines P events = lineBytes (events.map (eventBytes P)) := by
  rw [writtenLines, lineBytes, List.flatMap_map]
  exact List.flatMap_congr fun event hevent => (h event hevent).journalLine_eq

/-- The items of events from an offset on. -/
def eventItems (P : Platform) : List Json → Nat → List JournalItem
  | [], _ => []
  | event :: events, offset =>
      ⟨event, offset, offset + (journalLine P event).length⟩ ::
        eventItems P events (offset + (journalLine P event).length)

theorem eventItems_eq {events : List Json} (h : ∀ event ∈ events, ValidEvent P event)
    (offset : Nat) :
    eventItems P events offset = lineItems (events.map (eventBytes P)) events offset := by
  induction events generalizing offset with
  | nil => rfl
  | cons event events ih =>
      have hline := (h event List.mem_cons_self).journalLine_eq
      rw [eventItems, List.map_cons, lineItems, hline, List.length_append,
        ih fun other hother => h other (List.mem_cons_of_mem event hother)]
      rfl

/-- The events of a journal are read one for one, and the bytes behind them are left. -/
theorem readAll_journal (numbers : NumberSyntax P) {events : List Json}
    (h : ∀ event ∈ events, ValidEvent P event) {tail : List UInt8}
    (htail : (10 : UInt8) ∉ tail) (hshort : tail.length ≤ maxLineBytes) (offset : Nat) :
    readAll numbers (writtenLines P events ++ tail) offset =
      ⟨eventItems P events offset,
        .ok (if tail.isEmpty then none else some (offset + (writtenLines P events).length))⟩ := by
  rw [writtenLines_eq h, readAll_lines numbers (ValidEvent.lineReads_map numbers h),
    readAll_eq, completeLines_tail numbers htail, eventItems_eq h]
  simp only [finishReading, if_neg (Nat.not_lt.2 hshort), List.append_nil]

/-- The bytes of a journal up to an end. -/
def bytesUpTo (file : List UInt8) : Option Nat → List UInt8
  | none => file
  | some stop => file.take stop

theorem readAll_nil (numbers : NumberSyntax P) (offset : Nat) :
    readAll numbers [] offset = ⟨[], .ok none⟩ := by
  rw [readAll_eq, completeLines_tail numbers List.not_mem_nil]
  rfl

/-- A reading depends on the bytes of the range alone. -/
theorem journalEvents_eq (numbers : NumberSyntax P) (cuts : ReadCuts) (file : List UInt8)
    {startByte : Nat} (hstart : startByte ≤ maxSafeInteger) {endByte : Option Nat}
    (hend : ∀ stop ∈ endByte, stop ≤ maxSafeInteger ∧ startByte ≤ stop) :
    journalEvents numbers cuts file startByte endByte =
      readAll numbers ((bytesUpTo file endByte).drop startByte) startByte := by
  have hrange : (endByte.any fun stop =>
      decide (maxSafeInteger < stop ∨ stop < startByte)) = false := by
    cases endByte with
    | none => rfl
    | some stop =>
        have := hend stop rfl
        simp only [Option.any_some, decide_eq_false_iff_not]
        omega
  unfold journalEvents
  rw [if_neg (Nat.not_lt.2 hstart), hrange, if_neg Bool.false_ne_true]
  by_cases hempty : endByte = some startByte
  · have hnil : (bytesUpTo file endByte).drop startByte = [] := by
      rw [hempty, List.drop_eq_nil_iff]
      exact List.length_take_le ..
    rw [if_pos hempty, hnil, readAll_nil]
  · rw [if_neg hempty, readChunks_eq numbers _ List.not_mem_nil (Nat.zero_le _),
      cuts.flatten_cut, List.nil_append]
    rfl

/-- How a file system cuts what it delivers does not matter. -/
theorem journalEvents_cuts (numbers : NumberSyntax P) (cuts cuts' : ReadCuts)
    (file : List UInt8) (startByte : Nat) (endByte : Option Nat) :
    journalEvents numbers cuts file startByte endByte =
      journalEvents numbers cuts' file startByte endByte := by
  unfold journalEvents
  rw [readChunks_eq numbers _ List.not_mem_nil (Nat.zero_le _),
    readChunks_eq numbers _ List.not_mem_nil (Nat.zero_le _), cuts.flatten_cut,
    cuts'.flatten_cut]

/-- Where the line of an event starts, and where that of the event before it ends. -/
def boundary (P : Platform) (events : List Json) (index : Nat) : Nat :=
  (writtenLines P (events.take index)).length

theorem writtenLines_append (events more : List Json) :
    writtenLines P (events ++ more) = writtenLines P events ++ writtenLines P more :=
  List.flatMap_append

theorem writtenLines_range (events : List Json) {i j : Nat} (h : i ≤ j) :
    writtenLines P (events.take j) =
      writtenLines P (events.take i) ++ writtenLines P ((events.take j).drop i) := by
  rw [← writtenLines_append]
  congr 1
  have htake : events.take i = (events.take j).take i := by
    rw [List.take_take, Nat.min_eq_left h]
  rw [htake, List.take_append_drop]

/-- The events of every range between line boundaries are read, with their places and without
the bytes behind the last newline; and no cut of any stream changes what is read. -/
theorem journalEvents_roundTrip (numbers : NumberSyntax P) (cuts : ReadCuts)
    {events : List Json} (h : ∀ event ∈ events, ValidEvent P event) {tail : List UInt8}
    (htail : (10 : UInt8) ∉ tail) (hshort : tail.length ≤ maxLineBytes)
    (hsize : (writtenLines P events ++ tail).length ≤ maxSafeInteger) :
    (∀ i j, i ≤ j → j ≤ events.length →
      journalEvents numbers cuts (writtenLines P events ++ tail) (boundary P events i)
          (some (boundary P events j)) =
        ⟨eventItems P ((events.take j).drop i) (boundary P events i), .ok none⟩) ∧
    (∀ i, i ≤ events.length →
      journalEvents numbers cuts (writtenLines P events ++ tail) (boundary P events i) none =
        ⟨eventItems P (events.drop i) (boundary P events i),
          .ok (if tail.isEmpty then none else some (writtenLines P events).length)⟩) ∧
    (∀ (cuts' : ReadCuts) (stream : List UInt8) (startByte : Nat) (endByte : Option Nat),
      journalEvents numbers cuts stream startByte endByte =
        journalEvents numbers cuts' stream startByte endByte) := by
  have hbound : ∀ i, boundary P events i ≤ maxSafeInteger := by
    intro i
    have hsplit : writtenLines P events =
        writtenLines P (events.take i) ++ writtenLines P (events.drop i) := by
      rw [← writtenLines_append, List.take_append_drop]
    rw [hsplit, List.length_append, List.length_append] at hsize
    show (writtenLines P (events.take i)).length ≤ maxSafeInteger
    omega
  refine ⟨?_, ?_, ?_⟩
  · intro i j hij hj
    have hstop : boundary P events i ≤ boundary P events j := by
      rw [boundary, boundary, writtenLines_range events hij, List.length_append]
      omega
    have htake : (writtenLines P events ++ tail).take (boundary P events j) =
        writtenLines P (events.take j) := by
      have hsplit : writtenLines P events ++ tail =
          writtenLines P (events.take j) ++ (writtenLines P (events.drop j) ++ tail) := by
        rw [← List.append_assoc, ← writtenLines_append, List.take_append_drop]
      rw [hsplit]
      exact List.take_left
    have hvalid : ∀ event ∈ (events.take j).drop i, ValidEvent P event :=
      fun event hevent => h event (List.mem_of_mem_take (List.mem_of_mem_drop hevent))
    have hread := readAll_journal numbers hvalid List.not_mem_nil (Nat.zero_le _)
      (boundary P events i)
    rw [List.append_nil] at hread
    rw [journalEvents_eq numbers cuts _ (hbound i) (by
      intro stop heq
      cases heq
      exact ⟨hbound j, hstop⟩)]
    show readAll numbers (((writtenLines P events ++ tail).take (boundary P events j)).drop
      (boundary P events i)) _ = _
    rw [htake, writtenLines_range events hij, boundary, List.drop_left]
    exact hread
  · intro i hi
    rw [journalEvents_eq numbers cuts _ (hbound i) (by
      intro stop heq
      cases heq)]
    have hdrop : (writtenLines P events ++ tail).drop (boundary P events i) =
        writtenLines P (events.drop i) ++ tail := by
      have hsplit : writtenLines P events ++ tail =
          writtenLines P (events.take i) ++ (writtenLines P (events.drop i) ++ tail) := by
        rw [← List.append_assoc, ← writtenLines_append, List.take_append_drop]
      rw [hsplit]
      exact List.drop_left
    have hend : boundary P events i + (writtenLines P (events.drop i)).length =
        (writtenLines P events).length := by
      rw [boundary, ← List.length_append, ← writtenLines_append, List.take_append_drop]
    show readAll numbers ((writtenLines P events ++ tail).drop (boundary P events i)) _ = _
    rw [hdrop, readAll_journal numbers (fun event hevent => h event (List.mem_of_mem_drop hevent))
      htail hshort, hend]
  · intro cuts' stream startByte endByte
    exact journalEvents_cuts numbers cuts cuts' stream startByte endByte

/-- A stream that delivers one byte at a time. -/
def byteCuts : ReadCuts where
  cut bytes := bytes.map fun byte => [byte]
  flatten_cut bytes := by
    induction bytes with
    | nil => rfl
    | cons byte bytes ih => rw [List.map_cons, List.flatten_cons, ih]; rfl

def firstInsert : BufferMutation := ⟨0, 5, .insert, some 0, some 0, some 1, .typing⟩

theorem firstInsert_valid : firstInsert.Valid where
  seq_le := by decide
  t_le := by decide
  pos_le := by decide
  delLen_le := by decide
  insLen_le := by decide
  sizes := by decide

/-- One event and the start of another line. -/
theorem journalEvents_roundTrip_firstInsert :
    journalEvents decimalSyntax byteCuts
        (writtenLines decimalPlatform [firstInsert.toJson] ++ [123, 34]) 0 none =
      ⟨eventItems decimalPlatform [firstInsert.toJson] 0,
        .ok (some (writtenLines decimalPlatform [firstInsert.toJson]).length)⟩ := by
  have hevents : ∀ event ∈ [firstInsert.toJson], ValidEvent decimalPlatform event := by
    intro event hevent
    rw [List.mem_singleton.1 hevent]
    exact validEvent_toJson firstInsert_valid
  have htail : (10 : UInt8) ∉ [123, 34] := by decide
  have hround := journalEvents_roundTrip decimalSyntax byteCuts hevents htail (by decide)
    (by decide +kernel)
  exact hround.2.1 0 (by decide)

end Pmbah.Emacs
