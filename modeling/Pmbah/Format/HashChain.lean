import Pmbah.Format.Event
import Pmbah.Library.HashChain

/-!
# Event chain and record hash

The functions take JSON values as the source does.  `eventScheme` is the same
chain over events that have been read, and the specification lemmas say when
each function returns and what.
-/

namespace Pmbah.Format

open Js Library

/-- 0.3 preserves 0.2 event commitments and adds a separate finalization seal. -/
def eventChainFormatVersion : FormatVersion → FormatVersion
  | .v0_3 => .v0_2
  | version => version

/-- The bytes before the first event. -/
def chainStart (sessionId : JsString) (version : FormatVersion) : List UInt8 :=
  utf8ToBytes (eventChainFormatVersion version).text ++ utf8ToBytes sessionId

/-- Advance one event commitment without retaining history. -/
def advanceEventHash (P : Platform) (previousTip : Option B3Hash) (event : Json)
    (sessionId : JsString) (version : FormatVersion) : Except JsError B3Hash :=
  match assertValidEvent P event with
  | .error thrown => .error thrown
  | .ok () =>
      if !isUuid sessionId then
        .error (.typeError (js "session_id must be a lowercase UUIDv4 string"))
      else if previousTip.isNone !=
          (Json.number? (event.field (js "seq")) == some (.ofNat 0)) then
        .error (.typeError (js "event chain boundary disagrees with sequence"))
      else
        (canonicalizeEventBytes P event).map fun bytes =>
          P.blake3 ((match previousTip with
            | none => chainStart sessionId version
            | some tip => tip.bytes) ++ bytes)

def eventChainFrom (P : Platform) (sessionId : JsString) (version : FormatVersion) :
    Option B3Hash → List Json → Except JsError (List B3Hash)
  | _, [] => .ok []
  | previous, event :: events =>
      match advanceEventHash P previous event sessionId version with
      | .error thrown => .error thrown
      | .ok tip =>
          (eventChainFrom P sessionId version (some tip) events).map fun chain => tip :: chain

def computeEventHashChain (P : Platform) (events : List Json) (sessionId : JsString)
    (version : FormatVersion) : Except JsError (List B3Hash) :=
  match assertNonEmptyEventLog events with
  | .error thrown => .error thrown
  | .ok () =>
      match assertValidEventLog P events with
      | .error thrown => .error thrown
      | .ok () => eventChainFrom P sessionId version none events

/-- The values of a manifest that a 0.3 seal covers beside the event tip. -/
structure Finalization where
  durationMs : Option Json
  parentRecord : Option Json

def finalizationErrors (textBinding : Option Json) (finalization : Finalization) :
    List JsString :=
  validateElapsedMilliseconds finalization.durationMs (js "duration_ms") ++
    require (isAbsentOrNull finalization.parentRecord || isB3Hash finalization.parentRecord)
      (js "parent_record must be a b3: hash or null") ++
    (textBinding.map validateTextBinding).getD []

/-- Seal an already validated event prefix. -/
def sealRecordHash (P : Platform) (eventTip : B3Hash) (version : FormatVersion)
    (textBinding : Option Json) (finalization : Finalization) : Except JsError B3Hash :=
  match version with
  | .v0_3 =>
      match throwErrors (finalizationErrors textBinding finalization) with
      | .error thrown => .error thrown
      | .ok () =>
          (canonicalizeJson P (.ofFields [(js "format_version", some (.str (js "0.3"))),
            (js "duration_ms", finalization.durationMs),
            (js "parent_record", some (Json.orNull finalization.parentRecord)),
            (js "text_binding", some (Json.orNull textBinding))])).map fun text =>
              P.blake3 (eventTip.bytes ++ utf8ToBytes text)
  | .v0_1 => .ok eventTip
  | .v0_2 =>
      match textBinding with
      | none => .ok eventTip
      | some binding =>
          (canonicalizeTextBinding P binding).map fun text =>
            P.blake3 (eventTip.bytes ++ utf8ToBytes text)

/-- The last element of a chain that has been computed. -/
def lastTip : List B3Hash → Except JsError B3Hash
  | chain => match chain.getLast? with
    | none => .error (.typeError (js "expected a non-empty array"))
    | some tip => .ok tip

def computeRecordHash (P : Platform) (events : List Json) (sessionId : JsString)
    (version : FormatVersion) (textBinding : Option Json) (finalization : Finalization) :
    Except JsError B3Hash :=
  match computeEventHashChain P events sessionId version with
  | .error thrown => .error thrown
  | .ok chain =>
      match lastTip chain with
      | .error thrown => .error thrown
      | .ok eventTip => sealRecordHash P eventTip version textBinding finalization

/-! ## Logs that validate -/

/-- The values carry the events, one for one. -/
abbrev ReadsAsLog (values : List Json) (events : List BufferMutation) : Prop :=
  List.Forall₂ ReadsAs values events

theorem readsAsLog_toJson (events : List BufferMutation) :
    ReadsAsLog (events.map BufferMutation.toJson) events := by
  induction events with
  | nil => exact .nil
  | cons event events ih => exact .cons (readsAs_toJson event) ih

theorem ReadsAsLog.map_readEvent {values : List Json} {events : List BufferMutation}
    (h : ReadsAsLog values events) : values.map readEvent = events := by
  induction h with
  | nil => rfl
  | cons hvalue _ ih => rw [List.map_cons, readEvent_of_readsAs hvalue, ih]

theorem readsAsLog_concat {values : List Json} {value : Json} {events : List BufferMutation}
    (h : ReadsAsLog (values ++ [value]) events) :
    ∃ events' event, events = events' ++ [event] ∧ ReadsAs value event ∧
      ReadsAsLog values events' := by
  induction values generalizing events with
  | nil =>
      obtain ⟨event, rest, hevent, hnil, rfl⟩ := List.forall₂_cons_left_iff.1 h
      rw [List.forall₂_nil_left_iff.1 hnil]
      exact ⟨[], event, rfl, hevent, .nil⟩
  | cons head values ih =>
      obtain ⟨first, rest, hfirst, hrest, rfl⟩ := List.forall₂_cons_left_iff.1 h
      obtain ⟨events', event, rfl, hevent, hfront⟩ := ih hrest
      exact ⟨first :: events', event, rfl, hevent, .cons hfirst hfront⟩

/-- A log that continues at an index, no earlier than a time. -/
def ValidFrom : Nat → Int → List BufferMutation → Prop
  | _, _, [] => True
  | index, previousT, event :: events =>
      event.Valid ∧ event.seq = index ∧ previousT ≤ event.t ∧
        ValidFrom (index + 1) event.t events

theorem validFrom_mono {index : Nat} {s t : Int} {events : List BufferMutation}
    (hst : s ≤ t) (h : ValidFrom index t events) : ValidFrom index s events := by
  cases events with
  | nil => trivial
  | cons event events => exact ⟨h.1, h.2.1, hst.trans h.2.2.1, h.2.2.2⟩

theorem validFrom_iff {index : Nat} {previousT : Int} {events : List BufferMutation} :
    ValidFrom index previousT events ↔
      (∀ event ∈ events, event.Valid) ∧
        (∀ (i : Nat) (event : BufferMutation), events[i]? = some event →
          event.seq = index + i) ∧
        (∀ event ∈ events, previousT ≤ event.t) ∧
        events.Pairwise fun earlier later => earlier.t ≤ later.t := by
  induction events generalizing index previousT with
  | nil => simp [ValidFrom]
  | cons event events ih =>
      rw [ValidFrom, ih]
      constructor
      · rintro ⟨hvalid, hseq, ht, hvalids, hseqs, hts, hsorted⟩
        refine ⟨by simpa using ⟨hvalid, hvalids⟩, ?_, ?_, ?_⟩
        · intro i other hi
          cases i with
          | zero =>
              simp only [List.getElem?_cons_zero, Option.some.injEq] at hi
              rw [← hi, hseq, Nat.add_zero]
          | succ i =>
              have := hseqs i other (by simpa using hi)
              omega
        · intro other hother
          rcases List.mem_cons.1 hother with rfl | hother
          · exact ht
          · have := hts other hother
            omega
        · exact List.pairwise_cons.2 ⟨fun other hother => by
            have := hts other hother
            omega, hsorted⟩
      · rintro ⟨hvalids, hseqs, hts, hsorted⟩
        rw [List.pairwise_cons] at hsorted
        refine ⟨hvalids event (by simp), ?_, hts event (by simp),
          fun other hother => hvalids other (by simp [hother]), ?_, ?_, hsorted.2⟩
        · simpa using hseqs 0 event (by simp)
        · intro i other hi
          have := hseqs (i + 1) other (by simpa using hi)
          omega
        · intro other hother
          have := hsorted.1 other hother
          omega

theorem validLog_iff_validFrom {events : List BufferMutation} :
    ValidLog events ↔ ValidFrom 0 (-1) events := by
  rw [validFrom_iff]
  constructor
  · rintro ⟨hvalid, hseq, hsorted⟩
    exact ⟨hvalid, fun i event hi => by simpa using hseq i event hi,
      fun event _ => by omega, hsorted⟩
  · rintro ⟨hvalid, hseq, -, hsorted⟩
    exact ⟨hvalid, fun i event hi => by simpa using hseq i event hi, hsorted⟩

/-- What one more event must be. -/
theorem validLog_concat {events : List BufferMutation} {event : BufferMutation} :
    ValidLog (events ++ [event]) ↔
      ValidLog events ∧ event.Valid ∧ event.seq = events.length ∧
        ∀ last ∈ events.getLast?, last.t ≤ event.t := by
  have hlast : events.Pairwise (fun earlier later => earlier.t ≤ later.t) →
      ((∀ earlier ∈ events, earlier.t ≤ event.t) ↔
        ∀ last ∈ events.getLast?, last.t ≤ event.t) := by
    intro hsorted
    induction events using List.reverseRecOn with
    | nil => simp
    | append_singleton events last _ =>
        simp only [List.getLast?_concat, Option.mem_some_iff, forall_eq']
        constructor
        · exact fun h => h last (by simp)
        · intro h earlier hearlier
          rcases List.mem_append.1 hearlier with hearlier | hearlier
          · exact ((List.pairwise_append.1 hsorted).2.2 earlier hearlier last (by simp)).trans h
          · rw [List.mem_singleton.1 hearlier]
            exact h
  constructor
  · rintro ⟨hvalid, hseq, hsorted⟩
    obtain ⟨hfront, -, hcross⟩ := List.pairwise_append.1 hsorted
    refine ⟨⟨fun e he => hvalid e (by simp [he]), fun i e hi => hseq i e ?_, hfront⟩,
      hvalid event (by simp), ?_, (hlast hfront).1 fun e he => hcross e he event (by simp)⟩
    · rw [List.getElem?_append_left (List.getElem?_eq_some_iff.1 hi).1, hi]
    · exact hseq events.length event (by simp)
  · rintro ⟨⟨hvalid, hseq, hsorted⟩, hevent, hat, htime⟩
    refine ⟨?_, ?_, ?_⟩
    · intro e he
      rcases List.mem_append.1 he with he | he
      · exact hvalid e he
      · rw [List.mem_singleton.1 he]
        exact hevent
    · intro i e hi
      rcases Nat.lt_or_ge i events.length with hlt | hge
      · exact hseq i e (by rwa [List.getElem?_append_left hlt] at hi)
      · rw [List.getElem?_append_right hge] at hi
        have hzero : i - events.length = 0 := by
          by_contra hne
          rw [List.getElem?_eq_none (by simp; omega)] at hi
          simp at hi
        rw [hzero] at hi
        simp only [List.getElem?_cons_zero, Option.some.injEq] at hi
        rw [← hi, hat]
        omega
    · rw [List.pairwise_append]
      exact ⟨hsorted, by simp, fun e he other hother => by
        rw [List.mem_singleton.1 hother]
        exact (hlast hsorted).2 htime e he⟩

theorem ValidLog.of_append {events more : List BufferMutation}
    (h : ValidLog (events ++ more)) : ValidLog events where
  valid event hevent := h.valid event (by simp [hevent])
  seq_eq i event hi := h.seq_eq i event (by
    rw [List.getElem?_append_left (List.getElem?_eq_some_iff.1 hi).1, hi])
  sorted := (List.pairwise_append.1 h.sorted).1

theorem eventTime_of_readsAs {value : Json} {event : BufferMutation}
    (h : ReadsAs value event) : eventTime value = some (event.t : Int) := by
  rw [eventTime, if_pos h.isObject, h.t]
  rfl

theorem validateEventsFrom_eq_nil {P : Platform} {values : List Json} {index : Nat}
    {previousT : Int} :
    validateEventsFrom P values index previousT = .ok [] ↔
      ∃ events, ReadsAsLog values events ∧ ValidFrom index previousT events := by
  induction values generalizing index previousT with
  | nil =>
      simp only [validateEventsFrom, List.forall₂_nil_left_iff, exists_eq_left, true_iff]
      trivial
  | cons value values ih =>
      rw [validateEventsFrom]
      constructor
      · intro h
        split at h
        · simp at h
        · rename_i errors herrors
          cases hrest : validateEventsFrom P values (index + 1)
              ((eventTime value).getD previousT) with
          | error thrown => simp [hrest, Except.map] at h
          | ok rest =>
              simp only [hrest, Except.map, Except.ok.injEq, List.append_eq_nil_iff] at h
              obtain ⟨⟨rfl, hordered⟩, rfl⟩ := h
              obtain ⟨event, hvalid, hreads, hseq⟩ := validateEvent_eq_nil.1 herrors
              rw [eventTime_of_readsAs hreads] at hrest hordered
              obtain ⟨events, hlog, hfrom⟩ := ih.1 hrest
              refine ⟨event :: events, .cons hreads hlog, hvalid, hseq index rfl, ?_, hfrom⟩
              simpa using hordered
      · rintro ⟨events, hlog, hfrom⟩
        obtain ⟨event, events, hreads, hrest, rfl⟩ := List.forall₂_cons_left_iff.1 hlog
        obtain ⟨hvalid, hseq, ht, hfrom⟩ := hfrom
        have hevent : validateEvent P value (some index) = .ok [] :=
          validateEvent_eq_nil.2 ⟨event, hvalid, hreads, by simpa using hseq⟩
        have hrest : validateEventsFrom P values (index + 1) (event.t : Int) = .ok [] :=
          ih.2 ⟨events, hrest, hfrom⟩
        simp [hevent, eventTime_of_readsAs hreads, hrest, Except.map, ht]

theorem validateEventLog_eq_nil {P : Platform} {values : List Json} :
    validateEventLog P values = .ok [] ↔
      ∃ events, ReadsAsLog values events ∧ ValidLog events := by
  simp only [validateEventLog, validateEventsFrom_eq_nil, validLog_iff_validFrom]

theorem assertValidEventLog_ok {P : Platform} {values : List Json} :
    assertValidEventLog P values = .ok () ↔
      ∃ events, ReadsAsLog values events ∧ ValidLog events := by
  rw [← validateEventLog_eq_nil (P := P)]
  unfold assertValidEventLog
  cases validateEventLog P values <;> simp

/-! ## The chain over read events -/

/-- How events enter the chain. -/
def eventScheme (P : Platform) : ChainScheme BufferMutation UInt8 B3Hash where
  hash := P.blake3
  bytes := B3Hash.bytes
  encode event := utf8ToBytes (eventText event)

/-- The tip of a log under a session and a format version. -/
def eventTip (P : Platform) (sessionId : JsString) (version : FormatVersion)
    (events : List BufferMutation) : Option B3Hash :=
  (eventScheme P).tip (chainStart sessionId version) events

def eventChain (P : Platform) (sessionId : JsString) (version : FormatVersion)
    (events : List BufferMutation) : List B3Hash :=
  (eventScheme P).chain (chainStart sessionId version) events

theorem eventScheme_advance (P : Platform) (start : List UInt8) (previous : Option B3Hash)
    (event : BufferMutation) :
    (eventScheme P).advance start previous event =
      P.blake3 ((match previous with
        | none => start
        | some tip => tip.bytes) ++ utf8ToBytes (eventText event)) := by
  cases previous <;> rfl

theorem advanceEventHash_ok {P : Platform} {previous : Option B3Hash} {value : Json}
    {sessionId : JsString} {version : FormatVersion} {tip : B3Hash} :
    advanceEventHash P previous value sessionId version = .ok tip ↔
      isUuid sessionId = true ∧ ∃ event : BufferMutation, event.Valid ∧ ReadsAs value event ∧
        (previous = none ↔ event.seq = 0) ∧
        tip = (eventScheme P).advance (chainStart sessionId version) previous event := by
  have boundary : ∀ {event : BufferMutation}, ReadsAs value event →
      ((previous.isNone != (Json.number? (value.field (js "seq")) == some (.ofNat 0))) = true ↔
        ¬ (previous = none ↔ event.seq = 0)) := by
    intro event hreads
    have hseq : (Json.number? (value.field (js "seq")) == some (.ofNat 0)) =
        decide (event.seq = 0) := by
      rw [hreads.seq, number?_ofNat]
      by_cases h0 : event.seq = 0
      · simp [h0]
      · have : JsNumber.ofNat event.seq ≠ JsNumber.ofNat 0 := fun h => h0 (ofNat_inj.1 h)
        simp [h0, this]
    rw [hseq]
    cases previous with
    | none => by_cases h0 : event.seq = 0 <;> simp [h0]
    | some tip => by_cases h0 : event.seq = 0 <;> simp [h0]
  constructor
  · intro h
    unfold advanceEventHash at h
    split at h
    · simp at h
    · rename_i hassert
      obtain ⟨event, hvalid, hreads⟩ := assertValidEvent_ok.1 hassert
      split at h
      · simp at h
      · rename_i huuid
        split at h
        · simp at h
        · rename_i hboundary
          rw [canonicalizeEventBytes, canonicalizeEvent_eq P hvalid hreads] at h
          simp only [Except.map, Except.ok.injEq] at h
          rw [boundary hreads, not_not] at hboundary
          exact ⟨by simpa using huuid, event, hvalid, hreads, hboundary,
            by rw [eventScheme_advance, h]⟩
  · rintro ⟨huuid, event, hvalid, hreads, hboundary, rfl⟩
    have hassert : assertValidEvent P value = .ok () :=
      assertValidEvent_ok.2 ⟨event, hvalid, hreads⟩
    unfold advanceEventHash
    rw [hassert]
    simp only
    rw [if_neg (by simp [huuid]), if_neg (by rw [boundary hreads, not_not]; exact hboundary),
      canonicalizeEventBytes, canonicalizeEvent_eq P hvalid hreads, eventScheme_advance]
    rfl

theorem eventChainFrom_eq {P : Platform} {sessionId : JsString} {version : FormatVersion}
    (huuid : isUuid sessionId = true) {values : List Json} {events : List BufferMutation}
    (hlog : ReadsAsLog values events) {index : Nat} {t : Int}
    (hvalid : ValidFrom index t events) {previous : Option B3Hash}
    (hprevious : previous = none ↔ index = 0) :
    eventChainFrom P sessionId version previous values =
      .ok ((eventScheme P).chainFrom (chainStart sessionId version) previous events) := by
  induction hlog generalizing index t previous with
  | nil => rfl
  | @cons value event values events hreads _ ih =>
      obtain ⟨hevent, hseq, -, hrest⟩ := hvalid
      have hadvance : advanceEventHash P previous value sessionId version =
          .ok ((eventScheme P).advance (chainStart sessionId version) previous event) :=
        advanceEventHash_ok.2 ⟨huuid, event, hevent, hreads, by rw [hprevious, hseq], rfl⟩
      rw [eventChainFrom, hadvance]
      simp only
      rw [ih hrest (by simp)]
      rfl

theorem computeEventHashChain_eq {P : Platform} {sessionId : JsString}
    {version : FormatVersion} (huuid : isUuid sessionId = true) {values : List Json}
    {events : List BufferMutation} (hlog : ReadsAsLog values events) (hvalid : ValidLog events)
    (hne : events ≠ []) :
    computeEventHashChain P values sessionId version =
      .ok (eventChain P sessionId version events) := by
  have hvalues : values ≠ [] := by
    rintro rfl
    exact hne (List.forall₂_nil_left_iff.1 hlog)
  have hassert : assertValidEventLog P values = .ok () :=
    assertValidEventLog_ok.2 ⟨events, hlog, hvalid⟩
  rw [computeEventHashChain, assertNonEmptyEventLog, if_neg (by simpa using hvalues), hassert]
  exact eventChainFrom_eq huuid hlog (validLog_iff_validFrom.1 hvalid) (by simp)

theorem length_eventChainFrom {P : Platform} {sessionId : JsString} {version : FormatVersion}
    {values : List Json} {previous : Option B3Hash} {chain : List B3Hash}
    (h : eventChainFrom P sessionId version previous values = .ok chain) :
    chain.length = values.length := by
  induction values generalizing previous chain with
  | nil =>
      cases h
      rfl
  | cons value values ih =>
      rw [eventChainFrom] at h
      split at h
      · cases h
      · rename_i tip htip
        cases hrest : eventChainFrom P sessionId version (some tip) values with
        | error thrown =>
            rw [hrest] at h
            cases h
        | ok rest =>
            rw [hrest] at h
            cases h
            rw [List.length_cons, List.length_cons, ih hrest]

/-- A chain has one tip for each event. -/
theorem length_computeEventHashChain {P : Platform} {sessionId : JsString}
    {version : FormatVersion} {values : List Json} {chain : List B3Hash}
    (h : computeEventHashChain P values sessionId version = .ok chain) :
    chain.length = values.length := by
  unfold computeEventHashChain at h
  split at h
  · cases h
  · split at h
    · cases h
    · exact length_eventChainFrom h

theorem computeRecordHash_eq {P : Platform} {sessionId : JsString}
    {version : FormatVersion} (huuid : isUuid sessionId = true) {values : List Json}
    {events : List BufferMutation} (hlog : ReadsAsLog values events) (hvalid : ValidLog events)
    {tip : B3Hash} (htip : eventTip P sessionId version events = some tip)
    (textBinding : Option Json) (finalization : Finalization) :
    computeRecordHash P values sessionId version textBinding finalization =
      sealRecordHash P tip version textBinding finalization := by
  have hne : events ≠ [] := by
    rintro rfl
    simp [eventTip] at htip
  rw [computeRecordHash, computeEventHashChain_eq huuid hlog hvalid hne]
  simp only [lastTip]
  rw [eventChain, ChainScheme.getLast?_chain]
  rw [eventTip] at htip
  rw [htip]

end Pmbah.Format
