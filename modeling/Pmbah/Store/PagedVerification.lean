import Pmbah.Format.RecordHash
import Pmbah.Format.StreamVerifier
import Pmbah.Store.Finality
import Pmbah.Store.Paging

/-!
# Verification page by page

The client reads a record in pages and feeds the streaming verifier, checking each
page's tips and cursor against it.
-/

namespace Pmbah.Store

open Js Format Library

variable {A : Type}

/-- The body of a page response, as it was parsed. -/
structure PageBody where
  events : Json
  nextOffset : Json
  totalEvents : Json
  chainTipBefore : Json
  chainTipAfter : Json

def eventPageSize : Nat := 4096

structure PagedVerification where
  verification : VerificationResult
  events : Option (List Json)

/-- `value === n`. -/
def isNumber (value : Json) (n : Nat) : Bool := Json.number? (some value) == some (.ofNat n)

/-- `value === tip`. -/
def isTip (value : Json) : Option B3Hash → Bool
  | none => isNull (some value)
  | some tip => Json.text? (some value) == some tip.text

/-- `value === (count === total ? null : count)`. -/
def isNext (value : Json) (count total : Nat) : Bool :=
  if count = total then isNull (some value) else isNumber value count

/-- The events of a page of an acceptable size. -/
def pageEvents (page : PageBody) (total : Nat) : Except JsError (List Json) :=
  match page.events with
  | .arr values =>
      if values.isEmpty || decide (eventPageSize < values.length) ||
          !isNumber page.totalEvents total then
        .error (.error (js "Invalid event page size or record count"))
      else .ok values
  | _ => .error (.error (js "Invalid event page size or record count"))

/-- The verifier after a page, and the events of the page. -/
def verifyPage (P : Platform) (verifier : EventStreamVerifier) (page : PageBody) :
    Except JsError (EventStreamVerifier × List Json) :=
  let total := verifier.manifest.natAt (js "event_count")
  match pageEvents page total with
  | .error thrown => .error thrown
  | .ok values =>
      if !isTip page.chainTipBefore verifier.tip then
        .error (.error (js "Event page does not continue the verified prefix"))
      else match verifier.appendAll P values with
        | .error thrown => .error thrown
        | .ok next =>
            if !isTip page.chainTipAfter next.tip then
              .error (.error (js "Event page hash does not match its events"))
            else if !isNext page.nextOffset next.count total then
              .error (.error (js "Event page cursor is inconsistent"))
            else .ok (next, values)

/-- The loop, for at most so many pages; `none` when they do not suffice. -/
def verifyPages (P : Platform) (readPage : Nat → Nat → Except JsError PageBody) :
    Nat → EventStreamVerifier → List Json →
      Option (Except JsError (EventStreamVerifier × List Json))
  | rounds, verifier, kept =>
      if verifier.count < verifier.manifest.natAt (js "event_count") then
        match rounds with
        | 0 => none
        | rounds + 1 =>
            match readPage verifier.count eventPageSize with
            | .error thrown => some (.error thrown)
            | .ok page =>
                match verifyPage P verifier page with
                | .error thrown => some (.error thrown)
                | .ok (next, values) => verifyPages P readPage rounds next (kept ++ values)
      else some (.ok (verifier, kept))

def verifyPagedRecord (P : Platform) (manifest : Json)
    (readPage : Nat → Nat → Except JsError PageBody) (keepEvents : Bool) :
    Option (Except JsError PagedVerification) :=
  match EventStreamVerifier.construct P manifest with
  | .error thrown => some (.error thrown)
  | .ok verifier =>
      (verifyPages P readPage (manifest.natAt (js "event_count")) verifier []).map fun
        | .error thrown => .error thrown
        | .ok (verifier, kept) =>
            (verifier.finish P).map fun verification =>
              { verification, events := if keepEvents then some kept else none }

/-! ## Pages over the network -/

def tipJson : Option B3Hash → Json
  | none => .null
  | some tip => .str tip.text

def EventPage.body (page : EventPage) : PageBody where
  events := .arr page.events
  nextOffset := natOrNull page.nextOffset
  totalEvents := Json.ofNat page.totalEvents
  chainTipBefore := tipJson page.chainTipBefore
  chainTipAfter := tipJson page.chainTipAfter

/-- Pages as the API serves them; `refused` is what the client throws for an error. -/
def servedPage (refused : StoreError → JsError)
    (route : Nat → Nat → Except StoreError EventPage) (offset limit : Nat) :
    Except JsError PageBody :=
  match route offset limit with
  | .error error => .error (refused error)
  | .ok page => .ok page.body

@[simp] theorem isTip_tipJson (tip : Option B3Hash) : isTip (tipJson tip) tip = true := by
  cases tip <;> simp [isTip, tipJson, isNull, Json.text?]

@[simp] theorem isNumber_ofNat (m n : Nat) : isNumber (Json.ofNat m) n = true ↔ m = n := by
  rw [isNumber, beq_iff_eq]
  simp [Json.number?, Json.ofNat, ofNat_inj]

/-! ## The loop ends -/

theorem append_ok {P : Platform} {verifier next : EventStreamVerifier} {value : Json}
    (h : verifier.append P value = (next, .ok ())) :
    next.count = verifier.count + 1 ∧ next.manifest = verifier.manifest := by
  unfold EventStreamVerifier.append at h
  split at h
  · cases h
  split at h
  · cases h
  split at h
  · cases h
  split at h
  · cases h
  · cases h
    exact ⟨rfl, rfl⟩

theorem appendAll_ok {P : Platform} {verifier next : EventStreamVerifier} {values : List Json}
    (h : verifier.appendAll P values = .ok next) :
    next.count = verifier.count + values.length ∧ next.manifest = verifier.manifest := by
  induction values generalizing verifier with
  | nil =>
      cases h
      exact ⟨rfl, rfl⟩
  | cons value values ih =>
      rw [EventStreamVerifier.appendAll] at h
      split at h
      · cases h
      · rename_i middle happend
        obtain ⟨hcount, hmanifest⟩ := append_ok happend
        obtain ⟨hrest, hsame⟩ := ih h
        refine ⟨?_, hsame.trans hmanifest⟩
        rw [hrest, hcount, List.length_cons]
        omega

/-- What a page that passes every check is. -/
theorem verifyPage_ok {P : Platform} {verifier next : EventStreamVerifier} {page : PageBody}
    {values : List Json} (h : verifyPage P verifier page = .ok (next, values)) :
    page.events = .arr values ∧ values ≠ [] ∧
      isNumber page.totalEvents (verifier.manifest.natAt (js "event_count")) = true ∧
      isTip page.chainTipBefore verifier.tip = true ∧
      verifier.appendAll P values = .ok next ∧ isTip page.chainTipAfter next.tip = true ∧
      isNext page.nextOffset next.count (verifier.manifest.natAt (js "event_count")) = true := by
  simp only [verifyPage] at h
  split at h
  · cases h
  rename_i found hfound
  split at h
  · cases h
  rename_i hbefore
  split at h
  · cases h
  rename_i reached happend
  split at h
  · cases h
  rename_i hafter
  split at h
  · cases h
  rename_i hnext
  simp only [Except.ok.injEq, Prod.mk.injEq] at h
  obtain ⟨rfl, rfl⟩ := h
  simp only [pageEvents] at hfound
  split at hfound
  · rename_i shown hevents
    split at hfound
    · cases hfound
    · rename_i hsize
      simp only [Except.ok.injEq] at hfound
      subst hfound
      simp only [Bool.or_eq_true, not_or, List.isEmpty_iff, Bool.not_eq_true',
        Bool.not_eq_false] at hsize
      exact ⟨hevents, hsize.1.1, hsize.2, by simpa using hbefore, happend, by simpa using hafter,
        by simpa using hnext⟩
  · cases hfound

/-- Every page brings at least one event, so a page for each event suffices. -/
theorem verifyPages_isSome {P : Platform} {readPage : Nat → Nat → Except JsError PageBody}
    {rounds : Nat} {verifier : EventStreamVerifier} {kept : List Json}
    (h : verifier.manifest.natAt (js "event_count") ≤ verifier.count + rounds) :
    (verifyPages P readPage rounds verifier kept).isSome = true := by
  induction rounds generalizing verifier kept with
  | zero =>
      rw [verifyPages, if_neg (by omega)]
      rfl
  | succ rounds ih =>
      rw [verifyPages]
      split
      · split
        · rfl
        · split
          · rfl
          · rename_i next values hpage
            obtain ⟨-, hne, -, -, happend, -⟩ := verifyPage_ok hpage
            obtain ⟨hcount, hmanifest⟩ := appendAll_ok happend
            have hpos := List.length_pos_of_ne_nil hne
            apply ih
            rw [hmanifest, hcount]
            omega
      · rfl

/-- Whatever the pages are, the verification ends. -/
theorem verifyPagedRecord_ends (P : Platform) (manifest : Json)
    (readPage : Nat → Nat → Except JsError PageBody) (keepEvents : Bool) :
    ∃ outcome, verifyPagedRecord P manifest readPage keepEvents = some outcome := by
  rw [← Option.isSome_iff_exists, verifyPagedRecord]
  split
  · rfl
  · rename_i verifier hconstruct
    obtain ⟨-, rfl⟩ := EventStreamVerifier.construct_eq_ok.1 hconstruct
    rw [Option.isSome_map]
    exact verifyPages_isSome (by simp)

/-! ## Pages as they are stored -/

variable {P : Platform} {page : StoredRecord → Nat → Nat → Except StoreError EventPage}
  {record : StoredRecord} {values : List Json} {events : List BufferMutation}

theorem validLog_take (h : ValidLog events) (count : Nat) : ValidLog (events.take count) := by
  rw [← List.take_append_drop count events] at h
  exact h.of_append

/-- A page of the log is accepted after what precedes it. -/
theorem verifyPage_expected (h : LogOf record values events)
    (hmanifest : validateManifest P record.manifest.json = []) {offset : Nat}
    {verifier : EventStreamVerifier} (hoffset : offset < values.length)
    (haccepts : EventStreamVerifier.Accepts P record.manifest.json (values.take offset)
      (events.take offset) verifier) :
    ∃ next, verifyPage P verifier
        (expectedPage P record.manifest values events offset eventPageSize).body =
          .ok (next, (values.drop offset).take eventPageSize) ∧
      EventStreamVerifier.Accepts P record.manifest.json (values.take (offset + eventPageSize))
        (events.take (offset + eventPageSize)) next := by
  have htotal : record.manifest.json.natAt (js "event_count") = values.length := h.count
  obtain ⟨happend, hnext⟩ := EventStreamVerifier.appendAll_of_accepts hmanifest haccepts
    (List.forall₂_take eventPageSize (List.forall₂_drop offset h.reads))
    (by
      rw [← List.take_add]
      exact validLog_take h.validLog _)
    (by
      rw [← List.take_add, htotal]
      exact List.length_take_le' _ _)
  rw [← List.take_add, ← List.take_add] at hnext
  refine ⟨_, ?_, hnext⟩
  have hcount := hnext.count
  rw [List.length_take] at hcount
  have hevents : pageEvents
      (expectedPage P record.manifest values events offset eventPageSize).body values.length =
        .ok ((values.drop offset).take eventPageSize) := by
    have hsize : ((values.drop offset).take eventPageSize).isEmpty = false := by
      rw [List.isEmpty_eq_false_iff, ← List.length_pos_iff, List.length_take, List.length_drop]
      simp only [eventPageSize]
      omega
    simp [pageEvents, EventPage.body, expectedPage, hsize]
  have hbefore : isTip (expectedPage P record.manifest values events offset
      eventPageSize).body.chainTipBefore verifier.tip = true := by
    rw [haccepts.tip]
    exact isTip_tipJson _
  have hafter : isTip (expectedPage P record.manifest values events offset
      eventPageSize).body.chainTipAfter
        (verifier.feed P ((values.drop offset).take eventPageSize)).tip = true := by
    rw [hnext.tip]
    exact isTip_tipJson _
  have hcursor : isNext (expectedPage P record.manifest values events offset
      eventPageSize).body.nextOffset
        (verifier.feed P ((values.drop offset).take eventPageSize)).count values.length = true := by
    rw [hcount, isNext]
    by_cases hlast : offset + eventPageSize < values.length
    · rw [Nat.min_eq_left (by omega), if_neg (by omega)]
      simp [EventPage.body, expectedPage, hlast, natOrNull]
    · rw [Nat.min_eq_right (by omega), if_pos rfl]
      simp [EventPage.body, expectedPage, hlast, natOrNull, isNull]
  rw [verifyPage, haccepts.manifest_eq, htotal]
  simp only [hevents, hbefore, happend, hafter, hcursor]
  rfl

/-- The stored pages bring the verifier through the whole log. -/
theorem verifyPages_stored (hkept : KeptLog A P page record values)
    (h : LogOf record values events)
    (hmanifest : validateManifest P record.manifest.json = []) (refused : StoreError → JsError)
    {rounds offset : Nat} {verifier : EventStreamVerifier} {kept : List Json}
    (hrounds : values.length ≤ offset + rounds)
    (haccepts : EventStreamVerifier.Accepts P record.manifest.json (values.take offset)
      (events.take offset) verifier) :
    ∃ last, verifyPages P (servedPage refused (pageRoute P page record)) rounds verifier kept =
        some (.ok (last, kept ++ values.drop offset)) ∧
      EventStreamVerifier.Accepts P record.manifest.json values events last := by
  have hlength : values.length = events.length := h.reads.length_eq
  have htotal : record.manifest.json.natAt (js "event_count") = values.length := h.count
  have hcount : verifier.count = min offset values.length := by
    rw [haccepts.count, List.length_take]
  have hdone : values.length ≤ offset →
      EventStreamVerifier.Accepts P record.manifest.json values events verifier ∧
        values.drop offset = [] := by
    intro hle
    rw [List.take_of_length_le hle, List.take_of_length_le (by omega)] at haccepts
    exact ⟨haccepts, List.drop_eq_nil_of_le hle⟩
  induction rounds generalizing offset verifier kept with
  | zero =>
      obtain ⟨hall, hrest⟩ := hdone (by omega)
      rw [verifyPages, haccepts.manifest_eq, htotal, hcount, if_neg (by omega), hrest,
        List.append_nil]
      exact ⟨verifier, rfl, hall⟩
  | succ rounds ih =>
      rw [verifyPages, haccepts.manifest_eq, htotal]
      by_cases hmore : offset < values.length
      · have hplace : verifier.count = offset := by omega
        rw [hplace, if_pos hmore]
        have hpage : servedPage refused (pageRoute P page record) offset eventPageSize =
            .ok (expectedPage P record.manifest values events offset eventPageSize).body := by
          rw [servedPage, pageRoute_eq hkept h (Nat.le_of_lt hmore) (by decide) (by decide)]
        obtain ⟨next, hverify, hnext⟩ := verifyPage_expected h hmanifest hmore haccepts
        simp only [hpage, hverify]
        have hrest : values.length ≤ offset + eventPageSize + rounds := by
          simp only [eventPageSize]
          omega
        have hnextDone : values.length ≤ offset + eventPageSize →
            EventStreamVerifier.Accepts P record.manifest.json values events next ∧
              values.drop (offset + eventPageSize) = [] := by
          intro hle
          have hfinal := hnext
          rw [List.take_of_length_le hle, List.take_of_length_le (by omega)] at hfinal
          exact ⟨hfinal, List.drop_eq_nil_of_le hle⟩
        obtain ⟨last, hlast, hall⟩ := @ih _ _ (kept ++ (values.drop offset).take eventPageSize)
          hrest hnext (by rw [hnext.count, List.length_take]) hnextDone
        refine ⟨last, ?_, hall⟩
        rw [hlast, List.append_assoc, ← List.drop_drop, List.take_append_drop]
      · obtain ⟨hall, hrest⟩ := hdone (by omega)
        rw [if_neg (by omega), hrest, List.append_nil]
        exact ⟨verifier, rfl, hall⟩

/-- Stored pages end the verification with the whole log accepted. -/
theorem verifyPagedRecord_stored (hkept : KeptLog A P page record values)
    (h : LogOf record values events)
    (hmanifest : validateManifest P record.manifest.json = []) (refused : StoreError → JsError)
    (keepEvents : Bool) :
    ∃ last, EventStreamVerifier.Accepts P record.manifest.json values events last ∧
      verifyPagedRecord P record.manifest.json (servedPage refused (pageRoute P page record))
        keepEvents = some ((last.finish P).map fun verification =>
          { verification, events := if keepEvents then some values else none }) := by
  have htotal : record.manifest.json.natAt (js "event_count") = values.length := h.count
  have hconstruct := (EventStreamVerifier.construct_eq_ok (P := P)).2
    ⟨hmanifest, (rfl : (_ : EventStreamVerifier) = _)⟩
  have hstart : EventStreamVerifier.Accepts P record.manifest.json (values.take 0)
      (events.take 0) _ := EventStreamVerifier.accepts_nil P record.manifest.json
  obtain ⟨last, hlast, hall⟩ := @verifyPages_stored A P page record values events hkept h
    hmanifest refused values.length 0 _ [] (by omega) hstart
  refine ⟨last, hall, ?_⟩
  rw [verifyPagedRecord, hconstruct]
  simp only [htotal, hlast, List.drop_zero, List.nil_append]
  rfl

/-! ## Pages from anywhere -/

/-- From an offset on, the pages show the part of a log that they are asked for,
each between the tips before and after it. -/
inductive Shows (P : Platform) (manifest : Json)
    (readPage : Nat → Nat → Except JsError PageBody) (events : List BufferMutation) :
    Nat → Prop where
  | done : Shows P manifest readPage events events.length
  | page {offset : Nat} {page : PageBody} {shown : List Json}
      (read : readPage offset eventPageSize = .ok page)
      (events_eq : page.events = .arr shown) (nonempty : shown ≠ [])
      (reads : ReadsAsLog shown ((events.drop offset).take shown.length))
      (total : isNumber page.totalEvents (manifest.natAt (js "event_count")) = true)
      (before : isTip page.chainTipBefore (eventTip P (manifest.textAt (js "session_id"))
        (manifestVersion manifest) (events.take offset)) = true)
      (after : isTip page.chainTipAfter (eventTip P (manifest.textAt (js "session_id"))
        (manifestVersion manifest) (events.take (offset + shown.length))) = true)
      (next : isNext page.nextOffset (offset + shown.length)
        (manifest.natAt (js "event_count")) = true)
      (rest : Shows P manifest readPage events (offset + shown.length)) :
      Shows P manifest readPage events offset

/-- The pages that are accepted show the log that the verifier has accepted. -/
theorem verifyPages_shows {P : Platform} {manifest : Json}
    {readPage : Nat → Nat → Except JsError PageBody} (hmanifest : validateManifest P manifest = [])
    {rounds : Nat} {verifier last : EventStreamVerifier} {before kept kept' : List Json}
    {events : List BufferMutation}
    (h : EventStreamVerifier.Accepts P manifest before events verifier)
    (hok : verifyPages P readPage rounds verifier kept = some (.ok (last, kept'))) :
    ∃ served more, kept' = kept ++ served ∧
      EventStreamVerifier.Accepts P manifest (before ++ served) (events ++ more) last ∧
      Shows P manifest readPage (events ++ more) before.length := by
  have hlength : before.length = events.length := h.reads.length_eq
  induction rounds generalizing verifier before events kept with
  | zero =>
      rw [verifyPages, h.manifest_eq] at hok
      split at hok
      · cases hok
      · cases hok
        refine ⟨[], [], by simp, by simpa using h, ?_⟩
        rw [List.append_nil, hlength]
        exact .done
  | succ rounds ih =>
      rw [verifyPages, h.manifest_eq] at hok
      split at hok
      · split at hok
        · cases hok
        rename_i page hread
        split at hok
        · cases hok
        rename_i next values hpage
        obtain ⟨hevents, hne, htotal, htip, happend, hafter, hnext⟩ := verifyPage_ok hpage
        obtain ⟨found, hfound⟩ := EventStreamVerifier.accepts_of_appendAll hmanifest h happend
        have hsplit : found = events ++ values.map readEvent := by
          rw [← hfound.reads.map_readEvent, List.map_append, h.reads.map_readEvent]
        subst hsplit
        obtain ⟨served, more, hkept, haccepts, hshows⟩ :=
          ih hfound hok hfound.reads.length_eq
        rw [List.append_assoc, List.append_assoc] at haccepts
        rw [List.append_assoc, List.length_append] at hshows
        refine ⟨values ++ served, values.map readEvent ++ more, ?_, haccepts, ?_⟩
        · rw [hkept, List.append_assoc]
        have hfront : (events ++ (values.map readEvent ++ more)).take before.length = events := by
          rw [hlength]
          exact List.take_left
        have hwhole : (events ++ (values.map readEvent ++ more)).take
            (before.length + values.length) = events ++ values.map readEvent := by
          rw [← List.append_assoc, hlength, ← List.length_map readEvent, ← List.length_append]
          exact List.take_left
        have hshown : ((events ++ (values.map readEvent ++ more)).drop before.length).take
            values.length = values.map readEvent := by
          rw [hlength, List.drop_left, ← List.length_map readEvent]
          exact List.take_left
        have hreads : ReadsAsLog values (values.map readEvent) := by
          have hdrop := List.forall₂_drop before.length hfound.reads
          rw [List.drop_left, hlength, List.drop_left] at hdrop
          exact hdrop
        rw [h.count] at hread
        rw [h.manifest_eq] at htotal
        rw [hfound.count, h.manifest_eq, List.length_append] at hnext
        refine .page hread hevents hne ?_ htotal ?_ ?_ hnext hshows
        · rw [hshown]
          exact hreads
        · rw [hfront, ← h.tip]
          exact htip
        · rw [hwhole, ← hfound.tip]
          exact hafter
      · cases hok
        refine ⟨[], [], by simp, by simpa using h, ?_⟩
        rw [List.append_nil, hlength]
        exact .done

/-- What a valid end of the paged verification says of the pages. -/
theorem verifyPagedRecord_valid {P : Platform} {manifest : Json}
    {readPage : Nat → Nat → Except JsError PageBody} {keepEvents : Bool}
    {result : PagedVerification}
    (hok : verifyPagedRecord P manifest readPage keepEvents = some (.ok result))
    (hvalid : result.verification.valid = true) :
    ∃ served hash, RecordHolds P manifest served hash ∧
      Shows P manifest readPage (served.map readEvent) 0 ∧
      result.events = if keepEvents then some served else none := by
  rw [verifyPagedRecord] at hok
  split at hok
  · cases hok
  rename_i verifier hconstruct
  obtain ⟨hmanifest, rfl⟩ := EventStreamVerifier.construct_eq_ok.1 hconstruct
  obtain ⟨outcome, hpages, hfinish⟩ := Option.map_eq_some_iff.1 hok
  cases outcome with
  | error thrown => cases hfinish
  | ok reached =>
      obtain ⟨last, kept⟩ := reached
      obtain ⟨served, more, hkept, haccepts, hshows⟩ := verifyPages_shows hmanifest
        (EventStreamVerifier.accepts_nil P manifest) hpages
      rw [List.nil_append] at hkept haccepts
      rw [List.nil_append] at haccepts hshows
      subst hkept
      cases hlast : last.finish P with
      | error thrown =>
          simp only [hlast, Except.map] at hfinish
          cases hfinish
      | ok verification =>
          simp only [hlast, Except.map, Except.ok.injEq] at hfinish
          subst hfinish
          obtain ⟨hash, hhash⟩ := EventStreamVerifier.finish_reports hlast hvalid
          refine ⟨kept, hash, ?_, ?_, rfl⟩
          · exact (EventStreamVerifier.finish_valid hmanifest haccepts).1
              ⟨verification, hlast, hvalid, hhash⟩
          · rw [haccepts.reads.map_readEvent]
            exact hshows

/-! ## What the pages of a record amount to -/

/-- A record that holds was stored with a valid log. -/
theorem logOf_of_recordHolds {P : Platform} {record : StoredRecord} {values : List Json}
    {hash : B3Hash} (h : RecordHolds P record.manifest.json values hash) :
    ∃ events, LogOf record values events := by
  obtain ⟨version, sessionId, count, duration, hreads⟩ := manifestReads_of_valid h.manifestValid
  obtain ⟨events, hlog, hlogValid⟩ := h.logValid
  refine ⟨events, hlog, hlogValid, ?_, h.nonempty, h.count⟩
  rw [RecordManifest.sessionId, hreads.textAt_sessionId]
  exact hreads.uuid

theorem servedPage_ok {refused : StoreError → JsError}
    {route : Nat → Nat → Except StoreError EventPage} {offset limit : Nat} {body : PageBody}
    (h : servedPage refused route offset limit = .ok body) :
    ∃ found, route offset limit = .ok found ∧ found.body = body := by
  rw [servedPage] at h
  split at h
  · cases h
  · rename_i found hfound
    cases h
    exact ⟨found, hfound, rfl⟩

theorem pageRoute_ok {P : Platform} {page : StoredRecord → Nat → Nat → Except StoreError EventPage}
    {record : StoredRecord} {offset limit : Nat} {found : EventPage}
    (h : pageRoute P page record offset limit = .ok found) :
    eventPage P page record offset limit = .ok found := by
  rw [pageRoute] at h
  split at h
  · cases h
  split at h
  · cases h
  · exact h

/-- An inline page is only answered when the record's own log is valid. -/
theorem eventPage_inline_ok {P : Platform}
    {page : StoredRecord → Nat → Nat → Except StoreError EventPage} {record : StoredRecord}
    {offset limit : Nat} {found : EventPage} (hstorage : record.eventStorage = .inline)
    (h : eventPage P page record offset limit = .ok found) :
    found.totalEvents = record.events.length ∧
      ∃ events, ReadsAsLog record.events events ∧ ValidLog events := by
  rw [eventPage, hstorage] at h
  simp only at h
  split at h
  · cases h
  · rename_i tips htips
    cases h
    refine ⟨rfl, ?_⟩
    apply assertValidEventLog_ok.1 (?_ : assertValidEventLog P record.events = .ok ())
    cases hassert : assertValidEventLog P record.events with
    | ok u => rfl
    | error thrown =>
        rw [computeEventHashChain] at htips
        cases hempty : assertNonEmptyEventLog record.events <;> simp [hempty, hassert] at htips

/-- A record whose stored pages pass was stored with a valid log. -/
theorem logOf_of_shows {P : Platform} {page : StoredRecord → Nat → Nat → Except StoreError EventPage}
    {record : StoredRecord} {values : List Json} {refused : StoreError → JsError}
    {served : List Json} {hash : B3Hash} (hkept : KeptLog A P page record values)
    (hrecord : RecordHolds P record.manifest.json served hash)
    (hshows : Shows P record.manifest.json (servedPage refused (pageRoute P page record))
      (served.map readEvent) 0) : ∃ events, LogOf record values events := by
  obtain ⟨version, sessionId, count, duration, hreads⟩ :=
    manifestReads_of_valid hrecord.manifestValid
  have huuid : isUuid record.manifest.sessionId = true := by
    rw [RecordManifest.sessionId, hreads.textAt_sessionId]
    exact hreads.uuid
  have hpositive : 0 < record.manifest.eventCount := by
    rw [RecordManifest.eventCount, hrecord.count]
    exact List.length_pos_of_ne_nil hrecord.nonempty
  cases hkept with
  | @memory store state chunks events storage reader owner held partition hcount =>
      refine ⟨events, partition.reads, partition.validLog, huuid, ?_, hcount⟩
      apply List.ne_nil_of_length_pos
      omega
  | @postgres tables chunks events storage reader held partition hcount =>
      refine ⟨events, partition.reads, partition.validLog, huuid, ?_, hcount⟩
      apply List.ne_nil_of_length_pos
      omega
  | inline storage same =>
      subst same
      generalize hstart : (0 : Nat) = start at hshows
      cases hshows with
      | done =>
          rw [List.length_map] at hstart
          exact absurd (List.length_eq_zero_iff.1 hstart.symm) hrecord.nonempty
      | @page _ body shown read events_eq nonempty reads total before after next rest =>
          rw [← hstart] at read
          obtain ⟨found, hfound, hbody⟩ := servedPage_ok read
          obtain ⟨hlength, events, hlog, hlogValid⟩ :=
            eventPage_inline_ok storage (pageRoute_ok hfound)
          have hcount : record.manifest.eventCount = record.events.length := by
            rw [← hbody, EventPage.body, isNumber_ofNat, hlength] at total
            exact total.symm
          refine ⟨events, hlog, hlogValid, huuid, ?_, hcount⟩
          apply List.ne_nil_of_length_pos
          omega

/-- Stored pages that pass bring the record's own log. -/
theorem verifyPagedRecord_stored_valid {P : Platform}
    {page : StoredRecord → Nat → Nat → Except StoreError EventPage} {record : StoredRecord}
    {values : List Json} {refused : StoreError → JsError} {keepEvents : Bool}
    {result : PagedVerification} (hkept : KeptLog A P page record values)
    (hok : verifyPagedRecord P record.manifest.json
      (servedPage refused (pageRoute P page record)) keepEvents = some (.ok result))
    (hvalid : result.verification.valid = true) :
    (∃ hash, RecordHolds P record.manifest.json values hash) ∧
      result.events = if keepEvents then some values else none := by
  obtain ⟨served, hash, hrecord, hshows, -⟩ := verifyPagedRecord_valid hok hvalid
  obtain ⟨events, hlog⟩ := logOf_of_shows hkept hrecord hshows
  obtain ⟨last, haccepts, hpaged⟩ :=
    verifyPagedRecord_stored hkept hlog hrecord.manifestValid refused keepEvents
  rw [hpaged, Option.some.injEq] at hok
  cases hlast : last.finish P with
  | error thrown =>
      rw [hlast, Except.map] at hok
      cases hok
  | ok verification =>
      simp only [hlast, Except.map, Except.ok.injEq] at hok
      subst hok
      obtain ⟨hash', hhash'⟩ := EventStreamVerifier.finish_reports hlast hvalid
      refine ⟨⟨hash', ?_⟩, rfl⟩
      exact (EventStreamVerifier.finish_valid hrecord.manifestValid haccepts).1
        ⟨verification, hlast, hvalid, hhash'⟩

/-- Reading a record page by page, and verifying it that way. -/
structure PagesCompose (P : Platform)
    (page : StoredRecord → Nat → Nat → Except StoreError EventPage) (record : StoredRecord)
    (values : List Json) : Prop where
  /-- Every page is the part of the log that was asked for. -/
  pages : ∀ events, LogOf record values events → ∀ offset limit, offset ≤ values.length →
    1 ≤ limit → limit ≤ maxEventChunk →
      pageRoute P page record offset limit =
        .ok (expectedPage P record.manifest values events offset limit)
  ends : ∀ readPage keepEvents, ∃ outcome,
    verifyPagedRecord P record.manifest.json readPage keepEvents = some outcome
  valid_iff : ∀ refused keepEvents,
    (∃ result, verifyPagedRecord P record.manifest.json
        (servedPage refused (pageRoute P page record)) keepEvents = some (.ok result) ∧
      result.verification.valid = true) ↔
    ∃ result, verifyRecord P record.manifest.json values = .ok result ∧ result.valid = true
  keeps : ∀ refused keepEvents result, verifyPagedRecord P record.manifest.json
      (servedPage refused (pageRoute P page record)) keepEvents = some (.ok result) →
    result.verification.valid = true →
      result.events = if keepEvents then some values else none
  /-- Whoever serves the pages of a record that holds: when they pass, they show
  its log and tips, or the log that they show collides with it. -/
  tampering : ∀ hash, RecordHolds P record.manifest.json values hash →
    ∀ readPage keepEvents result,
      verifyPagedRecord P record.manifest.json readPage keepEvents = some (.ok result) →
      result.verification.valid = true →
        Shows P record.manifest.json readPage (values.map readEvent) 0 ∨
        ∃ served, Shows P record.manifest.json readPage (served.map readEvent) 0 ∧
          Collision P.blake3 (hashedMessages P record.manifest.json values)
            (hashedMessages P record.manifest.json served)

/-- Two logs under one manifest are the same, or their hashes collide. -/
theorem events_eq_or_collision {P : Platform} {manifest : RecordManifest}
    {values served : List Json} {hash hash' : B3Hash}
    (h : RecordHolds P manifest.json values hash)
    (h' : RecordHolds P manifest.json served hash') :
    served.map readEvent = values.map readEvent ∨
      Collision P.blake3 (hashedMessages P manifest.json values)
        (hashedMessages P manifest.json served) := by
  have hsame : hash' = hash := by
    have hrecorded := h.recorded
    rw [h'.recorded, Option.some.injEq] at hrecorded
    exact B3Hash.text_injective hrecorded
  subst hsame
  obtain ⟨-, -, hvalid, hhash⟩ :=
    computeManifestHash_eq h.manifestValid manifest.wellFormed h.computed
  obtain ⟨-, -, hvalid', hhash'⟩ :=
    computeManifestHash_eq h.manifestValid manifest.wellFormed h'.computed
  rcases Commitment.agrees_or_collision hvalid hvalid' (hhash.trans hhash'.symm) with
    hagrees | hcollision
  · exact Or.inl hagrees.2.2.1.symm
  · exact Or.inr hcollision

theorem pages_compose {P : Platform}
    {page : StoredRecord → Nat → Nat → Except StoreError EventPage} {record : StoredRecord}
    {values : List Json} (hkept : KeptLog A P page record values) :
    PagesCompose P page record values where
  pages _ h _ _ hoffset hlimit hmaximum := pageRoute_eq hkept h hoffset hlimit hmaximum
  ends := verifyPagedRecord_ends P record.manifest.json
  valid_iff := by
    intro refused keepEvents
    constructor
    · rintro ⟨result, hok, hvalid⟩
      obtain ⟨⟨hash, hrecord⟩, -⟩ := verifyPagedRecord_stored_valid hkept hok hvalid
      obtain ⟨whole, hwhole, hwholeValid, -⟩ := verifyRecord_valid.2 hrecord
      exact ⟨whole, hwhole, hwholeValid⟩
    · rintro ⟨result, hok, hvalid⟩
      obtain ⟨hash, hhash⟩ := verifyRecord_reports hok hvalid
      have hrecord := verifyRecord_valid.1 ⟨result, hok, hvalid, hhash⟩
      obtain ⟨events, hlog⟩ := logOf_of_recordHolds hrecord
      obtain ⟨last, haccepts, hpaged⟩ :=
        verifyPagedRecord_stored hkept hlog hrecord.manifestValid refused keepEvents
      obtain ⟨verification, hfinish, hverified, -⟩ :=
        (EventStreamVerifier.finish_valid hrecord.manifestValid haccepts).2 hrecord
      rw [hfinish] at hpaged
      exact ⟨_, hpaged, hverified⟩
  keeps := by
    intro refused keepEvents result hok hvalid
    exact (verifyPagedRecord_stored_valid hkept hok hvalid).2
  tampering := by
    intro hash hrecord readPage keepEvents result hok hvalid
    obtain ⟨served, hash', hserved, hshows, -⟩ := verifyPagedRecord_valid hok hvalid
    rcases events_eq_or_collision hrecord hserved with hsame | hcollision
    · rw [hsame] at hshows
      exact Or.inl hshows
    · exact Or.inr ⟨served, hshows, hcollision⟩

/-! ## A record in two rows -/

def pairManifest : RecordManifest where
  json := .obj [(js "format_version", .str (js "0.2")),
    (js "session_id", .str RecordStore.exampleSessionId),
    (js "record_hash", .str RecordStore.exampleHash.text), (js "event_count", Json.ofNat 2)]
  wellFormed := by decide
  recordHash := RecordStore.exampleHash
  recorded := rfl

def pairEvents : List BufferMutation :=
  [RecordStore.exampleEvent, { RecordStore.exampleEvent with seq := 1, pos := some 1 }]

/-- One event in each chunk. -/
def pairChunks : List (Nat × Chunk) :=
  let tips := eventChain Platform.standard pairManifest.sessionId pairManifest.formatVersion
    pairEvents
  [(0, ⟨(pairEvents.take 1).map BufferMutation.toJson, tips.take 1⟩),
    (1, ⟨(pairEvents.drop 1).map BufferMutation.toJson, tips.drop 1⟩)]

def pairRecord : StoredRecord where
  manifest := pairManifest
  events := []
  eventStorage := .chunks
  shortSignature := js "short"
  stats := .obj []
  signals := []
  observation := notRequestedObservation
  createdAt := js "now"

/-- The later row stands first, after the row of an upload that was given up. -/
def pairTables : PostgresTables where
  recordUploads := [⟨js "given up", none, false, 0⟩,
    ⟨js "upload", some RecordStore.exampleHash, true, 2⟩]
  recordEventChunks := (⟨js "given up", 0, 1, [RecordStore.exampleEvent.toJson], []⟩ : ChunkRow) ::
    (pairChunks.map (chunkRow (js "upload"))).reverse

theorem pairChunks_partition :
    Partition Platform.standard pairManifest pairChunks
      (pairEvents.map BufferMutation.toJson) pairEvents where
  tiled := ⟨rfl, rfl, trivial⟩
  sized := by
    intro chunk hchunk
    simp only [pairChunks, List.mem_cons, List.not_mem_nil, or_false] at hchunk
    rcases hchunk with rfl | rfl
    · simp [eventChain, pairEvents, maxEventChunk]
    · simp [eventChain, pairEvents, maxEventChunk]
  values_eq := rfl
  reads := by
    rw [ReadsAsLog, List.forall₂_map_left_iff]
    exact List.forall₂_same.2 fun event _ => readsAs_toJson event
  validLog := by
    refine ⟨?_, ?_, by simp [pairEvents, RecordStore.exampleEvent]⟩
    · intro event hevent
      simp only [pairEvents, List.mem_cons, List.not_mem_nil, or_false] at hevent
      rcases hevent with rfl | rfl
      · exact ⟨by decide, by decide, by decide, by decide, by decide, by decide⟩
      · exact ⟨by decide, by decide, by decide, by decide, by decide, by decide⟩
    · intro i event hevent
      rcases i with - | - | i
      · cases hevent
        rfl
      · cases hevent
        rfl
      · cases hevent
  chain := by
    show List.take 1 _ ++ (List.drop 1 _ ++ []) = _
    rw [List.append_nil, List.take_append_drop]

theorem pairRecord_kept :
    KeptLog Unit Platform.standard pairTables.page pairRecord
      (pairEvents.map BufferMutation.toJson) := by
  have hheld : pairTables.Has pairRecord pairChunks := by
    refine ⟨⟨_, List.mem_cons_of_mem _ (List.mem_singleton.2 rfl), by decide⟩, ?_⟩
    intro upload hupload howns
    simp only [pairTables, List.mem_cons, List.not_mem_nil, or_false] at hupload
    rcases hupload with rfl | rfl
    · exact absurd howns (by decide)
    · exact List.reverse_perm (pairChunks.map (chunkRow (js "upload")))
  exact .postgres rfl rfl hheld pairChunks_partition rfl

theorem pages_compose_pair :
    PagesCompose Platform.standard pairTables.page pairRecord
      (pairEvents.map BufferMutation.toJson) := pages_compose pairRecord_kept

end Pmbah.Store
