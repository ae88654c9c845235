import Pmbah.Analysis.Accumulator
import Pmbah.Store.PagedVerification

/-!
# The length of the document, computed four times

The format, the analysis, the timeline of a record's page and the reader of a paged
record each keep the length that the edits establish.  The reader adds in another order
than the others, so it is rounded otherwise where a length is no safe integer.
-/

namespace Pmbah.Analysis

open Js Format Store Library

/-! ## The timeline -/

def largeInsertCodepoints : Nat := 50

structure TimelinePoint where
  seq : Nat
  t : Nat
  pos : Option Nat
  delLen : Option Nat
  insLen : Option Nat
  source : Source
  documentLength : Option Nat
  isLargeInsert : Bool
  delayFromPreviousMs : Int

def nextDocumentLength (documentLength : Option Nat) (event : BufferMutation) : Option Nat :=
  match documentLength, event.pos, event.delLen, event.insLen with
  | some length, some pos, some delLen, some insLen =>
      if length < pos ∨ length < pos + delLen then none
      else some (addDouble (subDouble length delLen) insLen)
  | _, _, _, _ => none

/-- The points of the events after one of a time, at which the document had a length. -/
def timelinePointsFrom (documentLength : Option Nat) (previousT : Nat) :
    List BufferMutation → List TimelinePoint
  | [] => []
  | event :: events =>
      let documentLength := nextDocumentLength documentLength event
      { seq := event.seq, t := event.t, pos := event.pos, delLen := event.delLen
        insLen := event.insLen, source := event.source, documentLength
        isLargeInsert := largeInsertCodepoints ≤ event.insLen.getD 0
        delayFromPreviousMs := if event.seq = 0 then 0 else event.t - previousT } ::
      timelinePointsFrom documentLength event.t events

def buildTimelinePoints (events : List BufferMutation) (startingLength : Option Nat) :
    List TimelinePoint :=
  timelinePointsFrom startingLength 0 events

theorem nextDocumentLength_eq (documentLength : Option Nat) (event : BufferMutation) :
    nextDocumentLength documentLength event = observeEvent documentLength event := by
  unfold nextDocumentLength observeEvent
  cases documentLength with
  | none => cases event.pos <;> cases event.delLen <;> cases event.insLen <;> rfl
  | some length => cases event.pos <;> cases event.delLen <;> cases event.insLen <;> rfl

theorem timelinePointsFrom_length {events : List BufferMutation} {documentLength : Option Nat}
    {previousT k : Nat} {point : TimelinePoint}
    (h : (timelinePointsFrom documentLength previousT events)[k]? = some point) :
    point.documentLength = observedLength documentLength (events.take (k + 1)) := by
  induction events generalizing documentLength previousT k with
  | nil => cases h
  | cons event events ih =>
      cases k with
      | zero =>
          cases h
          exact nextDocumentLength_eq documentLength event
      | succ k =>
          rw [timelinePointsFrom, List.getElem?_cons_succ] at h
          rw [ih h, nextDocumentLength_eq]
          rfl

theorem length_timelinePointsFrom (events : List BufferMutation) (documentLength : Option Nat)
    (previousT : Nat) :
    (timelinePointsFrom documentLength previousT events).length = events.length := by
  induction events generalizing documentLength previousT with
  | nil => rfl
  | cons event events ih => rw [timelinePointsFrom, List.length_cons, List.length_cons, ih]

/-! ## The paged reader -/

/-- What the loop over the pages keeps; `lengths` are the values that its length has taken. -/
structure PagedReader where
  verifier : EventStreamVerifier
  kept : List Json
  length : Option Nat
  knownLengthEvents : Nat
  lengths : List (Option Nat)

namespace PagedReader

def start (verifier : EventStreamVerifier) (startingLength : Option Nat) : PagedReader where
  verifier
  kept := []
  length := startingLength
  knownLengthEvents := 0
  lengths := []

def pagedLength (length : Option Nat) (event : BufferMutation) : Option Nat :=
  match length, event.pos, event.delLen, event.insLen with
  | some length, some pos, some delLen, some insLen =>
      -- The difference of the sizes is exact and is added as a whole.
      if pos + delLen ≤ length then some (Binary64.roundNat (length + insLen - delLen)) else none
  | _, _, _, _ => none

/-- The length of the reader after some events. -/
def runningLength (startingLength : Option Nat) (events : List BufferMutation) : Option Nat :=
  events.foldl pagedLength startingLength

/-- One event of a page. -/
def readOne (P : Platform) (reader : PagedReader) (value : Json) : Except JsError PagedReader :=
  match reader.verifier.append P value with
  | (_, .error thrown) => .error thrown
  | (verifier, .ok ()) =>
      let length := pagedLength reader.length (readEvent value)
      .ok {
        verifier
        kept := reader.kept ++ [value]
        length
        knownLengthEvents :=
          if length.isSome then reader.knownLengthEvents + 1 else reader.knownLengthEvents
        lengths := reader.lengths ++ [length] }

def readAll (P : Platform) : PagedReader → List Json → Except JsError PagedReader
  | reader, [] => .ok reader
  | reader, value :: values =>
      match reader.readOne P value with
      | .error thrown => .error thrown
      | .ok next => readAll P next values

def readPage (P : Platform) (reader : PagedReader) (page : PageBody) :
    Except JsError PagedReader :=
  let total := reader.verifier.manifest.natAt (js "event_count")
  match pageEvents page total with
  | .error thrown => .error thrown
  | .ok values =>
      if !isTip page.chainTipBefore reader.verifier.tip then
        .error (.error (js "Event page does not continue the verified prefix"))
      else match reader.readAll P values with
        | .error thrown => .error thrown
        | .ok next =>
            if !isTip page.chainTipAfter next.verifier.tip then
              .error (.error (js "Event page hash does not match its events"))
            else if !isNext page.nextOffset next.verifier.count total then
              .error (.error (js "Event page cursor is inconsistent"))
            else .ok next

/-- The loop, for at most so many pages; `none` when they do not suffice. -/
def readPages (P : Platform) (page : Nat → Nat → Except JsError PageBody) :
    Nat → PagedReader → Option (Except JsError PagedReader)
  | rounds, reader =>
      if reader.verifier.count < reader.verifier.manifest.natAt (js "event_count") then
        match rounds with
        | 0 => none
        | rounds + 1 =>
            match page reader.verifier.count eventPageSize with
            | .error thrown => some (.error thrown)
            | .ok page' =>
                match reader.readPage P page' with
                | .error thrown => some (.error thrown)
                | .ok next => readPages P page rounds next
      else some (.ok reader)

theorem pagedLength_eq_exactEvent {length : Option Nat} {event : BufferMutation}
    (hafter : ∀ n ∈ exactEvent length event, n ≤ maxSafeInteger) :
    pagedLength length event = exactEvent length event := by
  unfold pagedLength
  unfold exactEvent at hafter ⊢
  generalize event.pos = pos, event.delLen = delLen, event.insLen = insLen at hafter ⊢
  split
  · rename_i length pos delLen insLen
    simp only at hafter ⊢
    by_cases hfits : pos + delLen ≤ length
    · have hplaced : ¬ (length < pos ∨ length < pos + delLen) := by omega
      rw [if_neg hplaced] at hafter
      have hsafe := hafter _ rfl
      rw [if_pos hfits, if_neg hplaced, roundNat_of_safe (by omega)]
      congr 1
      omega
    · rw [if_neg hfits, if_pos (by omega)]
  · rename_i hunknown
    cases length with
    | none => cases pos <;> cases delLen <;> cases insLen <;> rfl
    | some length =>
        cases pos with
        | none => rfl
        | some pos =>
            cases delLen with
            | none => rfl
            | some delLen =>
                cases insLen with
                | none => rfl
                | some insLen => exact absurd rfl (hunknown _ _ _ _ rfl rfl rfl)

theorem runningLength_eq_exactLength {startingLength : Option Nat}
    {events : List BufferMutation} (h : StaysSafe startingLength events) :
    runningLength startingLength events = exactLength startingLength events :=
  foldl_eq_exactLength (fun _ _ _ => pagedLength_eq_exactEvent) h

/-- While lengths stay safe, the reader has the length of the format. -/
theorem runningLength_eq {startingLength : Option Nat} {events : List BufferMutation}
    (h : StaysSafe startingLength events) :
    runningLength startingLength events = observedLength startingLength events := by
  rw [runningLength_eq_exactLength h, observedLength_eq_exactLength h]

theorem runningLength_concat (startingLength : Option Nat) (events : List BufferMutation)
    (event : BufferMutation) :
    runningLength startingLength (events ++ [event]) =
      pagedLength (runningLength startingLength events) event := by
  rw [runningLength, List.foldl_append]
  rfl

/-- The lengths are those of the events that have been read. -/
structure Follows (reader : PagedReader) (startingLength : Option Nat) : Prop where
  length_eq : reader.length = runningLength startingLength (reader.kept.map readEvent)
  lengths_length : reader.lengths.length = reader.kept.length
  lengths_eq : ∀ k < reader.kept.length, reader.lengths[k]? =
    some (runningLength startingLength ((reader.kept.map readEvent).take (k + 1)))

variable {P : Platform} {reader next : PagedReader} {startingLength : Option Nat}

theorem follows_start (verifier : EventStreamVerifier) (startingLength : Option Nat) :
    (start verifier startingLength).Follows startingLength :=
  ⟨rfl, rfl, nofun⟩

theorem readOne_ok {value : Json} (h : reader.readOne P value = .ok next) :
    reader.verifier.append P value = (next.verifier, .ok ()) ∧
      next.kept = reader.kept ++ [value] ∧
      next.length = pagedLength reader.length (readEvent value) ∧
      next.lengths = reader.lengths ++ [next.length] := by
  rw [readOne] at h
  split at h
  · cases h
  · rename_i happend
    cases h
    exact ⟨happend, rfl, rfl, rfl⟩

theorem Follows.readOne (h : reader.Follows startingLength) {value : Json}
    (hread : reader.readOne P value = .ok next) : next.Follows startingLength := by
  obtain ⟨-, hkept, hlength, hlengths⟩ := readOne_ok hread
  have hnext : next.length = runningLength startingLength (next.kept.map readEvent) := by
    rw [hlength, hkept, List.map_append, List.map_singleton, runningLength_concat, h.length_eq]
  refine ⟨hnext, ?_, fun k hk => ?_⟩
  · rw [hlengths, hkept, List.length_append, List.length_append, h.lengths_length]
    rfl
  · rw [hkept, List.length_append, List.length_singleton] at hk
    by_cases hlast : k < reader.kept.length
    · rw [hlengths, List.getElem?_append_left (by rw [h.lengths_length]; exact hlast),
        h.lengths_eq k hlast, hkept, List.map_append,
        List.take_append_of_le_length (by rw [List.length_map]; exact hlast)]
    · have hplace : k = reader.lengths.length := by
        have hlengths := h.lengths_length
        omega
      rw [hlengths, hplace, List.getElem?_concat_length, hnext, List.take_of_length_le]
      rw [List.length_map, hkept, List.length_append, h.lengths_length]
      exact Nat.le_refl _

theorem Follows.readAll (h : reader.Follows startingLength) {values : List Json}
    (hread : reader.readAll P values = .ok next) : next.Follows startingLength := by
  induction values generalizing reader with
  | nil =>
      cases hread
      exact h
  | cons value values ih =>
      rw [PagedReader.readAll] at hread
      split at hread
      · cases hread
      · rename_i hone
        exact ih (h.readOne hone) hread

/-- Reading goes on exactly as long as the verifier accepts. -/
theorem readAll_eq (reader : PagedReader) (values : List Json) :
    (reader.readAll P values).map (fun next => (next.verifier, next.kept)) =
      (reader.verifier.appendAll P values).map fun verifier => (verifier, reader.kept ++ values) := by
  induction values generalizing reader with
  | nil =>
      rw [readAll, EventStreamVerifier.appendAll, List.append_nil]
      rfl
  | cons value values ih =>
      rw [readAll, EventStreamVerifier.appendAll, readOne]
      generalize reader.verifier.append P value = appended
      obtain ⟨verifier, outcome⟩ := appended
      cases outcome with
      | error thrown => rfl
      | ok _ =>
          simp only
          rw [ih, List.append_assoc]
          rfl

theorem map_eq_ok {α β : Type} {f : α → β} {x : Except JsError α} {b : β}
    (h : x.map f = .ok b) : ∃ a, x = .ok a ∧ f a = b := by
  cases x with
  | error thrown => cases h
  | ok a =>
      cases h
      exact ⟨a, rfl, rfl⟩

theorem map_eq_error {α β : Type} {f : α → β} {x : Except JsError α} {thrown : JsError}
    (h : x.map f = .error thrown) : x = .error thrown := by
  cases x with
  | error _ =>
      cases h
      rfl
  | ok _ => cases h

theorem readPage_eq (reader : PagedReader) (page : PageBody) :
    (reader.readPage P page).map (fun next => (next.verifier, next.kept)) =
      (verifyPage P reader.verifier page).map fun (verifier, values) =>
        (verifier, reader.kept ++ values) := by
  rw [readPage, verifyPage]
  cases pageEvents page (reader.verifier.manifest.natAt (js "event_count")) with
  | error thrown => rfl
  | ok values =>
      simp only
      split
      · rfl
      have hread := reader.readAll_eq (P := P) values
      cases hcase : reader.verifier.appendAll P values with
      | error thrown =>
          rw [hcase] at hread
          rw [map_eq_error hread]
          rfl
      | ok verifier =>
          rw [hcase] at hread
          obtain ⟨next, hnext, hsame⟩ := map_eq_ok hread
          obtain ⟨hverifier, hkept⟩ := Prod.mk.inj hsame
          rw [hnext]
          simp only [hverifier]
          split
          · rfl
          split
          · rfl
          · simp only [Except.map, hverifier, hkept]

/-- The loop is that of the verification, with the lengths beside it. -/
theorem readPages_eq (page : Nat → Nat → Except JsError PageBody) (rounds : Nat)
    (reader : PagedReader) :
    (readPages P page rounds reader).map (·.map fun last => (last.verifier, last.kept)) =
      verifyPages P page rounds reader.verifier reader.kept := by
  induction rounds generalizing reader with
  | zero =>
      rw [readPages, verifyPages]
      split <;> rfl
  | succ rounds ih =>
      rw [readPages, verifyPages]
      split
      · cases page reader.verifier.count eventPageSize with
        | error thrown => rfl
        | ok found =>
            have hpage := reader.readPage_eq (P := P) found
            cases hcase : verifyPage P reader.verifier found with
            | error thrown =>
                rw [hcase] at hpage
                simp only [map_eq_error hpage, hcase]
                rfl
            | ok verified =>
                rw [hcase] at hpage
                obtain ⟨next, hnext, hsame⟩ := map_eq_ok hpage
                obtain ⟨hverifier, hkept⟩ := Prod.mk.inj hsame
                simp only [hnext, hcase]
                rw [ih, hverifier, hkept]
      · rfl

theorem Follows.readPage (h : reader.Follows startingLength) {page : PageBody}
    (hread : reader.readPage P page = .ok next) : next.Follows startingLength := by
  rw [PagedReader.readPage] at hread
  split at hread
  · cases hread
  split at hread
  · cases hread
  split at hread
  · cases hread
  rename_i hall
  split at hread
  · cases hread
  split at hread
  · cases hread
  · cases hread
    exact h.readAll hall

theorem Follows.readPages (h : reader.Follows startingLength)
    {page : Nat → Nat → Except JsError PageBody} {rounds : Nat}
    (hread : PagedReader.readPages P page rounds reader = some (.ok next)) :
    next.Follows startingLength := by
  induction rounds generalizing reader with
  | zero =>
      rw [PagedReader.readPages] at hread
      split at hread
      · cases hread
      · cases hread
        exact h
  | succ rounds ih =>
      rw [PagedReader.readPages] at hread
      split at hread
      · split at hread
        · cases hread
        split at hread
        · cases hread
        · rename_i hpage
          exact ih (h.readPage hpage) hread
      · cases hread
        exact h

end PagedReader

/-- `verifyPagedRecord` up to the end of its loop. -/
def verifyPagedLengths (P : Platform) (manifest : Json)
    (readPage : Nat → Nat → Except JsError PageBody) (startingLength : Option Nat) :
    Option (Except JsError PagedReader) :=
  match EventStreamVerifier.construct P manifest with
  | .error thrown => some (.error thrown)
  | .ok verifier =>
      PagedReader.readPages P readPage (manifest.natAt (js "event_count"))
        (.start verifier startingLength)

/-- The pages of a stored record bring the reader through its whole log. -/
theorem verifyPagedLengths_stored {A : Type} {P : Platform}
    {page : StoredRecord → Nat → Nat → Except StoreError EventPage} {record : StoredRecord}
    {values : List Json} {events : List BufferMutation} (hkept : KeptLog A P page record values)
    (h : LogOf record values events) (hmanifest : validateManifest P record.manifest.json = [])
    (refused : StoreError → JsError) (startingLength : Option Nat) :
    ∃ reader, verifyPagedLengths P record.manifest.json
        (servedPage refused (pageRoute P page record)) startingLength = some (.ok reader) ∧
      reader.kept = values ∧ reader.Follows startingLength := by
  have htotal : record.manifest.json.natAt (js "event_count") = values.length := h.count
  have hconstruct := (EventStreamVerifier.construct_eq_ok (P := P)).2
    ⟨hmanifest, (rfl : (_ : EventStreamVerifier) = _)⟩
  have hstart : EventStreamVerifier.Accepts P record.manifest.json (values.take 0)
      (events.take 0) _ := EventStreamVerifier.accepts_nil P record.manifest.json
  obtain ⟨last, hlast, -⟩ := @verifyPages_stored A P page record values events hkept h
    hmanifest refused values.length 0 _ [] (by omega) hstart
  have hpages := PagedReader.readPages_eq (P := P)
    (servedPage refused (pageRoute P page record)) values.length
    (.start { manifest := record.manifest.json, count := 0, lastTime := -1, tip := none,
              failure := none } startingLength)
  rw [List.drop_zero, List.nil_append] at hlast
  rw [PagedReader.start, hlast] at hpages
  obtain ⟨outcome, houtcome, hok⟩ := Option.map_eq_some_iff.1 hpages
  obtain ⟨reader, rfl, hsame⟩ := PagedReader.map_eq_ok hok
  obtain ⟨-, hkeptAll⟩ := Prod.mk.inj hsame
  refine ⟨reader, ?_, hkeptAll, ?_⟩
  · rw [verifyPagedLengths, hconstruct, htotal]
    exact houtcome
  · exact (PagedReader.follows_start _ startingLength).readPages houtcome

/-! ## Agreement -/

/-- The four computations of the length of a document agree after every prefix of a log.
The reader of pages does so while lengths stay safe, and all are exact then. -/
structure LengthsAgree (P : Platform) (events : List BufferMutation)
    (startingLength : Option Nat) : Prop where
  format : ∀ k, computeObservedLength P ((events.take k).map BufferMutation.toJson)
    startingLength = .ok (observedLength startingLength (events.take k))
  /-- However the accumulator is stored on the way. -/
  analysis : ∀ k idleThresholdMs options first s,
    createAnalysisAccumulator idleThresholdMs options = .ok first →
    options.startingLength.getD (some 0) = startingLength → Analyzed first (events.take k) s →
      s.observedLength = observedLength startingLength (events.take k) ∧
      ∀ event, events[k]? = some event → ∃ next, appendAnalysisEvent s event = .ok next
  timeline_length : (buildTimelinePoints events startingLength).length = events.length
  timeline : ∀ k point, (buildTimelinePoints events startingLength)[k]? = some point →
    point.documentLength = observedLength startingLength (events.take (k + 1))
  exact : ∀ k, StaysSafe startingLength (events.take k) →
    observedLength startingLength (events.take k) = exactLength startingLength (events.take k)
  /-- In the middle of a page. -/
  reading : ∀ k verifier values reader, StaysSafe startingLength (events.take k) →
    ReadsAsLog values (events.take k) →
    (PagedReader.start verifier startingLength).readAll P values = .ok reader →
      reader.length = observedLength startingLength (events.take k)
  /-- Whatever pages the reader is given. -/
  pages : ∀ manifest readPage reader,
    verifyPagedLengths P manifest readPage startingLength = some (.ok reader) →
    ReadsAsLog reader.kept events →
    ∀ k < events.length, StaysSafe startingLength (events.take (k + 1)) →
      reader.lengths[k]? = some (observedLength startingLength (events.take (k + 1)))
  /-- The pages of a stored record bring the reader through its whole log. -/
  stored : ∀ (A : Type) (page : StoredRecord → Nat → Nat → Except StoreError EventPage)
    (record : StoredRecord) (values : List Json), KeptLog A P page record values →
    LogOf record values events → validateManifest P record.manifest.json = [] →
    ∀ refused, ∃ reader, verifyPagedLengths P record.manifest.json
        (servedPage refused (pageRoute P page record)) startingLength = some (.ok reader) ∧
      ReadsAsLog reader.kept events

/-- While lengths stay safe, the lengths that a reader has kept are those of the format. -/
theorem PagedReader.Follows.lengths_observed {reader : PagedReader}
    {startingLength : Option Nat} (h : reader.Follows startingLength)
    {events : List BufferMutation} (hreads : ReadsAsLog reader.kept events) {k : Nat}
    (hk : k < events.length) (hsafe : StaysSafe startingLength (events.take (k + 1))) :
    reader.lengths[k]? = some (observedLength startingLength (events.take (k + 1))) := by
  have hplace : k < reader.kept.length := by
    rw [hreads.length_eq]
    exact hk
  rw [h.lengths_eq k hplace, hreads.map_readEvent, PagedReader.runningLength_eq hsafe]

theorem lengths_agree (P : Platform) {events : List BufferMutation} (hvalid : ValidLog events)
    (startingLength : Option Nat) : LengthsAgree P events startingLength where
  format k := computeObservedLength_eq (readsAsLog_toJson _) (validLog_take hvalid k)
    startingLength
  analysis := by
    intro k idleThresholdMs options first s hfirst hstarting hanalyzed
    obtain ⟨-, -, -, hlength⟩ := createAnalysisAccumulator_ok hfirst
    refine ⟨?_, fun event hevent => ?_⟩
    · rw [hanalyzed.observedLength_eq, hlength, hstarting]
    · have hmore : ValidLog (events.take k ++ [event]) := by
        have htake := validLog_take hvalid (k + 1)
        rw [List.take_add_one, hevent] at htake
        exact htake
      obtain ⟨next, hnext, -⟩ := hanalyzed.next hfirst hmore
      exact ⟨next, hnext⟩
  timeline_length := length_timelinePointsFrom events startingLength 0
  timeline _ _ := timelinePointsFrom_length
  exact _ := observedLength_eq_exactLength
  reading := by
    intro k verifier values reader hsafe hreads hread
    have hfollows := (PagedReader.follows_start verifier startingLength).readAll hread
    have hkept : reader.kept = values := by
      have hboth := (PagedReader.start verifier startingLength).readAll_eq (P := P) values
      rw [hread] at hboth
      obtain ⟨_, -, hsame⟩ := PagedReader.map_eq_ok hboth.symm
      exact (Prod.mk.inj hsame).2.symm
    rw [hfollows.length_eq, hkept, hreads.map_readEvent, PagedReader.runningLength_eq hsafe]
  pages := by
    intro manifest readPage reader hread hreads k hk hsafe
    rw [verifyPagedLengths] at hread
    split at hread
    · cases hread
    · exact ((PagedReader.follows_start _ startingLength).readPages hread).lengths_observed
        hreads hk hsafe
  stored := by
    intro A page record values hkept hlog hmanifest refused
    obtain ⟨reader, hread, hall, -⟩ :=
      verifyPagedLengths_stored hkept hlog hmanifest refused startingLength
    refine ⟨reader, hread, ?_⟩
    rw [hall]
    exact hlog.reads

/-! ## A replacement -/

def replacement : BufferMutation where
  seq := 0
  t := 0
  op := .replace
  pos := some 0
  delLen := some 1
  insLen := some 2
  source := .typing

theorem validLog_replacement : ValidLog [replacement] := by
  refine (@validLog_concat [] replacement).2 ⟨⟨nofun, nofun, .nil⟩, ?_, rfl, nofun⟩
  exact ⟨by decide, by decide, by decide, by decide, by decide, by decide⟩

def replacementManifest : RecordManifest where
  json := .obj [(js "format_version", .str (js "0.1")),
    (js "record_hash", .str RecordStore.exampleHash.text),
    (js "session_id", .str RecordStore.exampleSessionId),
    (js "producer", .obj [(js "id", .str (js "fixture")), (js "version", .str (js "0.1.0")),
      (js "capabilities", .arr [])]),
    (js "event_count", Json.ofNat 1), (js "duration_ms", Json.ofNat 0),
    (js "attestations", .arr [])]
  wellFormed := by decide
  recordHash := RecordStore.exampleHash
  recorded := rfl

def replacementRecord : StoredRecord where
  manifest := replacementManifest
  events := [replacement.toJson]
  eventStorage := .inline
  shortSignature := js "short"
  stats := .obj []
  signals := []
  observation := notRequestedObservation
  createdAt := js "now"

theorem replacementRecord_log :
    LogOf replacementRecord [replacement.toJson] [replacement] where
  reads := readsAsLog_toJson [replacement]
  validLog := validLog_replacement
  session := by decide
  nonempty := List.cons_ne_nil _ _
  count := rfl

theorem replacementManifest_valid :
    validateManifest Platform.standard replacementManifest.json = [] := by
  decide +kernel

theorem replacementRecord_kept (page : StoredRecord → Nat → Nat → Except StoreError EventPage) :
    KeptLog Unit Platform.standard page replacementRecord [replacement.toJson] :=
  .inline rfl rfl

theorem staysSafe_replacement : StaysSafe (some 5) [replacement] := by
  intro k length hlength
  match k with
  | 0 =>
      cases hlength
      decide
  | k + 1 =>
      rw [List.take_succ_cons, List.take_nil] at hlength
      cases hlength
      decide

def emptyTables : PostgresTables := ⟨[], []⟩

def refusedPage (_ : StoreError) : JsError := .error (js "no page")

theorem lengths_agree_replacement :
    computeObservedLength .standard ([replacement].map BufferMutation.toJson) (some 5) =
        .ok (some 6) ∧
      (∃ first s, createAnalysisAccumulator none { startingLength := some (some 5) } =
          .ok first ∧ Analyzed first [replacement] s ∧ s.observedLength = some 6) ∧
      (∀ point, (buildTimelinePoints [replacement] (some 5))[0]? = some point →
        point.documentLength = some 6) ∧
      ∃ reader, verifyPagedLengths .standard replacementManifest.json
          (servedPage refusedPage (pageRoute .standard emptyTables.page replacementRecord))
          (some 5) = some (.ok reader) ∧
        reader.lengths[0]? = some (some 6) := by
  have hagree := lengths_agree .standard validLog_replacement (some 5)
  have hlength : observedLength (some 5) [replacement] = some 6 := by
    rw [observedLength_eq_exactLength staysSafe_replacement]
    rfl
  refine ⟨?_, ?_, ?_, ?_⟩
  · rw [← hlength]
    exact hagree.format 1
  · obtain ⟨first, hfirst⟩ : ∃ first, createAnalysisAccumulator none
        { startingLength := some (some 5) } = .ok first := ⟨_, rfl⟩
    obtain ⟨s, -, hs⟩ := Analyzed.start.next hfirst validLog_replacement
    refine ⟨first, s, hfirst, hs, ?_⟩
    rw [← hlength]
    exact (hagree.analysis 1 none { startingLength := some (some 5) } first s hfirst rfl hs).1
  · intro point hpoint
    rw [← hlength]
    exact hagree.timeline 0 point hpoint
  · obtain ⟨reader, hread, hkept⟩ := hagree.stored Unit emptyTables.page replacementRecord
      [replacement.toJson] (replacementRecord_kept _) replacementRecord_log
      replacementManifest_valid refusedPage
    refine ⟨reader, hread, ?_⟩
    rw [← hlength]
    exact hagree.pages _ _ reader hread hkept 0 (by decide) staysSafe_replacement

/-- Past the safe integers the reader and the format round to different lengths. -/
theorem not_lengths_agree_rounded : ∃ reader,
    verifyPagedLengths .standard replacementManifest.json
        (servedPage refusedPage (pageRoute .standard emptyTables.page replacementRecord))
        (some 9007199254740994) = some (.ok reader) ∧
      reader.lengths[0]? = some (some 9007199254740996) ∧
      computeObservedLength .standard ([replacement].map BufferMutation.toJson)
        (some 9007199254740994) = .ok (some 9007199254740994) := by
  obtain ⟨reader, hread, hkept, hfollows⟩ :=
    verifyPagedLengths_stored (replacementRecord_kept emptyTables.page) replacementRecord_log
      replacementManifest_valid refusedPage (some 9007199254740994)
  have hrunning : PagedReader.runningLength (some 9007199254740994)
      (([replacement.toJson].map readEvent).take 1) = some 9007199254740996 := by
    decide +kernel
  have hobserved : observedLength (some 9007199254740994) [replacement] =
      some 9007199254740994 := by
    decide +kernel
  refine ⟨reader, hread, ?_, ?_⟩
  · have hfirst := hfollows.lengths_eq 0 (by rw [hkept]; decide)
    rw [hkept, hrunning] at hfirst
    exact hfirst
  · have hcomputed := computeObservedLength_eq (P := .standard) (readsAsLog_toJson _)
      validLog_replacement (some 9007199254740994)
    rw [hobserved] at hcomputed
    exact hcomputed

end Pmbah.Analysis
