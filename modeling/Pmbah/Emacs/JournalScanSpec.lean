import Pmbah.Emacs.JournalScan

/-!
# What a scan has seen

A scan that returns has advanced the chain over the first items that it read,
has matched every anchor at the prefix that the anchor names, and stands where
any other scan of those items would.
-/

namespace Pmbah.Emacs

open Js Format Library

variable {P : Platform} {sessionId : JsString} {version : FormatVersion}

/-! ## Advancing over items -/

/-- The cursor after items, by the checks of sequence, time and event alone. -/
def advanceAll (P : Platform) (sessionId : JsString) (version : FormatVersion) :
    List JournalItem → Cursor → Except JsError Cursor
  | [], cursor => .ok cursor
  | item :: items, cursor =>
      match advanceCursor P sessionId version cursor item with
      | .error thrown => .error thrown
      | .ok after => advanceAll P sessionId version items after

theorem advanceAll_append (xs ys : List JournalItem) (cursor : Cursor) :
    advanceAll P sessionId version (xs ++ ys) cursor =
      match advanceAll P sessionId version xs cursor with
      | .error thrown => .error thrown
      | .ok after => advanceAll P sessionId version ys after := by
  induction xs generalizing cursor with
  | nil => rfl
  | cons item xs ih =>
      rw [List.cons_append, advanceAll, advanceAll]
      cases advanceCursor P sessionId version cursor item with
      | error thrown => rfl
      | ok after => exact ih after

/-- A hash is there once an event has been read. -/
def Cursor.Begun (cursor : Cursor) : Prop := cursor.chainTip = none ↔ cursor.eventCount = 0

theorem less_t_of_readsAs {value : Json} {event : BufferMutation} (h : ReadsAs value event)
    (time : Nat) :
    P.less (value.field (js "t")) (some (Json.ofNat time)) = .ok (decide (event.t < time)) := by
  rw [h.t]
  simp [Platform.less, Json.ofNat, Json.conversionThrows, JsNumber.ofNat]

/-- The next event is accepted exactly when it continues a valid log. -/
theorem advanceCursor_ok {cursor after : Cursor} {item : JournalItem} (hbegun : cursor.Begun) :
    advanceCursor P sessionId version cursor item = .ok after ↔
      isUuid sessionId = true ∧ ∃ event : BufferMutation, event.Valid ∧
        ReadsAs item.event event ∧ event.seq = cursor.eventCount ∧
        cursor.lastTime ≤ event.t ∧
        after = ⟨cursor.eventCount + 1,
          some ((eventScheme P).advance (chainStart sessionId version) cursor.chainTip event),
          item.endByte, event.t⟩ := by
  constructor
  · intro h
    unfold advanceCursor at h
    split at h
    · cases h
    · split at h
      · cases h
      · rename_i hseq
        split at h
        · cases h
        · cases h
        · rename_i hless
          cases hadvance : advanceEventHash P cursor.chainTip item.event sessionId version with
          | error thrown =>
              rw [hadvance] at h
              cases h
          | ok tip =>
              rw [hadvance] at h
              cases h
              obtain ⟨huuid, event, hvalid, hreads, -, rfl⟩ := advanceEventHash_ok.1 hadvance
              rw [hreads.seq, number?_ofNat, not_not, Option.some.injEq, ofNat_inj] at hseq
              rw [less_t_of_readsAs hreads, Except.ok.injEq, decide_eq_false_iff_not,
                Nat.not_lt] at hless
              refine ⟨huuid, event, hvalid, hreads, hseq, hless, ?_⟩
              rw [natAt_t_of_readsAs hreads]
  · rintro ⟨huuid, event, hvalid, hreads, hseq, htime, rfl⟩
    have hadvance : advanceEventHash P cursor.chainTip item.event sessionId version =
        .ok ((eventScheme P).advance (chainStart sessionId version) cursor.chainTip event) :=
      advanceEventHash_ok.2 ⟨huuid, event, hvalid, hreads, by rw [hseq]; exact hbegun, rfl⟩
    have hnumber : Json.number? (item.event.field (js "seq")) =
        some (.ofNat cursor.eventCount) := by
      rw [hreads.seq, number?_ofNat, hseq]
    have hless : P.less (item.event.field (js "t")) (some (Json.ofNat cursor.lastTime)) =
        .ok false := by
      rw [less_t_of_readsAs hreads, Except.ok.injEq, decide_eq_false_iff_not]
      omega
    unfold advanceCursor
    split
    · rename_i hnull
      rw [hnull] at hreads
      cases hreads.isObject
    · rw [if_neg (not_not.2 hnumber), hless, hadvance, natAt_t_of_readsAs hreads]
      rfl

/-- Where a cursor stands after the events of items. -/
def Cursor.after (P : Platform) (sessionId : JsString) (version : FormatVersion)
    (cursor : Cursor) (items : List JournalItem) (events : List BufferMutation) : Cursor where
  eventCount := cursor.eventCount + items.length
  chainTip := (eventScheme P).tipFrom (chainStart sessionId version) cursor.chainTip events
  byteOffset := (items.getLast?.map JournalItem.endByte).getD cursor.byteOffset
  lastTime := (events.getLast?.map BufferMutation.t).getD cursor.lastTime

/-- The cursor after one event. -/
def Cursor.next (P : Platform) (sessionId : JsString) (version : FormatVersion)
    (cursor : Cursor) (item : JournalItem) (event : BufferMutation) : Cursor where
  eventCount := cursor.eventCount + 1
  chainTip :=
    some ((eventScheme P).advance (chainStart sessionId version) cursor.chainTip event)
  byteOffset := item.endByte
  lastTime := event.t

theorem getLast?_cons_getD {α β : Type} (f : α → β) (item : α) (items : List α) (default : β) :
    ((item :: items).getLast?.map f).getD default = (items.getLast?.map f).getD (f item) := by
  rw [List.getLast?_cons]
  cases items.getLast? <;> rfl

theorem Cursor.after_cons (cursor : Cursor) (item : JournalItem) (items : List JournalItem)
    (event : BufferMutation) (events : List BufferMutation) :
    cursor.after P sessionId version (item :: items) (event :: events) =
      (cursor.next P sessionId version item event).after P sessionId version items events := by
  unfold Cursor.after Cursor.next
  rw [getLast?_cons_getD, getLast?_cons_getD, List.length_cons, ChainScheme.tipFrom,
    Nat.add_right_comm, Nat.add_assoc]

theorem Cursor.next_begun (cursor : Cursor) (item : JournalItem) (event : BufferMutation) :
    (cursor.next P sessionId version item event).Begun := by
  simp [Cursor.Begun, Cursor.next]

/-- Items are advanced over exactly when their events continue a valid log. -/
theorem advanceAll_ok {items : List JournalItem} {cursor after : Cursor}
    (hbegun : cursor.Begun) :
    advanceAll P sessionId version items cursor = .ok after ↔
      ∃ events, ReadsAsLog (items.map JournalItem.event) events ∧
        ValidFrom cursor.eventCount cursor.lastTime events ∧
        (items = [] ∨ isUuid sessionId = true) ∧
        after = cursor.after P sessionId version items events := by
  induction items generalizing cursor after with
  | nil =>
      rw [advanceAll, Except.ok.injEq]
      constructor
      · intro h
        exact ⟨[], .nil, trivial, Or.inl rfl, h.symm⟩
      · rintro ⟨events, hlog, -, -, rfl⟩
        rw [List.forall₂_nil_left_iff.1 hlog]
        rfl
  | cons item items ih =>
      rw [advanceAll]
      constructor
      · intro h
        split at h
        · cases h
        · rename_i next hnext
          obtain ⟨huuid, event, hvalid, hreads, hseq, htime, rfl⟩ :=
            (advanceCursor_ok hbegun).1 hnext
          obtain ⟨events, hlog, hfrom, -, rfl⟩ :=
            (ih (cursor.next_begun item event)).1 h
          refine ⟨event :: events, .cons hreads hlog, ⟨hvalid, hseq, by omega, hfrom⟩,
            Or.inr huuid, ?_⟩
          exact (cursor.after_cons item items event events).symm
      · rintro ⟨events, hlog, hfrom, huuid, rfl⟩
        obtain ⟨event, rest, hreads, hrest, rfl⟩ := List.forall₂_cons_left_iff.1 hlog
        obtain ⟨hvalid, hseq, htime, hfrom⟩ := hfrom
        have huuid : isUuid sessionId = true := huuid.resolve_left (List.cons_ne_nil _ _)
        have hnext : advanceCursor P sessionId version cursor item =
            .ok (cursor.next P sessionId version item event) :=
          (advanceCursor_ok hbegun).2
            ⟨huuid, event, hvalid, hreads, hseq, by omega, rfl⟩
        have hbegun' : (cursor.next P sessionId version item event).Begun :=
          cursor.next_begun item event
        rw [hnext, cursor.after_cons]
        exact (ih hbegun').2 ⟨rest, hrest, hfrom, Or.inr huuid, rfl⟩

/-! ## Checks on the way -/

theorem checkMatches_ok {cursor : Cursor} {anchors : List JournalAnchor}
    (h : checkMatches cursor anchors = .ok ()) :
    ∀ anchor ∈ anchors, anchor.matchesCursor cursor = true := by
  induction anchors with
  | nil => exact fun anchor hanchor => (List.not_mem_nil hanchor).elim
  | cons first anchors ih =>
      rw [checkMatches] at h
      split at h
      · rename_i hfirst
        intro anchor hanchor
        rcases List.mem_cons.1 hanchor with rfl | hanchor
        · exact hfirst
        · exact ih h anchor hanchor
      · cases h

/-- The anchors of a count are matched and dropped. -/
theorem checkAnchors_ok {input : InspectInput} {cursor : Cursor}
    {anchors rest : List JournalAnchor} (h : checkAnchors P input cursor anchors = .ok rest) :
    checkFrozen P input cursor = .ok () ∧
      rest = (anchors.filter fun anchor => anchor.eventCount ≠ cursor.eventCount) ∧
      ∀ anchor ∈ anchors, anchor ∈ rest ∨
        anchor.eventCount = cursor.eventCount ∧ anchor.matchesCursor cursor = true := by
  simp only [checkAnchors, bind_eq_ok] at h
  obtain ⟨_, hmatches, _, hfrozen, hrest⟩ := h
  cases hrest
  refine ⟨hfrozen, rfl, ?_⟩
  intro anchor hanchor
  by_cases hcount : anchor.eventCount = cursor.eventCount
  · right
    refine ⟨hcount, checkMatches_ok hmatches anchor ?_⟩
    exact List.mem_filter.2 ⟨hanchor, decide_eq_true hcount⟩
  · left
    exact List.mem_filter.2 ⟨hanchor, decide_eq_true hcount⟩

/-- The anchor was matched after some of the items. -/
def MatchedAt (P : Platform) (input : InspectInput) (items : List JournalItem)
    (start : Cursor) (anchor : JournalAnchor) : Prop :=
  ∃ count cursor, count ≤ items.length ∧
    advanceAll P input.sessionId input.version (items.take count) start = .ok cursor ∧
    anchor.eventCount = cursor.eventCount ∧ anchor.matchesCursor cursor = true

/-- What a loop that returns has done. -/
structure Scanned (P : Platform) (input : InspectInput) (maxCount : Nat)
    (items : List JournalItem) (scan after : JournalScan) (stopped : Bool) (count : Nat) :
    Prop where
  count_le : count ≤ items.length
  advanced : advanceAll P input.sessionId input.version (items.take count) scan.cursor =
    .ok after.cursor
  anchored : ∀ anchor ∈ scan.anchors, anchor ∈ after.anchors ∨
    MatchedAt P input (items.take count) scan.cursor anchor
  frozen : checkFrozen P input scan.cursor = .ok () → checkFrozen P input after.cursor = .ok ()
  whole : stopped = false → count = items.length
  limit : stopped = true → after.cursor.eventCount = maxCount

theorem scanItems_ok {input : InspectInput} {maxCount : Nat} {items : List JournalItem}
    {scan after : JournalScan} {stopped : Bool}
    (h : scanItems P input maxCount items scan = .ok (after, stopped)) :
    ∃ count, Scanned P input maxCount items scan after stopped count := by
  induction items generalizing scan with
  | nil =>
      cases h
      refine ⟨0, Nat.le_refl 0, rfl, fun anchor hanchor => Or.inl hanchor, id, fun _ => rfl, ?_⟩
      intro hstopped
      cases hstopped
  | cons item items ih =>
      rw [scanItems] at h
      split at h
      · rename_i hlimit
        cases h
        refine ⟨0, Nat.zero_le _, rfl, fun anchor hanchor => Or.inl hanchor, id, ?_, ?_⟩
        · intro hstopped
          cases hstopped
        · exact fun _ => hlimit
      · simp only [bind_eq_ok] at h
        obtain ⟨cursor, hcursor, anchors, hanchors, hscan⟩ := h
        obtain ⟨hfrozen, hrest, hmatched⟩ := checkAnchors_ok hanchors
        obtain ⟨count, hscanned⟩ := ih hscan
        have hstep : ∀ n, advanceAll P input.sessionId input.version
            ((item :: items).take (n + 1)) scan.cursor =
              advanceAll P input.sessionId input.version (items.take n) cursor := by
          intro n
          rw [List.take_succ_cons, advanceAll, hcursor]
        refine ⟨count + 1, Nat.succ_le_succ hscanned.count_le, ?_, ?_,
          fun _ => hscanned.frozen hfrozen, ?_, hscanned.limit⟩
        · rw [hstep]
          exact hscanned.advanced
        · intro anchor hanchor
          rcases hmatched anchor hanchor with hleft | ⟨hcount, hmatch⟩
          · rcases hscanned.anchored anchor hleft with hafter | ⟨n, reached, hn, hreached, hat⟩
            · exact Or.inl hafter
            · refine Or.inr ⟨n + 1, reached, ?_, ?_, hat⟩
              · rw [List.take_succ_cons, List.length_cons]
                omega
              · rw [List.take_succ_cons, List.take_succ_cons, advanceAll, hcursor]
                exact hreached
          · refine Or.inr ⟨1, cursor, ?_, ?_, hcount, hmatch⟩
            · rw [List.take_succ_cons, List.length_cons]
              omega
            · rw [List.take_succ_cons, List.take_succ_cons, advanceAll, hcursor]
              rfl
        · intro hstopped
          rw [hscanned.whole hstopped, List.length_cons]

/-! ## Whole scans -/

/-- What a scan that returns has read and checked. -/
structure ScanHolds (P : Platform) (input : InspectInput) (reading : Reading)
    (anchors : List JournalAnchor) (cursor : Cursor) (count : Nat) : Prop where
  repairs : checkRepair input = .ok ()
  count_le : count ≤ reading.items.length
  advanced : advanceAll P input.sessionId input.version (reading.items.take count)
    input.cursor = .ok cursor
  started : anchors = [] ∨ input.cursor.eventCount = 0 ∧ input.cursor.byteOffset = 0 ∧
    input.cursor.chainTip = none
  anchored : ∀ anchor ∈ anchors,
    MatchedAt P input (reading.items.take count) input.cursor anchor
  sealed : checkFrozen P input cursor = .ok ()
  frozenCount : ∀ frozen ∈ present input.frozenManifest,
    Json.number? (frozen.field (js "event_count")) = some (.ofNat cursor.eventCount)
  bounded : ∀ n ∈ input.eventCount, cursor.eventCount = n
  whole : count = reading.items.length ∧ (∃ tail, reading.outcome = .ok tail) ∨
    cursor.eventCount = input.maxCount

theorem checkEnd_ok {input : InspectInput} {scan : JournalScan}
    (h : checkEnd input scan = .ok ()) :
    scan.anchors = [] ∧ (∀ n ∈ input.eventCount, scan.cursor.eventCount = n) ∧
      ∀ frozen ∈ present input.frozenManifest,
        Json.number? (frozen.field (js "event_count")) =
          some (.ofNat scan.cursor.eventCount) := by
  unfold checkEnd at h
  split at h
  · cases h
  · rename_i hcount
    split at h
    · cases h
    · rename_i hanchors
      split at h
      · cases h
      · rename_i hfrozen
        refine ⟨by simpa using hanchors, ?_, ?_⟩
        · intro n hn
          rw [InspectInput.maxCount, hn, Option.isSome_some, Option.getD_some] at hcount
          by_contra hne
          exact hcount ⟨rfl, hne⟩
        · intro frozen hmem
          rw [hmem, Option.any_some, decide_eq_true_eq, not_not] at hfrozen
          exact hfrozen

theorem scanJournal_ok {numbers : NumberSyntax P} {cuts : ReadCuts} {file : List UInt8}
    {input : InspectInput} {result : InspectResult}
    (h : scanJournal numbers cuts file input = .ok result) :
    ∃ anchors count, readAnchors P input = .ok anchors ∧
      ScanHolds P input
        (journalEvents numbers cuts file input.cursor.byteOffset input.endByte) anchors
        result.cursor count := by
  simp only [scanJournal, bind_eq_ok] at h
  obtain ⟨_, hrepair, anchors, hanchors, _, hstart, pending, hpending, _, hcursor,
    ⟨scan, stopped⟩, hscan, h⟩ := h
  obtain ⟨hfrozen, -, hmatched⟩ := checkAnchors_ok hpending
  obtain ⟨count, hscanned⟩ := scanItems_ok hscan
  have hend : checkEnd input scan = .ok () ∧ result = ⟨scan.cursor, scan.tail⟩ ∧
      (stopped = false → ∃ tail, (journalEvents numbers cuts file input.cursor.byteOffset
        input.endByte).outcome = .ok tail) := by
    cases stopped with
    | true =>
        simp only [Bool.not_true, Bool.false_eq_true, if_false, bind_eq_ok] at h
        obtain ⟨_, hend, hresult⟩ := h
        cases hresult
        exact ⟨hend, rfl, nofun⟩
    | false =>
        simp only [Bool.not_false, if_true, bind_eq_ok] at h
        obtain ⟨tail, houtcome, _, hend, hresult⟩ := h
        cases hresult
        exact ⟨hend, rfl, fun _ => ⟨tail, houtcome⟩⟩
  obtain ⟨hend, rfl, houtcome⟩ := hend
  obtain ⟨hnone, hbound, hcount⟩ := checkEnd_ok hend
  refine ⟨anchors, count, hanchors, hrepair, hscanned.count_le, hscanned.advanced, ?_, ?_,
    hscanned.frozen hfrozen, hcount, hbound, ?_⟩
  · unfold checkStart at hstart
    split at hstart
    · cases hstart
    · rename_i hstarted
      rw [Bool.and_eq_true, not_and_or, decide_eq_true_eq] at hstarted
      rcases hstarted with hnil | hzero
      · exact Or.inl (by simpa using hnil)
      · right
        push Not at hzero
        exact hzero
  · intro anchor hanchor
    rcases hmatched anchor hanchor with hleft | ⟨hcount, hmatch⟩
    · rcases hscanned.anchored anchor hleft with hafter | hat
      · rw [hnone] at hafter
        exact (List.not_mem_nil hafter).elim
      · exact hat
    · exact ⟨0, input.cursor, Nat.zero_le _, rfl, hcount, hmatch⟩
  · cases hstopped : stopped with
    | true => exact Or.inr (hscanned.limit hstopped)
    | false => exact Or.inl ⟨hscanned.whole hstopped, houtcome hstopped⟩

end Pmbah.Emacs
