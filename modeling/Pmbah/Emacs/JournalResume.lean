import Pmbah.Emacs.JournalScanSpec

/-!
# Scans that go on

A scan from a cursor that an earlier scan returned ends where a scan from the
start does.  Anchors are matched before the file is touched, and the repair
removes no more than an incomplete last line.
-/

namespace Pmbah.Emacs

open Js Format Library

variable {P : Platform} {sessionId : JsString} {version : FormatVersion}

/-! ## Cursors of earlier scans -/

/-- A scan of the first items of the file stands at the cursor. -/
def Reached (numbers : NumberSyntax P) (sessionId : JsString) (version : FormatVersion)
    (file : List UInt8) (cursor : Cursor) : Prop :=
  ∃ count, advanceAll P sessionId version ((readAll numbers file 0).items.take count)
    Cursor.start = .ok cursor

theorem Cursor.start_begun : Cursor.start.Begun := ⟨fun _ => rfl, fun _ => rfl⟩

theorem items_readAll (numbers : NumberSyntax P) (bytes : List UInt8) (offset : Nat) :
    (readAll numbers bytes offset).items = (completeLines numbers bytes offset).1 := by
  rw [readAll_eq]
  cases completeLines numbers bytes offset with
  | mk items outcome =>
      cases outcome with
      | error thrown => rfl
      | ok read =>
          by_cases h : maxLineBytes < read.1.length
          · simp only [finishReading, if_pos h]
          · simp only [finishReading, if_neg h]

theorem length_lineItems {lines : List (List UInt8)} {values : List Json}
    (h : lines.length = values.length) (offset : Nat) :
    (lineItems lines values offset).length = lines.length := by
  rw [← List.length_map (f := JournalItem.event), lineItems_event h, h]

theorem lineItems_append {lines more : List (List UInt8)} {values others : List Json}
    (h : lines.length = values.length) (offset : Nat) :
    lineItems (lines ++ more) (values ++ others) offset =
      lineItems lines values offset ++
        lineItems more others (offset + (lineBytes lines).length) := by
  induction lines generalizing values offset with
  | nil =>
      cases values with
      | nil => rfl
      | cons value values => cases h
  | cons line lines ih =>
      cases values with
      | nil => cases h
      | cons value values =>
          have hend : offset + line.length + 1 + (lineBytes lines).length =
              offset + (line.length + 1 + (lineBytes lines).length) := by omega
          rw [List.cons_append, List.cons_append, lineItems, lineItems, ih (Nat.succ.inj h),
            length_lineBytes_cons, hend]
          rfl

theorem lineBytes_append (lines more : List (List UInt8)) :
    lineBytes (lines ++ more) = lineBytes lines ++ lineBytes more :=
  List.flatMap_append

/-- The complete lines at whose end a cursor stands. -/
structure StandsAt (numbers : NumberSyntax P) (sessionId : JsString) (version : FormatVersion)
    (file : List UInt8) (cursor : Cursor) (lines : List (List UInt8)) (values : List Json)
    (rest : List UInt8) : Prop where
  consumed : Consumed numbers file lines values rest
  advanced : advanceAll P sessionId version (lineItems lines values 0) Cursor.start =
    .ok cursor

section

variable {numbers : NumberSyntax P} {file rest : List UInt8} {cursor : Cursor}
  {lines : List (List UInt8)} {values : List Json}

theorem Consumed.length_eq (h : Consumed numbers file lines values rest) :
    lines.length = values.length :=
  h.reads.length_eq

theorem StandsAt.byteOffset
    (h : StandsAt numbers sessionId version file cursor lines values rest) :
    cursor.byteOffset = (lineBytes lines).length := by
  obtain ⟨events, -, -, -, rfl⟩ := (advanceAll_ok Cursor.start_begun).1 h.advanced
  exact (lineItems_last h.consumed.length_eq 0).trans (Nat.zero_add _)

theorem StandsAt.eventCount
    (h : StandsAt numbers sessionId version file cursor lines values rest) :
    cursor.eventCount = lines.length := by
  obtain ⟨events, -, -, -, rfl⟩ := (advanceAll_ok Cursor.start_begun).1 h.advanced
  exact (Nat.zero_add _).trans (length_lineItems h.consumed.length_eq 0)

theorem StandsAt.reached
    (h : StandsAt numbers sessionId version file cursor lines values rest) :
    Reached numbers sessionId version file cursor := by
  have htake : (lineItems lines values 0 ++
      (readAll numbers rest (0 + (lineBytes lines).length)).items).take lines.length =
        lineItems lines values 0 :=
    List.take_left' (length_lineItems h.consumed.length_eq 0)
  refine ⟨lines.length, ?_⟩
  rw [h.consumed.bytes_eq, readAll_lines numbers h.consumed.reads, htake]
  exact h.advanced

theorem Reached.standsAt (h : Reached numbers sessionId version file cursor) :
    ∃ lines values rest, StandsAt numbers sessionId version file cursor lines values rest := by
  obtain ⟨count, hadvanced⟩ := h
  obtain ⟨lines, values, rest, hconsumed, hitems⟩ := completeLines_take numbers file 0 count
  rw [items_readAll, hitems] at hadvanced
  exact ⟨lines, values, rest, hconsumed, hadvanced⟩

theorem reached_start (numbers : NumberSyntax P) (file : List UInt8) :
    Reached numbers sessionId version file Cursor.start :=
  ⟨0, rfl⟩

/-- What has been reached stays so when the file grows. -/
theorem Reached.append (h : Reached numbers sessionId version file cursor)
    (more : List UInt8) : Reached numbers sessionId version (file ++ more) cursor := by
  obtain ⟨lines, values, rest, hstands⟩ := h.standsAt
  have hgrown : StandsAt numbers sessionId version (file ++ more) cursor lines values
      (rest ++ more) := by
    refine ⟨⟨?_, hstands.consumed.reads⟩, hstands.advanced⟩
    rw [hstands.consumed.bytes_eq, List.append_assoc]
  exact hgrown.reached

theorem StandsAt.byteOffset_le
    (h : StandsAt numbers sessionId version file cursor lines values rest) :
    cursor.byteOffset ≤ file.length := by
  rw [h.byteOffset, h.consumed.bytes_eq, List.length_append]
  omega

/-- The bytes up to an end that is not before the cursor. -/
theorem StandsAt.bytesUpTo
    (h : StandsAt numbers sessionId version file cursor lines values rest)
    {endByte : Option Nat} (hend : ∀ stop ∈ endByte, cursor.byteOffset ≤ stop) :
    ∃ more, Emacs.bytesUpTo file endByte = lineBytes lines ++ more ∧ more <+: rest := by
  cases endByte with
  | none => exact ⟨rest, h.consumed.bytes_eq, List.prefix_rfl⟩
  | some stop =>
      have hstop := hend stop rfl
      rw [h.byteOffset] at hstop
      refine ⟨rest.take (stop - (lineBytes lines).length), ?_, List.take_prefix _ _⟩
      show file.take stop = _
      rw [h.consumed.bytes_eq, List.take_append, List.take_of_length_le hstop]

/-- The reading from a cursor continues the reading from the start. -/
theorem StandsAt.readAll
    (h : StandsAt numbers sessionId version file cursor lines values rest)
    {bytes more : List UInt8} (hbytes : bytes = lineBytes lines ++ more) :
    Emacs.readAll numbers bytes 0 =
      ⟨lineItems lines values 0 ++
          (Emacs.readAll numbers (bytes.drop cursor.byteOffset) cursor.byteOffset).items,
        (Emacs.readAll numbers (bytes.drop cursor.byteOffset) cursor.byteOffset).outcome⟩ := by
  have hdrop : bytes.drop cursor.byteOffset = more := by
    rw [hbytes, h.byteOffset]
    exact List.drop_left
  rw [hdrop, hbytes, readAll_lines numbers h.consumed.reads, Nat.zero_add, h.byteOffset]

end

theorem journalEvents_invalid {numbers : NumberSyntax P} {cuts : ReadCuts} {file : List UInt8}
    {startByte : Nat} {endByte : Option Nat}
    (h : ¬ (startByte ≤ maxSafeInteger ∧
      ∀ stop ∈ endByte, stop ≤ maxSafeInteger ∧ startByte ≤ stop)) :
    journalEvents numbers cuts file startByte endByte = ⟨[], .error invalidRange⟩ := by
  unfold journalEvents
  by_cases hstart : maxSafeInteger < startByte
  · rw [if_pos hstart]
  · rw [if_neg hstart, if_pos]
    cases endByte with
    | none => exact (h ⟨Nat.not_lt.1 hstart, fun stop hstop => by cases hstop⟩).elim
    | some stop =>
        rw [Option.any_some, decide_eq_true_eq]
        by_contra hvalid
        apply h ⟨Nat.not_lt.1 hstart, ?_⟩
        intro other hother
        cases hother
        omega

/-- From a cursor that has been reached, items of the file lead to one. -/
theorem Reached.advance {numbers : NumberSyntax P} (cuts : ReadCuts) {file : List UInt8}
    {cursor after : Cursor} (hcursor : Reached numbers sessionId version file cursor)
    {endByte : Option Nat} {count : Nat}
    (h : advanceAll P sessionId version
      ((journalEvents numbers cuts file cursor.byteOffset endByte).items.take count) cursor =
        .ok after) :
    Reached numbers sessionId version file after := by
  by_cases hrange : cursor.byteOffset ≤ maxSafeInteger ∧
      ∀ stop ∈ endByte, stop ≤ maxSafeInteger ∧ cursor.byteOffset ≤ stop
  · obtain ⟨lines, values, rest, hstands⟩ := hcursor.standsAt
    obtain ⟨more, hmore, hprefix⟩ := hstands.bytesUpTo fun stop hstop => (hrange.2 stop hstop).2
    obtain ⟨others, found, left, hconsumed, hitems⟩ :=
      completeLines_take numbers more cursor.byteOffset count
    have hdrop : (bytesUpTo file endByte).drop cursor.byteOffset = more := by
      rw [hmore, hstands.byteOffset]
      exact List.drop_left
    rw [journalEvents_eq numbers cuts file hrange.1 hrange.2, hdrop, items_readAll, hitems] at h
    obtain ⟨behind, hbehind⟩ := hprefix
    have hreached : StandsAt numbers sessionId version file after (lines ++ others)
        (values ++ found) (left ++ behind) := by
      refine ⟨⟨?_, List.rel_append hstands.consumed.reads hconsumed.reads⟩, ?_⟩
      · rw [hstands.consumed.bytes_eq, ← hbehind, hconsumed.bytes_eq, lineBytes_append]
        simp only [List.append_assoc]
      · rw [lineItems_append hstands.consumed.length_eq, advanceAll_append, hstands.advanced,
          Nat.zero_add, ← hstands.byteOffset]
        exact h
    exact hreached.reached
  · rw [journalEvents_invalid hrange, List.take_nil, advanceAll, Except.ok.injEq] at h
    rw [← h]
    exact hcursor

/-- A scan from a cursor that has been reached ends at one. -/
theorem reached_of_scan {numbers : NumberSyntax P} {cuts : ReadCuts} {file : List UInt8}
    {input : InspectInput} {result : InspectResult}
    (hcursor : Reached numbers input.sessionId input.version file input.cursor)
    (h : scanJournal numbers cuts file input = .ok result) :
    Reached numbers input.sessionId input.version file result.cursor := by
  obtain ⟨anchors, count, -, hholds⟩ := scanJournal_ok h
  exact hcursor.advance cuts hholds.advanced

/-! ## Scans without anchors -/

/-- The loop of a scan without anchors. -/
def advanceUpTo (P : Platform) (sessionId : JsString) (version : FormatVersion)
    (maxCount : Nat) : List JournalItem → Cursor → Except JsError (Cursor × Bool)
  | [], cursor => .ok (cursor, false)
  | item :: items, cursor =>
      if cursor.eventCount = maxCount then .ok (cursor, true)
      else
        match advanceCursor P sessionId version cursor item with
        | .error thrown => .error thrown
        | .ok after => advanceUpTo P sessionId version maxCount items after

theorem advanceUpTo_append {maxCount : Nat} {xs : List JournalItem} (ys : List JournalItem)
    {cursor after : Cursor} (hbegun : cursor.Begun)
    (h : advanceAll P sessionId version xs cursor = .ok after)
    (hmax : after.eventCount ≤ maxCount) :
    advanceUpTo P sessionId version maxCount (xs ++ ys) cursor =
      advanceUpTo P sessionId version maxCount ys after := by
  induction xs generalizing cursor with
  | nil =>
      cases h
      rfl
  | cons item xs ih =>
      rw [advanceAll] at h
      split at h
      · cases h
      · rename_i next hnext
        obtain ⟨-, event, -, -, -, -, rfl⟩ := (advanceCursor_ok hbegun).1 hnext
        obtain ⟨events, -, -, -, rfl⟩ := (advanceAll_ok (cursor.next_begun item event)).1 h
        have hlt : cursor.eventCount ≠ maxCount := by
          intro heq
          have hcount : cursor.eventCount + 1 + xs.length ≤ maxCount := hmax
          omega
        rw [List.cons_append, advanceUpTo, if_neg hlt, hnext]
        exact ih (cursor.next_begun item event) h

/-- The input of a scan without anchors and repair, from a cursor or from the start. -/
def scanInput (sessionId : JsString) (version : FormatVersion) (previous : Option Cursor)
    (eventCount endByte : Option Nat) : InspectInput where
  sessionId
  version
  previousEventCount := previous.map Cursor.eventCount
  previousChainTip := previous.bind Cursor.chainTip
  previousByteOffset := previous.map Cursor.byteOffset
  previousT := previous.map Cursor.lastTime
  eventCount
  endByte
  acknowledgedEventCount := none
  acknowledgedByteLength := none
  chainAnchor := none
  observationAnchors := none
  frozenManifest := none
  frozenByteLength := none
  repairTail := false

/-- How a scan without anchors ends. -/
def plainEnd (input : InspectInput) (outcome : Except JsError (Option Nat))
    (read : Cursor × Bool) : Except JsError Cursor :=
  match (if read.2 then .ok none else outcome) with
  | .error thrown => .error thrown
  | .ok _ =>
      if input.eventCount.isSome ∧ read.1.eventCount ≠ input.maxCount then
        .error (.error (js "journal is shorter than the immutable event prefix"))
      else .ok read.1

/-- The cursor that a scan without anchors returns. -/
def plainScan (P : Platform) (input : InspectInput) (reading : Reading) :
    Except JsError Cursor :=
  match checkCursor input with
  | .error thrown => .error thrown
  | .ok () =>
      match advanceUpTo P input.sessionId input.version input.maxCount reading.items
          input.cursor with
      | .error thrown => .error thrown
      | .ok read => plainEnd input reading.outcome read

/-- Neither anchors nor a frozen record. -/
structure Unanchored (P : Platform) (input : InspectInput) : Prop where
  anchors : readAnchors P input = .ok []
  frozen : present input.frozenManifest = none

theorem checkAnchors_nil {input : InspectInput} (h : present input.frozenManifest = none)
    (cursor : Cursor) : checkAnchors P input cursor [] = .ok [] := by
  have hfrozen : checkFrozen P input cursor = .ok () := by
    rw [checkFrozen, h]
  rw [checkAnchors, hfrozen]
  rfl

theorem scanItems_plain {input : InspectInput} (h : present input.frozenManifest = none)
    (maxCount : Nat) (items : List JournalItem) (cursor : Cursor) (tail : List Json) :
    (∃ thrown, advanceUpTo P input.sessionId input.version maxCount items cursor =
        .error thrown ∧ scanItems P input maxCount items ⟨cursor, [], tail⟩ = .error thrown) ∨
      ∃ read after, advanceUpTo P input.sessionId input.version maxCount items cursor =
        .ok read ∧
        scanItems P input maxCount items ⟨cursor, [], tail⟩ = .ok (⟨read.1, [], after⟩, read.2) := by
  induction items generalizing cursor tail with
  | nil => exact Or.inr ⟨(cursor, false), tail, rfl, rfl⟩
  | cons item items ih =>
      rw [advanceUpTo, scanItems]
      by_cases hlimit : cursor.eventCount = maxCount
      · rw [if_pos hlimit, if_pos hlimit]
        exact Or.inr ⟨(cursor, true), tail, rfl, rfl⟩
      · rw [if_neg hlimit, if_neg hlimit]
        cases hnext : advanceCursor P input.sessionId input.version cursor item with
        | error thrown => exact Or.inl ⟨thrown, rfl, rfl⟩
        | ok after =>
            have hstep : (do
                let anchors ← checkAnchors P input after []
                scanItems P input maxCount items
                  ⟨after, anchors, pushTail tail item.event⟩) =
                scanItems P input maxCount items ⟨after, [], pushTail tail item.event⟩ := by
              rw [checkAnchors_nil h]
              rfl
            have hrest := ih after (pushTail tail item.event)
            rw [← hstep] at hrest
            exact hrest

/-- A scan without anchors and repair returns the cursor of its loop. -/
theorem scanJournal_plain {numbers : NumberSyntax P} {cuts : ReadCuts} {file : List UInt8}
    {input : InspectInput} (h : Unanchored P input) (hrepair : checkRepair input = .ok ()) :
    (scanJournal numbers cuts file input).map InspectResult.cursor =
      plainScan P input
        (journalEvents numbers cuts file input.cursor.byteOffset input.endByte) := by
  have hstart : checkStart input [] = .ok () := rfl
  have hend : ∀ cursor tail, checkEnd input ⟨cursor, [], tail⟩ =
      if input.eventCount.isSome ∧ cursor.eventCount ≠ input.maxCount then
        .error (.error (js "journal is shorter than the immutable event prefix"))
      else .ok () := by
    intro cursor tail
    unfold checkEnd
    rw [h.frozen]
    rfl
  have hloop := scanItems_plain (P := P) h.frozen input.maxCount
    (journalEvents numbers cuts file input.cursor.byteOffset input.endByte).items
    input.cursor []
  simp only [scanJournal, plainScan, hrepair, h.anchors, hstart, checkAnchors_nil h.frozen,
    bind, Except.bind]
  cases checkCursor input with
  | error thrown => rfl
  | ok checked =>
      rcases hloop with ⟨thrown, hplain, hscan⟩ | ⟨⟨cursor, stopped⟩, tail, hplain, hscan⟩
      · simp only [hplain, hscan]
        rfl
      · simp only [hplain, hscan, plainEnd]
        cases stopped with
        | true =>
            simp only [Bool.not_true, Bool.false_eq_true, if_false, if_true, hend]
            by_cases hshort : input.eventCount.isSome ∧ cursor.eventCount ≠ input.maxCount
            · simp only [if_pos hshort]
              rfl
            · simp only [if_neg hshort]
              rfl
        | false =>
            simp only [Bool.not_false, Bool.false_eq_true, if_false, if_true, hend]
            cases (journalEvents numbers cuts file input.cursor.byteOffset
                input.endByte).outcome with
            | error thrown => rfl
            | ok left =>
                by_cases hshort : input.eventCount.isSome ∧
                    cursor.eventCount ≠ input.maxCount
                · simp only [if_pos hshort]
                  rfl
                · simp only [if_neg hshort]
                  rfl

theorem unanchored_scanInput (previous : Option Cursor) (eventCount endByte : Option Nat) :
    Unanchored P (scanInput sessionId version previous eventCount endByte) :=
  ⟨rfl, rfl⟩

theorem cursor_scanInput_some (cursor : Cursor) (eventCount endByte : Option Nat) :
    (scanInput sessionId version (some cursor) eventCount endByte).cursor = cursor := rfl

theorem cursor_scanInput_none (eventCount endByte : Option Nat) :
    (scanInput sessionId version none eventCount endByte).cursor = Cursor.start := rfl

/-- The check of a cursor that an earlier scan can have returned. -/
theorem checkCursor_eq {input : InspectInput}
    (hcount : input.cursor.eventCount ≤ maxSafeInteger)
    (hoffset : input.cursor.byteOffset ≤ maxSafeInteger)
    (hmax : input.cursor.eventCount ≤ input.maxCount)
    (hbegun : ¬ (0 < input.cursor.eventCount ∧ input.cursor.chainTip = none)) :
    checkCursor input =
      if maxSafeInteger < input.maxCount then
        .error (.error (js "invalid journal prefix cursor"))
      else .ok () := by
  unfold checkCursor
  by_cases hlimit : maxSafeInteger < input.maxCount
  · rw [if_pos (Or.inr (Or.inr hlimit)), if_pos hlimit]
  · have hfirst : ¬ (maxSafeInteger < input.cursor.eventCount ∨
        maxSafeInteger < input.cursor.byteOffset ∨ maxSafeInteger < input.maxCount) := by
      omega
    have hsecond : ¬ (input.maxCount < input.cursor.eventCount ∨
        0 < input.cursor.eventCount ∧ input.cursor.chainTip = none) :=
      fun h => h.elim (Nat.not_lt.2 hmax) hbegun
    rw [if_neg hfirst, if_neg hsecond, if_neg hlimit]

theorem length_lineBytes_ge (lines : List (List UInt8)) :
    lines.length ≤ (lineBytes lines).length := by
  induction lines with
  | nil => exact Nat.le_refl 0
  | cons line lines ih =>
      rw [length_lineBytes_cons, List.length_cons]
      omega

/-- A scan from a cursor that has been reached returns what a scan from the start returns. -/
theorem scan_resumes {numbers : NumberSyntax P} (cuts cuts' : ReadCuts) {file : List UInt8}
    (hsize : file.length ≤ maxSafeInteger) {cursor : Cursor}
    (hreached : Reached numbers sessionId version file cursor) {eventCount endByte : Option Nat}
    (hcount : ∀ n ∈ eventCount, cursor.eventCount ≤ n)
    (hend : ∀ stop ∈ endByte, stop ≤ maxSafeInteger ∧ cursor.byteOffset ≤ stop) :
    (scanJournal numbers cuts file
        (scanInput sessionId version (some cursor) eventCount endByte)).map
          InspectResult.cursor =
      (scanJournal numbers cuts' file
        (scanInput sessionId version none eventCount endByte)).map InspectResult.cursor := by
  obtain ⟨lines, values, rest, hstands⟩ := hreached.standsAt
  obtain ⟨more, hmore, -⟩ := hstands.bytesUpTo fun stop hstop => (hend stop hstop).2
  have hoffset : cursor.byteOffset ≤ maxSafeInteger := hstands.byteOffset_le.trans hsize
  have hevents : cursor.eventCount ≤ maxSafeInteger := by
    rw [hstands.eventCount]
    rw [hstands.byteOffset] at hoffset
    exact (length_lineBytes_ge lines).trans hoffset
  have hmax : cursor.eventCount ≤
      (scanInput sessionId version (some cursor) eventCount endByte).maxCount := by
    cases eventCount with
    | none => exact hevents
    | some n => exact hcount n rfl
  have hbegun : ¬ (0 < cursor.eventCount ∧ cursor.chainTip = none) := by
    obtain ⟨events, hlog, -, -, rfl⟩ := (advanceAll_ok Cursor.start_begun).1 hstands.advanced
    intro hpos
    have hnil : events = [] := ((eventScheme P).tip_eq_none).1 hpos.2
    have hlength := hlog.length_eq
    have hcounted : 0 < 0 + (lineItems lines values 0).length := hpos.1
    rw [hnil, List.length_map, List.length_nil] at hlength
    omega
  have hreading : journalEvents numbers cuts' file 0 endByte =
      ⟨lineItems lines values 0 ++
          (journalEvents numbers cuts file cursor.byteOffset endByte).items,
        (journalEvents numbers cuts file cursor.byteOffset endByte).outcome⟩ := by
    rw [journalEvents_eq numbers cuts' file (Nat.zero_le _) fun stop hstop =>
        ⟨(hend stop hstop).1, Nat.zero_le _⟩,
      journalEvents_eq numbers cuts file hoffset hend, List.drop_zero]
    exact hstands.readAll hmore
  rw [scanJournal_plain (unanchored_scanInput _ _ _) rfl,
    scanJournal_plain (unanchored_scanInput _ _ _) rfl, cursor_scanInput_some,
    cursor_scanInput_none]
  show plainScan P _ (journalEvents numbers cuts file cursor.byteOffset endByte) =
    plainScan P _ (journalEvents numbers cuts' file 0 endByte)
  have hmax' : Cursor.start.eventCount ≤
      (scanInput sessionId version none eventCount endByte).maxCount := Nat.zero_le _
  have hresumed : checkCursor (scanInput sessionId version (some cursor) eventCount endByte) =
      if maxSafeInteger < eventCount.getD maxSafeInteger then
        .error (.error (js "invalid journal prefix cursor"))
      else .ok () := checkCursor_eq hevents hoffset hmax hbegun
  have hstarted : checkCursor (scanInput sessionId version none eventCount endByte) =
      if maxSafeInteger < eventCount.getD maxSafeInteger then
        .error (.error (js "invalid journal prefix cursor"))
      else .ok () :=
    checkCursor_eq (Nat.zero_le _) (Nat.zero_le _) hmax' fun h => Nat.lt_irrefl 0 h.1
  unfold plainScan
  rw [hreading, hresumed, ← hstarted, cursor_scanInput_none, cursor_scanInput_some]
  cases checkCursor (scanInput sessionId version none eventCount endByte) with
  | error thrown => rfl
  | ok checked =>
      have hloop := advanceUpTo_append
        (journalEvents numbers cuts file cursor.byteOffset endByte).items Cursor.start_begun
        hstands.advanced hmax
      show (match advanceUpTo P sessionId version _ _ cursor with
        | .error thrown => _
        | .ok read => _) = match advanceUpTo P sessionId version _ (lineItems lines values 0 ++ _)
          Cursor.start with
        | .error thrown => _
        | .ok read => _
      rw [← hloop]
      rfl

/-! ## Anchors and the repair -/

/-- The cursor of the first complete lines of a file, as their events define it. -/
structure PrefixCursor (numbers : NumberSyntax P) (sessionId : JsString)
    (version : FormatVersion) (file : List UInt8) (cursor : Cursor)
    (lines : List (List UInt8)) (values : List Json) (events : List BufferMutation) :
    Prop where
  bytes : lineBytes lines <+: file
  reads : List.Forall₂ (LineReads numbers) lines values
  log : ReadsAsLog values events
  valid : ValidLog events
  cursor_eq : cursor = ⟨lines.length, eventTip P sessionId version events,
    (lineBytes lines).length, (events.getLast?.map BufferMutation.t).getD 0⟩

theorem validFrom_zero {events : List BufferMutation} :
    ValidFrom 0 0 events ↔ ValidLog events := by
  rw [validLog_iff_validFrom]
  constructor
  · exact validFrom_mono (by decide)
  · intro h
    cases events with
    | nil => trivial
    | cons event events => exact ⟨h.1, h.2.1, Int.natCast_nonneg _, h.2.2.2⟩

theorem Reached.prefixCursor {numbers : NumberSyntax P} {file : List UInt8} {cursor : Cursor}
    (h : Reached numbers sessionId version file cursor) :
    ∃ lines values events,
      PrefixCursor numbers sessionId version file cursor lines values events := by
  obtain ⟨lines, values, rest, hstands⟩ := h.standsAt
  have hlength := hstands.consumed.length_eq
  obtain ⟨events, hlog, hvalid, -, heq⟩ :=
    (advanceAll_ok Cursor.start_begun).1 hstands.advanced
  rw [lineItems_event hlength] at hlog
  refine ⟨lines, values, events, ⟨rest, hstands.consumed.bytes_eq.symm⟩,
    hstands.consumed.reads, hlog, validFrom_zero.1 hvalid, ?_⟩
  have hcount := hstands.eventCount
  have hoffset := hstands.byteOffset
  rw [heq] at hcount hoffset ⊢
  rw [← hcount, ← hoffset]
  rfl

/-- Sequence numbers stay small, so no scan comes near the largest safe integer. -/
theorem PrefixCursor.eventCount_lt {numbers : NumberSyntax P} {file : List UInt8}
    {cursor : Cursor} {lines : List (List UInt8)} {values : List Json}
    {events : List BufferMutation}
    (h : PrefixCursor numbers sessionId version file cursor lines values events) :
    cursor.eventCount < maxSafeInteger := by
  have hlength : events.length = cursor.eventCount := by
    rw [h.cursor_eq, ← h.log.length_eq, ← h.reads.length_eq]
  rw [← hlength]
  cases hlast : events.getLast? with
  | none =>
      rw [List.getLast?_eq_none_iff.1 hlast]
      decide
  | some last =>
      have hget : events[events.length - 1]? = some last := by
        rw [← hlast, List.getLast?_eq_getElem?]
      have hseq := h.valid.seq_eq _ last hget
      have hle := (h.valid.valid last (List.mem_of_getLast? hlast)).seq_le
      have hmax : maxIntegerFieldValue + 1 < maxSafeInteger := by decide
      omega

theorem inspectJournal_fst (numbers : NumberSyntax P) (cuts : ReadCuts) (file : List UInt8)
    (input : InspectInput) :
    (inspectJournal numbers cuts file input).1 = scanJournal numbers cuts file input := by
  unfold inspectJournal
  cases scanJournal numbers cuts file input with
  | error thrown => rfl
  | ok result => exact apply_ite Prod.fst _ _ _ |>.trans (ite_self _)

/-- What must hold of the frozen record that a scan was given. -/
structure FrozenHolds (P : Platform) (input : InspectInput) (frozen : Json) (cursor : Cursor) :
    Prop where
  eventCount : Json.number? (frozen.field (js "event_count")) = some (.ofNat cursor.eventCount)
  sealed : ∃ tip hash, cursor.chainTip = some tip ∧
    sealRecordHash P tip input.version (frozen.field (js "text_binding"))
      ⟨frozen.field (js "duration_ms"), frozen.field (js "parent_record")⟩ = .ok hash ∧
    Json.text? (frozen.field (js "record_hash")) = some hash.text

theorem frozenHolds_of_checkFrozen {input : InspectInput} {frozen : Json} {cursor : Cursor}
    (hfrozen : present input.frozenManifest = some frozen)
    (hcount : Json.number? (frozen.field (js "event_count")) = some (.ofNat cursor.eventCount))
    (h : checkFrozen P input cursor = .ok ()) : FrozenHolds P input frozen cursor := by
  refine ⟨hcount, ?_⟩
  unfold checkFrozen at h
  rw [hfrozen] at h
  simp only [if_pos hcount] at h
  split at h
  · cases h
  · rename_i tip htip
    split at h
    · cases h
    · rename_i hash hseal
      split at h
      · rename_i hrecorded
        exact ⟨tip, hash, htip, hseal, hrecorded⟩
      · cases h

/-- Every anchor of a scan that returns names what its prefix of the file has. -/
theorem anchors_match {numbers : NumberSyntax P} {cuts : ReadCuts} {file : List UInt8}
    {input : InspectInput} {result : InspectResult}
    (hcursor : Reached numbers input.sessionId input.version file input.cursor)
    (h : scanJournal numbers cuts file input = .ok result) :
    ∃ anchors, readAnchors P input = .ok anchors ∧
      (∀ anchor ∈ anchors, ∃ cursor,
        Reached numbers input.sessionId input.version file cursor ∧
          cursor.eventCount = anchor.eventCount ∧ anchor.matchesCursor cursor = true) ∧
      ∀ frozen ∈ present input.frozenManifest, FrozenHolds P input frozen result.cursor := by
  obtain ⟨anchors, count, hanchors, hholds⟩ := scanJournal_ok h
  refine ⟨anchors, hanchors, ?_, ?_⟩
  · intro anchor hanchor
    obtain ⟨n, cursor, hn, hadvanced, hcount, hmatch⟩ := hholds.anchored anchor hanchor
    refine ⟨cursor, ?_, hcount.symm, hmatch⟩
    rw [List.take_take] at hadvanced
    exact hcursor.advance cuts hadvanced
  · intro frozen hfrozen
    exact frozenHolds_of_checkFrozen hfrozen (hholds.frozenCount frozen hfrozen) hholds.sealed

theorem unrepaired_keeps {numbers : NumberSyntax P} {cuts : ReadCuts} {file after : List UInt8}
    {input : InspectInput} {outcome : Except JsError InspectResult}
    (hrepair : input.repairTail = false)
    (h : inspectJournal numbers cuts file input = (outcome, after)) : after = file := by
  unfold inspectJournal at h
  cases hscan : scanJournal numbers cuts file input with
  | error thrown =>
      rw [hscan] at h
      cases h
      rfl
  | ok result =>
      rw [hscan] at h
      simp only [hrepair, Bool.false_eq_true, false_and, if_false, Prod.mk.injEq] at h
      exact h.2.symm

theorem thrown_keeps {numbers : NumberSyntax P} {cuts : ReadCuts} {file after : List UInt8}
    {input : InspectInput} {thrown : JsError}
    (h : inspectJournal numbers cuts file input = (.error thrown, after)) : after = file := by
  have hscan : scanJournal numbers cuts file input = .error thrown := by
    rw [← inspectJournal_fst, h]
  unfold inspectJournal at h
  rw [hscan] at h
  cases h
  rfl

theorem Reached.eq_start {numbers : NumberSyntax P} {file : List UInt8} {cursor : Cursor}
    (h : Reached numbers sessionId version file cursor) (hoffset : cursor.byteOffset = 0) :
    cursor = Cursor.start := by
  obtain ⟨lines, values, rest, hstands⟩ := h.standsAt
  have hadvanced := hstands.advanced
  have hlines := length_lineBytes_ge lines
  rw [← hstands.byteOffset, hoffset, Nat.le_zero, List.length_eq_zero_iff] at hlines
  rw [hlines] at hadvanced
  cases hadvanced
  rfl

/-- A file that has been read without a throw. -/
theorem outcome_ok {numbers : NumberSyntax P} {bytes : List UInt8} {left : Option Nat}
    (h : (readAll numbers bytes 0).outcome = .ok left) :
    ∃ lines values tail, Consumed numbers bytes lines values tail ∧ (10 : UInt8) ∉ tail ∧
      (readAll numbers bytes 0).items = lineItems lines values 0 := by
  rw [items_readAll]
  rw [readAll_eq] at h
  cases hread : completeLines numbers bytes 0 with
  | mk items outcome =>
      rw [hread] at h
      cases outcome with
      | error thrown => cases h
      | ok read =>
          obtain ⟨lines, values, hconsumed, htail, hitems, -⟩ := completeLines_ok numbers hread
          exact ⟨lines, values, read.1, hconsumed, htail, hitems⟩

/-- The repair keeps the complete lines. -/
theorem repair_keeps {numbers : NumberSyntax P} {cuts : ReadCuts} {file after : List UInt8}
    {input : InspectInput} {result : InspectResult} (hrepair : input.repairTail = true)
    (hcursor : Reached numbers input.sessionId input.version file input.cursor)
    (h : inspectJournal numbers cuts file input = (.ok result, after)) :
    ∃ lines tail, file = lineBytes lines ++ tail ∧ (10 : UInt8) ∉ tail ∧
      after = lineBytes lines := by
  have hscan : scanJournal numbers cuts file input = .ok result := by
    rw [← inspectJournal_fst, h]
  obtain ⟨anchors, count, -, hholds⟩ := scanJournal_ok hscan
  have hresult := reached_of_scan hcursor hscan
  obtain ⟨hevents, hend, hoffset⟩ : input.eventCount = none ∧ input.endByte = none ∧
      input.previousByteOffset = none := by
    have hbounds := hholds.repairs
    rw [checkRepair, hrepair, Bool.true_and] at hbounds
    split at hbounds
    · cases hbounds
    · rename_i hnone
      simpa [and_assoc] using hnone
  have hzero : input.cursor.byteOffset = 0 := by
    show input.previousByteOffset.getD 0 = 0
    rw [hoffset]
    rfl
  have hstart := hcursor.eq_start hzero
  have hreading : journalEvents numbers cuts file input.cursor.byteOffset input.endByte =
      readAll numbers file 0 := by
    rw [hzero, hend, journalEvents_eq numbers cuts file (Nat.zero_le _) (by
      intro stop hstop
      cases hstop)]
    rfl
  have hadvanced := hholds.advanced
  rw [hreading, hstart] at hadvanced
  have hwhole : count = (readAll numbers file 0).items.length ∧
      ∃ left, (readAll numbers file 0).outcome = .ok left := by
    rcases hholds.whole with hwhole | hlimit
    · rw [hreading] at hwhole
      exact hwhole
    · obtain ⟨lines, values, events, hprefix⟩ := hresult.prefixCursor
      have hlt := hprefix.eventCount_lt
      have hmax : input.maxCount = maxSafeInteger := by
        rw [InspectInput.maxCount, hevents]
        rfl
      omega
  obtain ⟨rfl, left, houtcome⟩ := hwhole
  obtain ⟨lines, values, tail, hconsumed, htail, hitems⟩ := outcome_ok houtcome
  rw [List.take_length, hitems] at hadvanced
  have hstands : StandsAt numbers input.sessionId input.version file result.cursor lines values
      tail := ⟨hconsumed, hadvanced⟩
  refine ⟨lines, tail, hconsumed.bytes_eq, htail, ?_⟩
  unfold inspectJournal at h
  rw [hscan] at h
  simp only [hrepair, true_and] at h
  have hlength : file.length = (lineBytes lines).length + tail.length := by
    rw [hconsumed.bytes_eq, List.length_append]
  by_cases hsame : file.length = result.cursor.byteOffset
  · rw [if_neg (not_not.2 hsame), Prod.mk.injEq] at h
    have hnil : tail = [] := by
      rw [hstands.byteOffset] at hsame
      apply List.eq_nil_of_length_eq_zero
      omega
    rw [← h.2, hconsumed.bytes_eq, hnil, List.append_nil]
  · rw [if_pos hsame, Prod.mk.injEq] at h
    have hover : (lineBytes lines).length - file.length = 0 := by omega
    rw [← h.2, truncateFile, hstands.byteOffset, hover, List.replicate_zero, List.append_nil,
      hconsumed.bytes_eq]
    exact List.take_left

/-- Cursors that scans of prefixes return stand for the prefix; a scan from such a cursor returns
what a scan from the start returns; a scan that returns has matched every anchor and the frozen
record; and no byte is cut off but an incomplete last line by a repair that returns. -/
theorem inspectJournal_incremental (numbers : NumberSyntax P) {file : List UInt8}
    (hsize : file.length ≤ maxSafeInteger) :
    (∀ (cuts : ReadCuts) (input : InspectInput) (size : Nat) (result : InspectResult),
      Reached numbers input.sessionId input.version (file.take size) input.cursor →
      (inspectJournal numbers cuts (file.take size) input).1 = .ok result →
      Reached numbers input.sessionId input.version file result.cursor) ∧
    (∀ (sessionId : JsString) (version : FormatVersion) (cursor : Cursor),
      Reached numbers sessionId version file cursor →
      (∃ lines values events,
        PrefixCursor numbers sessionId version file cursor lines values events) ∧
      ∀ (cuts cuts' : ReadCuts) (eventCount endByte : Option Nat),
        (∀ n ∈ eventCount, cursor.eventCount ≤ n) →
        (∀ stop ∈ endByte, stop ≤ maxSafeInteger ∧ cursor.byteOffset ≤ stop) →
        (inspectJournal numbers cuts file
            (scanInput sessionId version (some cursor) eventCount endByte)).1.map
              InspectResult.cursor =
          (inspectJournal numbers cuts' file
            (scanInput sessionId version none eventCount endByte)).1.map
              InspectResult.cursor) ∧
    (∀ (cuts : ReadCuts) (input : InspectInput) (outcome : Except JsError InspectResult)
        (after : List UInt8),
      Reached numbers input.sessionId input.version file input.cursor →
      inspectJournal numbers cuts file input = (outcome, after) →
      match outcome with
      | .error _ => after = file
      | .ok result =>
          (∃ anchors, readAnchors P input = .ok anchors ∧
            ∀ anchor ∈ anchors, ∃ cursor,
              Reached numbers input.sessionId input.version file cursor ∧
                cursor.eventCount = anchor.eventCount ∧
                anchor.matchesCursor cursor = true) ∧
          (∀ frozen ∈ present input.frozenManifest, FrozenHolds P input frozen result.cursor) ∧
          if input.repairTail then
            ∃ lines tail, file = lineBytes lines ++ tail ∧ (10 : UInt8) ∉ tail ∧
              after = lineBytes lines
          else after = file) := by
  refine ⟨?_, ?_, ?_⟩
  · intro cuts input size result hcursor h
    rw [inspectJournal_fst] at h
    have hgrown := (reached_of_scan hcursor h).append (file.drop size)
    rw [List.take_append_drop] at hgrown
    exact hgrown
  · intro sessionId version cursor hreached
    refine ⟨hreached.prefixCursor, ?_⟩
    intro cuts cuts' eventCount endByte hcount hend
    rw [inspectJournal_fst, inspectJournal_fst]
    exact scan_resumes cuts cuts' hsize hreached hcount hend
  · intro cuts input outcome after hcursor h
    cases outcome with
    | error thrown => exact thrown_keeps h
    | ok result =>
        have hscan : scanJournal numbers cuts file input = .ok result := by
          rw [← inspectJournal_fst, h]
        obtain ⟨anchors, hanchors, hmatch, hfrozen⟩ := anchors_match hcursor hscan
        refine ⟨⟨anchors, hanchors, hmatch⟩, hfrozen, ?_⟩
        cases hrepair : input.repairTail with
        | true =>
            rw [if_pos rfl]
            exact repair_keeps hrepair hcursor h
        | false =>
            show after = file
            exact unrepaired_keeps hrepair h

def firstLines : List (List UInt8) := [eventBytes decimalPlatform firstInsert.toJson]

def draftSession : JsString := js "00000000-0000-4000-8000-000000000091"

/-- One acknowledged event, and the start of a line behind it. -/
def tornJournal : List UInt8 := lineBytes firstLines ++ [123, 34]

def recovery : InspectInput :=
  { scanInput draftSession .v0_3 none none none with
    acknowledgedEventCount := some (Json.ofNat 1)
    repairTail := true }

theorem inspectJournal_incremental_torn :
    ∃ result after, inspectJournal decimalSyntax byteCuts tornJournal recovery =
        (.ok result, after) ∧
      (∃ lines tail, tornJournal = lineBytes lines ++ tail ∧ (10 : UInt8) ∉ tail ∧
        after = lineBytes lines) ∧
      (inspectJournal decimalSyntax byteCuts tornJournal
          (scanInput draftSession .v0_3 (some result.cursor) none none)).1.map
            InspectResult.cursor =
        (inspectJournal decimalSyntax byteCuts tornJournal
          (scanInput draftSession .v0_3 none none none)).1.map InspectResult.cursor := by
  have hsize : tornJournal.length ≤ maxSafeInteger := by decide +kernel
  obtain ⟨hreached, hresumed, hkept⟩ := inspectJournal_incremental decimalSyntax hsize
  have hreturns : (inspectJournal decimalSyntax byteCuts tornJournal recovery).1.isOk = true := by
    decide +kernel
  cases hinspect : inspectJournal decimalSyntax byteCuts tornJournal recovery with
  | mk outcome after =>
      cases outcome with
      | error thrown =>
          rw [hinspect] at hreturns
          cases hreturns
      | ok result =>
          have hwhole : tornJournal.take tornJournal.length = tornJournal := List.take_length
          have hcursor : Reached decimalSyntax draftSession .v0_3 tornJournal result.cursor := by
            apply hreached byteCuts recovery tornJournal.length result
            · exact reached_start decimalSyntax _
            · rw [hwhole, hinspect]
          have hrepaired := hkept byteCuts recovery (.ok result) after
            (reached_start decimalSyntax _) hinspect
          refine ⟨result, after, rfl, hrepaired.2.2, ?_⟩
          apply (hresumed draftSession .v0_3 result.cursor hcursor).2 byteCuts byteCuts none none
          · intro n hn
            cases hn
          · intro stop hstop
            cases hstop

end Pmbah.Emacs
