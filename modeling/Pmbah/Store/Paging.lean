import Pmbah.Store.RecordStore
import Pmbah.Store.StoreInvariant

/-!
# Pages of events

A page is read from a record's own events, from the chunks of the in-memory
store, or from chunk rows of the database.
-/

namespace Pmbah.Store

open Js Format Library

variable {A : Type}

structure EventPage where
  events : List Json
  nextOffset : Option Nat
  totalEvents : Nat
  chainTipBefore : Option B3Hash
  chainTipAfter : Option B3Hash

/-- What the loop over the chunks has found. -/
structure PageRead where
  events : List Json
  before : Option B3Hash
  after : Option B3Hash

/-- One event of a chunk, by its index there. -/
def readEventAt (chunk : Chunk) (found : PageRead) (index : Nat) : PageRead :=
  { found with
    events := found.events ++ chunk.events[index]?.toList
    after := chunk.tips[index]? }

/-- One chunk; `length` is what the reader takes for its length. -/
def readChunk (length : Chunk → Nat) (offset limit : Nat) (found : PageRead)
    (entry : Nat × Chunk) : PageRead :=
  let (start, chunk) := entry
  let before :=
    if start < offset ∧ offset ≤ start + length chunk then chunk.tips[offset - start - 1]?
    else found.before
  let first := offset - start
  let indices := (List.range' first (chunk.events.length - first)).takeWhile fun index =>
    decide (start + index < offset + limit)
  indices.foldl (readEventAt chunk) { found with before }

/-- The page made of what has been read of a log of this length. -/
def PageRead.page (read : PageRead) (offset total : Nat) : EventPage where
  events := read.events
  nextOffset :=
    if offset + read.events.length < total then some (offset + read.events.length) else none
  totalEvents := total
  chainTipBefore := read.before
  chainTipAfter := read.after.or read.before

def emptyRead : PageRead := { events := [], before := none, after := none }

def ChunkedStore.page (store : ChunkedStore A) (record : StoredRecord) (offset limit : Nat) :
    Except StoreError EventPage :=
  match store.owner? record with
  | none => .error (uploadError 404 (js "record_not_found"))
  | some state =>
      let chunks := ((store.chunks.get? state.uploadId).getD ∅).entries
      let read := chunks.foldl (readChunk (fun chunk => chunk.tips.length) offset limit) emptyRead
      .ok (read.page offset state.nextSeq)

/-! ## The database -/

/-- A row of `record_uploads`, with the columns that a page reads. -/
structure UploadRow where
  uploadId : JsString
  finalizedRecordHash : Option B3Hash
  publishedOwner : Bool
  nextSeq : Nat

/-- A row of `record_event_chunks`. -/
structure ChunkRow where
  uploadId : JsString
  startSeq : Nat
  endSeq : Nat
  events : List Json
  chainTips : List B3Hash

structure PostgresTables where
  recordUploads : List UploadRow
  recordEventChunks : List ChunkRow

namespace PostgresTables

/-- `finalized_record_hash=$1 and published_owner and next_seq=$2`. -/
def owns (record : StoredRecord) (row : UploadRow) : Bool :=
  decide (row.finalizedRecordHash = some record.manifest.recordHash) && row.publishedOwner &&
    row.nextSeq == record.manifest.eventCount

/-- `upload_id=$1 and end_seq>=$2 and start_seq<$3 and start_seq>=$4 order by start_seq`. -/
def selectChunks (tables : PostgresTables) (uploadId : JsString) (offset limit : Nat) :
    List ChunkRow :=
  (tables.recordEventChunks.filter fun row =>
    row.uploadId == uploadId && decide (offset ≤ row.endSeq) &&
      decide (row.startSeq < offset + limit) &&
      decide (offset - maxEventChunk ≤ row.startSeq)).mergeSort fun left right =>
    decide (left.startSeq ≤ right.startSeq)

def ChunkRow.entry (row : ChunkRow) : Nat × Chunk := (row.startSeq, ⟨row.events, row.chainTips⟩)

def page (tables : PostgresTables) (record : StoredRecord) (offset limit : Nat) :
    Except StoreError EventPage :=
  match tables.recordUploads.find? (owns record) with
  | none => .error (uploadError 404 (js "record_not_found"))
  | some upload =>
      let rows := tables.selectChunks upload.uploadId offset limit
      let read := (rows.map ChunkRow.entry).foldl
        (readChunk (fun chunk => chunk.events.length) offset limit) emptyRead
      .ok (read.page offset record.manifest.eventCount)

end PostgresTables

/-! ## The API -/

/-- `page` is that of the chunked store behind the API. -/
def eventPage (P : Platform) (page : StoredRecord → Nat → Nat → Except StoreError EventPage)
    (record : StoredRecord) (offset limit : Nat) : Except StoreError EventPage :=
  match record.eventStorage with
  | .chunks => page record offset limit
  | .inline =>
      match computeEventHashChain P record.events record.manifest.sessionId
          record.manifest.formatVersion with
      | .error thrown => .error (.thrown thrown)
      | .ok tips =>
          let events := (record.events.drop offset).take limit
          .ok {
            events
            nextOffset :=
              if offset + events.length < record.events.length then some (offset + events.length)
              else none
            totalEvents := record.events.length
            chainTipBefore := if offset = 0 then none else tips[offset - 1]?
            chainTipAfter :=
              if offset + events.length = 0 then none else tips[offset + events.length - 1]? }

/-- The route that answers a page request of a record that is found. -/
def pageRoute (P : Platform) (page : StoredRecord → Nat → Nat → Except StoreError EventPage)
    (record : StoredRecord) (offset limit : Nat) : Except StoreError EventPage :=
  if limit < 1 ∨ maxEventChunk < limit then
    .error (invalid (js "invalid_pagination") [js "offset must be nonnegative and limit 1–4096"])
  else if record.manifest.eventCount < offset then
    .error (invalid (js "invalid_pagination") [js "offset exceeds record length"])
  else eventPage P page record offset limit

/-! ## What a page should be -/

/-- The part of a log from an offset on, with the tips before and after it. -/
def expectedPage (P : Platform) (manifest : RecordManifest) (values : List Json)
    (events : List BufferMutation) (offset limit : Nat) : EventPage where
  events := (values.drop offset).take limit
  nextOffset := if offset + limit < values.length then some (offset + limit) else none
  totalEvents := values.length
  chainTipBefore := eventTip P manifest.sessionId manifest.formatVersion (events.take offset)
  chainTipAfter :=
    eventTip P manifest.sessionId manifest.formatVersion (events.take (offset + limit))

/-- A log kept in chunks of at most 4096 events, each with the tips of its events. -/
structure Partition (P : Platform) (manifest : RecordManifest) (chunks : List (Nat × Chunk))
    (values : List Json) (events : List BufferMutation) : Prop where
  tiled : Tiled 0 (segments Chunk.events chunks)
  sized : ∀ chunk ∈ chunks, chunk.2.tips.length = chunk.2.events.length ∧
    0 < chunk.2.events.length ∧ chunk.2.events.length ≤ maxEventChunk
  values_eq : untile (segments Chunk.events chunks) = values
  reads : ReadsAsLog values events
  validLog : ValidLog events
  chain : untile (segments Chunk.tips chunks) =
    eventChain P manifest.sessionId manifest.formatVersion events

/-! ## One chunk -/

theorem takeWhile_range' (start last first count : Nat) :
    ((List.range' first count).takeWhile fun index => decide (start + index < last)) =
      List.range' first (min count (last - start - first)) := by
  induction count generalizing first with
  | zero => simp
  | succ count ih =>
      rw [List.range'_succ, List.takeWhile_cons, ih]
      by_cases hlt : start + first < last
      · rw [if_pos (by simpa using hlt),
          show min (count + 1) (last - start - first) =
            min count (last - start - (first + 1)) + 1 by omega, List.range'_succ]
      · rw [if_neg (by simpa using hlt), show last - start - first = 0 by omega]
        simp

theorem foldl_readEventAt {chunk : Chunk} (hsized : chunk.tips.length = chunk.events.length)
    (found : PageRead) (first count : Nat) (hcount : first + count ≤ chunk.events.length) :
    (List.range' first count).foldl (readEventAt chunk) found =
      { found with
        events := found.events ++ (chunk.events.take (first + count)).drop first
        after := (((chunk.tips.take (first + count)).drop first).getLast?).or found.after } := by
  induction count with
  | zero => simp
  | succ count ih =>
      rw [List.range'_concat, List.foldl_append, ih (by omega)]
      have hevent : first + 1 * count < chunk.events.length := by omega
      have htip : first + 1 * count < chunk.tips.length := by omega
      simp only [List.foldl_cons, List.foldl_nil, readEventAt, List.append_assoc,
        PageRead.mk.injEq, List.append_cancel_left_eq, true_and]
      rw [List.getElem?_eq_getElem hevent, List.getElem?_eq_getElem htip, Option.toList_some]
      have hsplit : ∀ {α : Type} (items : List α) (hlt : first + 1 * count < items.length),
          (items.take (first + (count + 1))).drop first =
            (items.take (first + count)).drop first ++ [items[first + 1 * count]] := by
        intro α items hlt
        rw [← Nat.add_assoc, List.take_add_one, List.drop_append_of_le_length (by simp; omega)]
        congr 1
        rw [show first + count = first + 1 * count by omega, List.getElem?_eq_getElem hlt]
        rfl
      rw [hsplit chunk.events hevent, hsplit chunk.tips htip]
      simp

/-- The tips that a reader finds before and after what it takes of a chunk. -/
theorem readChunk_eq {length : Chunk → Nat} {offset limit : Nat} {start : Nat} {chunk : Chunk}
    (hsized : chunk.tips.length = chunk.events.length) (found : PageRead) :
    readChunk length offset limit found (start, chunk) =
      { events := found.events ++ between offset (offset + limit) (start, chunk.events)
        before := if start < offset ∧ offset ≤ start + length chunk then
          chunk.tips[offset - start - 1]? else found.before
        after := ((between offset (offset + limit) (start, chunk.tips)).getLast?).or
          found.after } := by
  simp only [readChunk, takeWhile_range']
  by_cases hfirst : offset - start ≤ chunk.events.length
  · have hsame : ∀ {α : Type} (items : List α), items.length = chunk.events.length →
        (items.take (offset - start + min (chunk.events.length - (offset - start))
          (offset + limit - start - (offset - start)))).drop (offset - start) =
        (items.take (offset + limit - start)).drop (offset - start) := by
      intro α items hlength
      by_cases hlast : offset + limit - start ≤ chunk.events.length
      · rw [show offset - start + min (chunk.events.length - (offset - start))
          (offset + limit - start - (offset - start)) = offset + limit - start by omega]
      · rw [List.take_of_length_le (by omega), List.take_of_length_le (by omega)]
    rw [foldl_readEventAt hsized _ _ _ (by omega), hsame chunk.events rfl, hsame chunk.tips hsized]
    rfl
  · rw [show chunk.events.length - (offset - start) = 0 by omega]
    have hnone : ∀ {α : Type} (items : List α), items.length = chunk.events.length →
        (items.take (offset + limit - start)).drop (offset - start) = [] := by
      intro α items hlength
      apply List.drop_eq_nil_of_le
      rw [List.length_take]
      omega
    simp [between, hnone chunk.events rfl, hnone chunk.tips hsized]

/-! ## All chunks -/

/-- Reading consecutive chunks finds what lies between two places of the log. -/
theorem foldl_readChunk {length : Chunk → Nat} {offset limit : Nat}
    {chunks : List (Nat × Chunk)} (hsized : ∀ chunk ∈ chunks,
      chunk.2.tips.length = chunk.2.events.length ∧ length chunk.2 = chunk.2.events.length)
    {start : Nat} (htiled : Tiled start (segments Chunk.events chunks)) (found : PageRead) :
    chunks.foldl (readChunk length offset limit) found =
      { events := found.events ++
          ((untile (segments Chunk.events chunks)).take (offset + limit - start)).drop
            (offset - start)
        before := if start < offset ∧
            offset ≤ start + (untile (segments Chunk.tips chunks)).length then
          (untile (segments Chunk.tips chunks))[offset - start - 1]? else found.before
        after := ((((untile (segments Chunk.tips chunks)).take (offset + limit - start)).drop
          (offset - start)).getLast?).or found.after } := by
  have htips : Tiled start (segments Chunk.tips chunks) :=
    tiled_congr (fun chunk hchunk => (hsized chunk hchunk).1) htiled
  rw [← flatMap_between htiled, ← flatMap_between htips]
  induction chunks generalizing start found with
  | nil =>
      have hnone : ¬ (start < offset ∧ offset ≤ start) := by omega
      simp [hnone]
  | cons entry chunks ih =>
      obtain ⟨place, chunk⟩ := entry
      obtain ⟨hlength, hreader⟩ := hsized (place, chunk) (by simp)
      obtain ⟨rfl, hrest⟩ := htiled
      obtain ⟨-, hrestTips⟩ := htips
      simp only at hlength hreader hrest hrestTips
      rw [hlength] at hrestTips
      rw [List.foldl_cons, readChunk_eq hlength,
        ih (fun other hother => hsized other (by simp [hother])) hrest _ hrestTips]
      simp only [segments_cons, List.flatMap_cons, untile_cons, List.append_assoc,
        List.length_append, PageRead.mk.injEq, true_and, hreader, hlength]
      refine ⟨?_, ?_⟩
      · by_cases hhere : place < offset ∧ offset ≤ place + chunk.events.length
        · have houter : ¬ (place + chunk.events.length < offset ∧ offset ≤
              place + chunk.events.length + (untile (segments Chunk.tips chunks)).length) := by
            omega
          have hwhole : place < offset ∧ offset ≤
              place + (chunk.events.length + (untile (segments Chunk.tips chunks)).length) := by
            omega
          rw [if_neg houter, if_pos hhere, if_pos hwhole, List.getElem?_append_left (by omega)]
        · rw [if_neg hhere]
          by_cases hlater : place + chunk.events.length < offset ∧ offset ≤
              place + chunk.events.length + (untile (segments Chunk.tips chunks)).length
          · have hwhole : place < offset ∧ offset ≤
                place + (chunk.events.length + (untile (segments Chunk.tips chunks)).length) := by
              omega
            rw [if_pos hlater, if_pos hwhole, List.getElem?_append_right (by omega)]
            congr 1
            omega
          · have hwhole : ¬ (place < offset ∧ offset ≤
                place + (chunk.events.length + (untile (segments Chunk.tips chunks)).length)) := by
              omega
            rw [if_neg hlater, if_neg hwhole]
      · rw [List.getLast?_append, Option.or_assoc]

variable {P : Platform} {manifest : RecordManifest} {chunks : List (Nat × Chunk)}
  {values : List Json} {events : List BufferMutation}

/-- The tip of a prefix of the log, by its place in the chain. -/
theorem getElem?_eventChain {sessionId : JsString} {version : FormatVersion} {count : Nat}
    (hpos : 0 < count) (hcount : count ≤ events.length) :
    (eventChain P sessionId version events)[count - 1]? =
      eventTip P sessionId version (events.take count) := by
  rw [eventChain, ChainScheme.getElem?_chain _ _ _ (by omega), Nat.sub_add_cancel hpos]
  rfl

/-- The last tip between two places is that of the prefix that ends there. -/
theorem getLast?_eventChain {sessionId : JsString} {version : FormatVersion} {first last : Nat}
    (hfirst : first < events.length) (hlast : first < last) :
    (((eventChain P sessionId version events).take last).drop first).getLast? =
      eventTip P sessionId version (events.take last) := by
  have hlength : (eventChain P sessionId version events).length = events.length := by
    rw [eventChain, ChainScheme.length_chain]
  have hne : ((eventChain P sessionId version events).take last).length ≠ 0 := by
    rw [List.length_take]
    omega
  rw [List.getLast?_drop, if_neg (by rw [List.length_take]; omega), List.getLast?_eq_getElem?,
    List.length_take, List.getElem?_take_of_lt (by omega), hlength,
    getElem?_eventChain (by omega) (by omega)]
  by_cases hwhole : last ≤ events.length
  · rw [Nat.min_eq_left hwhole]
  · rw [Nat.min_eq_right (by omega), List.take_of_length_le (Nat.le_refl _),
      List.take_of_length_le (by omega)]

/-- What the chunks of a partition give is the page of the log. -/
theorem Partition.page_eq (h : Partition P manifest chunks values events) {length : Chunk → Nat}
    (hreader : ∀ chunk ∈ chunks, length chunk.2 = chunk.2.events.length) {offset limit : Nat}
    (hoffset : offset ≤ values.length) (hlimit : 1 ≤ limit) :
    (chunks.foldl (readChunk length offset limit) emptyRead).page offset values.length =
      expectedPage P manifest values events offset limit := by
  have hlength : values.length = events.length := h.reads.length_eq
  rw [foldl_readChunk (fun chunk hchunk => ⟨(h.sized chunk hchunk).1, hreader chunk hchunk⟩)
    h.tiled, h.values_eq, h.chain, eventChain, ChainScheme.length_chain, ← eventChain]
  simp only [PageRead.page, emptyRead, expectedPage, List.nil_append, Nat.sub_zero, Nat.zero_add,
    Option.or_none, EventPage.mk.injEq, true_and]
  have hslice : (values.take (offset + limit)).drop offset = (values.drop offset).take limit := by
    rw [List.drop_take, Nat.add_sub_cancel_left]
  have hcount : ((values.take (offset + limit)).drop offset).length =
      min limit (values.length - offset) := by
    rw [hslice, List.length_take, List.length_drop]
  have hbefore : (if 0 < offset ∧ offset ≤ events.length then
      (eventChain P manifest.sessionId manifest.formatVersion events)[offset - 1]? else none) =
        eventTip P manifest.sessionId manifest.formatVersion (events.take offset) := by
    by_cases hzero : offset = 0
    · subst hzero
      rw [if_neg (by omega), List.take_zero]
      rfl
    · rw [if_pos (by omega), getElem?_eventChain (by omega) (by omega)]
  rw [hbefore]
  refine ⟨hslice, ?_, rfl, ?_⟩
  · simp only [hcount]
    by_cases hmore : offset + limit < values.length
    · rw [if_pos (by omega), if_pos hmore, Nat.min_eq_left (by omega)]
    · rw [if_neg (by omega), if_neg hmore]
  · by_cases hend : offset = values.length
    · -- Nothing is left to return, so the tip before the page is also the one after it.
      have hnone : (((eventChain P manifest.sessionId manifest.formatVersion events).take
          (offset + limit)).drop offset).getLast? = none := by
        rw [List.getLast?_eq_none_iff]
        apply List.drop_eq_nil_of_le
        rw [List.length_take, eventChain, ChainScheme.length_chain]
        omega
      rw [hnone, Option.none_or, List.take_of_length_le (by omega),
        List.take_of_length_le (by omega)]
    · rw [getLast?_eventChain (by omega) (by omega)]
      cases htip : eventTip P manifest.sessionId manifest.formatVersion
          (events.take (offset + limit)) with
      | some tip => rfl
      | none =>
          rw [eventTip, ChainScheme.tip_eq_none, List.take_eq_nil_iff] at htip
          rcases htip with hzero | hnil
          · omega
          · rw [hnil, List.length_nil] at hlength
            omega

/-! ## Where a record is kept -/

/-- A chunk as a row of the database. -/
def chunkRow (uploadId : JsString) (entry : Nat × Chunk) : ChunkRow where
  uploadId
  startSeq := entry.1
  endSeq := entry.1 + entry.2.events.length
  events := entry.2.events
  chainTips := entry.2.tips

/-- The database has these chunks for the upload behind a record, in any order. -/
structure PostgresTables.Has (tables : PostgresTables) (record : StoredRecord)
    (chunks : List (Nat × Chunk)) : Prop where
  owned : ∃ upload ∈ tables.recordUploads, owns record upload = true
  rows : ∀ upload ∈ tables.recordUploads, owns record upload = true →
    (tables.recordEventChunks.filter fun row => row.uploadId == upload.uploadId).Perm
      (chunks.map (chunkRow upload.uploadId))

/-- A record's log is kept with the record, or in chunks behind a chunked store
that reads its pages with `page`. -/
inductive KeptLog (A : Type) (P : Platform)
    (page : StoredRecord → Nat → Nat → Except StoreError EventPage) (record : StoredRecord)
    (values : List Json) : Prop where
  | inline (storage : record.eventStorage = .inline) (events : record.events = values)
  | memory {store : ChunkedStore A} {state : UploadState A} {chunks : OrderedMap Nat Chunk}
      {events : List BufferMutation} (storage : record.eventStorage = .chunks)
      (reader : page = store.page) (owner : store.owner? record = some state)
      (held : store.chunks.get? state.uploadId = some chunks)
      (partition : Partition P record.manifest chunks.entries values events)
      (count : record.manifest.eventCount = values.length)
  | postgres {tables : PostgresTables} {chunks : List (Nat × Chunk)}
      {events : List BufferMutation} (storage : record.eventStorage = .chunks)
      (reader : page = tables.page) (held : tables.Has record chunks)
      (partition : Partition P record.manifest chunks values events)
      (count : record.manifest.eventCount = values.length)

/-- The log of a record that was verified when it was stored. -/
structure LogOf (record : StoredRecord) (values : List Json) (events : List BufferMutation) :
    Prop where
  reads : ReadsAsLog values events
  validLog : ValidLog events
  session : isUuid record.manifest.sessionId = true
  nonempty : values ≠ []
  count : record.manifest.eventCount = values.length

theorem page_of_memory {store : ChunkedStore A} {record : StoredRecord} {state : UploadState A}
    {chunks : OrderedMap Nat Chunk} (howner : store.owner? record = some state)
    (hheld : store.chunks.get? state.uploadId = some chunks)
    (h : Partition P record.manifest chunks.entries values events)
    (hcount : record.manifest.eventCount = values.length) {offset limit : Nat}
    (hoffset : offset ≤ values.length) (hlimit : 1 ≤ limit) :
    store.page record offset limit =
      .ok (expectedPage P record.manifest values events offset limit) := by
  have hseq : state.nextSeq = values.length := by
    have hfound := List.find?_some howner
    simp only [Bool.and_eq_true, beq_iff_eq] at hfound
    rw [hfound.2, hcount]
  rw [ChunkedStore.page, howner]
  simp only
  rw [hheld, Option.getD_some, hseq,
    h.page_eq (fun chunk hchunk => (h.sized chunk hchunk).1) hoffset hlimit]

/-- Chunks that are not empty begin at different places. -/
theorem Partition.sorted (h : Partition P manifest chunks values events) :
    chunks.Pairwise fun earlier later => earlier.1 < later.1 := by
  have hstrict : ∀ {start : Nat} {chunks : List (Nat × Chunk)},
      (∀ chunk ∈ chunks, 0 < chunk.2.events.length) →
      Tiled start (segments Chunk.events chunks) →
        chunks.Pairwise fun earlier later => earlier.1 < later.1 := by
    intro start chunks hsized htiled
    induction chunks generalizing start with
    | nil => exact .nil
    | cons chunk chunks ih =>
        obtain ⟨rfl, hrest⟩ := htiled
        rw [List.pairwise_cons]
        refine ⟨?_, ih (fun other hother => hsized other (by simp [hother])) hrest⟩
        intro later hlater
        have hle := hrest.le_place (List.mem_map_of_mem hlater)
        have hpos := hsized chunk (by simp)
        simp only at hle
        omega
  exact hstrict (fun chunk hchunk => (h.sized chunk hchunk).2.1) h.tiled

/-- The rows that a page selects, as the chunks that they are. -/
def selected (offset limit : Nat) (entry : Nat × Chunk) : Bool :=
  decide (offset ≤ entry.1 + entry.2.events.length) && decide (entry.1 < offset + limit) &&
    decide (offset - maxEventChunk ≤ entry.1)

theorem selectChunks_eq (h : Partition P manifest chunks values events)
    {tables : PostgresTables} {uploadId : JsString}
    (hrows : (tables.recordEventChunks.filter fun row => row.uploadId == uploadId).Perm
      (chunks.map (chunkRow uploadId))) (offset limit : Nat) :
    (tables.selectChunks uploadId offset limit).map PostgresTables.ChunkRow.entry =
      chunks.filter (selected offset limit) := by
  let inPage : ChunkRow → Bool := fun row => decide (offset ≤ row.endSeq) &&
    decide (row.startSeq < offset + limit) && decide (offset - maxEventChunk ≤ row.startSeq)
  have hfilter : (tables.recordEventChunks.filter fun row =>
      row.uploadId == uploadId && decide (offset ≤ row.endSeq) &&
        decide (row.startSeq < offset + limit) &&
        decide (offset - maxEventChunk ≤ row.startSeq)) =
      (tables.recordEventChunks.filter fun row => row.uploadId == uploadId).filter inPage := by
    rw [List.filter_filter]
    congr 1
    funext row
    simp only [inPage, Bool.and_assoc, Bool.and_comm, Bool.and_left_comm]
  have hmap : (chunks.map (chunkRow uploadId)).filter inPage =
      (chunks.filter (selected offset limit)).map (chunkRow uploadId) := by
    rw [List.filter_map]
    rfl
  have hperm : (tables.selectChunks uploadId offset limit).Perm
      ((chunks.filter (selected offset limit)).map (chunkRow uploadId)) := by
    rw [PostgresTables.selectChunks, hfilter, ← hmap]
    exact (List.mergeSort_perm _ _).trans (hrows.filter _)
  have hsorted : (tables.selectChunks uploadId offset limit).Pairwise fun left right =>
      decide (left.startSeq ≤ right.startSeq) = true := by
    apply List.pairwise_mergeSort
    · intro a b c hab hbc
      rw [decide_eq_true_eq] at *
      exact Nat.le_trans hab hbc
    · intro a b
      rw [Bool.or_eq_true, decide_eq_true_eq, decide_eq_true_eq]
      exact Nat.le_total _ _
  have hstarts : (chunks.filter (selected offset limit)).Pairwise fun earlier later =>
      earlier.1 < later.1 :=
    h.sorted.sublist List.filter_sublist
  have hsame : tables.selectChunks uploadId offset limit =
      (chunks.filter (selected offset limit)).map (chunkRow uploadId) := by
    apply List.Perm.eq_of_pairwise _ hsorted _ hperm
    · intro a b ha hb hab hba
      rw [decide_eq_true_eq] at hab hba
      obtain ⟨first, hfirst, rfl⟩ := List.mem_map.1 (hperm.subset ha)
      obtain ⟨second, hsecond, rfl⟩ := List.mem_map.1 hb
      have hplaces : first.1 = second.1 := Nat.le_antisymm hab hba
      have hnodup : ((chunks.filter (selected offset limit)).map Prod.fst).Nodup := by
        rw [List.Nodup, List.pairwise_map]
        exact List.Pairwise.imp Nat.ne_of_lt hstarts
      rw [List.inj_on_of_nodup_map hnodup hfirst hsecond hplaces]
    · rw [List.pairwise_map]
      apply List.Pairwise.imp _ hstarts
      intro earlier later hlt
      rw [decide_eq_true_eq]
      exact Nat.le_of_lt hlt
  rw [hsame, List.map_map]
  exact List.map_id _

/-- A chunk that the query leaves out adds nothing to the page. -/
theorem readChunk_of_not_selected {offset limit : Nat} {entry : Nat × Chunk}
    (hsized : entry.2.tips.length = entry.2.events.length)
    (hlength : entry.2.events.length ≤ maxEventChunk)
    (hout : selected offset limit entry = false) (found : PageRead) :
    readChunk (fun chunk => chunk.events.length) offset limit found entry = found := by
  obtain ⟨start, chunk⟩ := entry
  simp only at hsized hlength
  have hcases : start + chunk.events.length < offset ∨ offset + limit ≤ start := by
    by_contra hin
    have hselected : selected offset limit (start, chunk) = true := by
      simp only [selected, Bool.and_eq_true, decide_eq_true_eq]
      omega
    rw [hout] at hselected
    cases hselected
  have hnone : ∀ {α : Type} (items : List α), items.length = chunk.events.length →
      between offset (offset + limit) (start, items) = [] := by
    intro α items hitems
    apply List.drop_eq_nil_of_le
    simp only [List.length_take]
    omega
  rw [readChunk_eq hsized, hnone chunk.events rfl, hnone chunk.tips hsized, if_neg (by omega)]
  simp

theorem page_of_postgres {tables : PostgresTables} {record : StoredRecord}
    (hheld : tables.Has record chunks)
    (h : Partition P record.manifest chunks values events)
    (hcount : record.manifest.eventCount = values.length) {offset limit : Nat}
    (hoffset : offset ≤ values.length) (hlimit : 1 ≤ limit) :
    tables.page record offset limit =
      .ok (expectedPage P record.manifest values events offset limit) := by
  obtain ⟨some, hsome, howns⟩ := hheld.owned
  have hfound : (tables.recordUploads.find? (PostgresTables.owns record)).isSome := by
    rw [List.find?_isSome]
    exact ⟨some, hsome, howns⟩
  obtain ⟨upload, hupload⟩ := Option.isSome_iff_exists.1 hfound
  have hrows := hheld.rows upload (List.mem_of_find?_eq_some hupload) (List.find?_some hupload)
  have hfold : (chunks.filter (selected offset limit)).foldl
      (readChunk (fun chunk => chunk.events.length) offset limit) emptyRead =
        chunks.foldl (readChunk (fun chunk => chunk.events.length) offset limit) emptyRead := by
    rw [List.foldl_filter]
    apply List.foldl_ext
    intro found entry hentry
    by_cases hin : selected offset limit entry = true
    · rw [if_pos hin]
    · obtain ⟨hsized, -, hlength⟩ := h.sized entry hentry
      rw [if_neg hin, readChunk_of_not_selected hsized hlength (by simpa using hin)]
  rw [PostgresTables.page, hupload]
  simp only
  rw [selectChunks_eq h hrows, hfold, hcount, h.page_eq (fun _ _ => rfl) hoffset hlimit]

theorem eventPage_inline {page : StoredRecord → Nat → Nat → Except StoreError EventPage}
    {record : StoredRecord} (hstorage : record.eventStorage = .inline)
    (h : LogOf record record.events events) {offset limit : Nat}
    (hoffset : offset ≤ record.events.length) (hlimit : 1 ≤ limit) :
    eventPage P page record offset limit =
      .ok (expectedPage P record.manifest record.events events offset limit) := by
  have hlength : record.events.length = events.length := h.reads.length_eq
  have hne : events ≠ [] := by
    rintro rfl
    exact h.nonempty (List.forall₂_nil_right_iff.1 h.reads)
  have hpositive : 0 < events.length := List.length_pos_of_ne_nil hne
  rw [eventPage, hstorage]
  simp only
  rw [computeEventHashChain_eq h.session h.reads h.validLog hne]
  have hcount : ((record.events.drop offset).take limit).length =
      min limit (record.events.length - offset) := by
    rw [List.length_take, List.length_drop]
  simp only [hcount, expectedPage, Except.ok.injEq, EventPage.mk.injEq, true_and]
  refine ⟨?_, ?_, ?_⟩
  · by_cases hmore : offset + limit < record.events.length
    · rw [if_pos (by omega), if_pos hmore, Nat.min_eq_left (by omega)]
    · rw [if_neg (by omega), if_neg hmore]
  · by_cases hzero : offset = 0
    · rw [if_pos hzero, hzero, List.take_zero]
      rfl
    · rw [if_neg hzero, getElem?_eventChain (by omega) (by omega)]
  · rw [if_neg (by omega), getElem?_eventChain (by omega) (by omega)]
    by_cases hmore : offset + limit < record.events.length
    · rw [Nat.min_eq_left (by omega)]
    · rw [List.take_of_length_le (by omega), List.take_of_length_le (by omega)]

/-- Every page of a stored record is the part of its log that was asked for. -/
theorem pageRoute_eq {page : StoredRecord → Nat → Nat → Except StoreError EventPage}
    {record : StoredRecord} (hkept : KeptLog A P page record values)
    (h : LogOf record values events) {offset limit : Nat} (hoffset : offset ≤ values.length)
    (hlimit : 1 ≤ limit) (hmaximum : limit ≤ maxEventChunk) :
    pageRoute P page record offset limit =
      .ok (expectedPage P record.manifest values events offset limit) := by
  have hcount := h.count
  rw [pageRoute, if_neg (by omega), if_neg (by omega)]
  cases hkept with
  | inline storage same =>
      subst same
      exact eventPage_inline storage h hoffset hlimit
  | @memory store state chunks found storage reader owner held partition count =>
      have hsame : found = events := by
        rw [← partition.reads.map_readEvent, ← h.reads.map_readEvent]
      subst hsame
      rw [eventPage, storage, reader]
      exact page_of_memory owner held partition count hoffset hlimit
  | @postgres tables chunks found storage reader held partition count =>
      have hsame : found = events := by
        rw [← partition.reads.map_readEvent, ← h.reads.map_readEvent]
      subst hsame
      rw [eventPage, storage, reader]
      exact page_of_postgres held partition count hoffset hlimit

end Pmbah.Store
