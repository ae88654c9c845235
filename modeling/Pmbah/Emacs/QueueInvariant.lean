import Pmbah.Emacs.Queue

/-!
# What waits, and what is asked of the worker

Every step captures an event, builds, acknowledges or flushes, or leaves the queue
alone.  A request that is kept always asks for the front of the queue from the
acknowledged cursor.
-/

namespace Pmbah.Emacs

open Js Format Library

namespace Editor

/-- The captured events not yet acknowledged. -/
def waiting (editor : Editor) : Nat := editor.nextSeq - editor.journalCount

/-- The request that is in flight or kept for a retry. -/
def Held (editor : Editor) (request : StorageRequest) : Prop :=
  editor.request = some request ∨ editor.retry = some request

def Exclusive (editor : Editor) : Prop := editor.request = none ∨ editor.retry = none

/-- What the requests depend on. -/
structure Cursor where
  sessionId : JsString
  statePath : JsString
  journalPath : JsString
  nextSeq : Nat
  lastT : Nat
  queue : List BufferMutation
  count : Nat
  bytes : Nat

def cursor (editor : Editor) : Cursor where
  sessionId := editor.sessionId
  statePath := editor.statePath
  journalPath := editor.journalPath
  nextSeq := editor.nextSeq
  lastT := editor.lastT
  queue := editor.journalPending.reverse
  count := editor.journalCount
  bytes := editor.journalBytes

/-- Signing is about to record a gap. -/
def recordsGap (editor : Editor) : Action → Bool
  | .prepareSigning _ tick => !editor.frozen && (editor.checkCaptureGap tick).pendingGap
  | _ => false

/-- What a step saves beside the queue, when it builds a request for it. -/
def builds (editor : Editor) : Action → Option (List (JsString × Json))
  | .pump others _ =>
      if !editor.saveFailure && (!editor.journalPending.isEmpty || editor.dirty) &&
          editor.startWriter.ready && editor.request.isNone && editor.retry.isNone then some others
      else none
  | _ => none

/-- The step may take saved events out of the queue. -/
def savesEvents : Action → Bool
  | .reply reply => !reply.ready && !reply.credit && reply.ok
  | .flush _ _ => true
  | _ => false

end Editor

/-- An event as the editor captures it. -/
structure Captured (event : BufferMutation) : Prop where
  t_lt : event.t < maxSessionMs
  pos_le : ∀ n ∈ event.pos, n ≤ maxBufferSize
  delLen_le : ∀ n ∈ event.delLen, n ≤ maxBufferSize
  insLen_le : ∀ n ∈ event.insLen, n ≤ maxBufferSize
  sizes : sizesAgree event.op event.delLen event.insLen

namespace Editor

/-- What a step does to the queue. -/
inductive Move (P : Platform) (editor : Editor) (action : Action) (next : Editor) : Prop where
  | keep (cursor : next.cursor = editor.cursor)
      (blocked : editor.storageBackpressure = true → next.storageBackpressure = true)
      (held : ∀ request, next.Held request → ∃ offset, editor.Held { request with offset })
      (exclusive : editor.Exclusive → next.Exclusive)
  | capture (event : BufferMutation) (captured : Captured event)
      (seq : event.seq = editor.nextSeq) (later : editor.lastT ≤ event.t)
      (cursor : next.cursor = { editor.cursor with
        nextSeq := editor.nextSeq + 1
        lastT := event.t
        queue := editor.journalPending.reverse ++ [event] })
      (blocked : next.storageBackpressure = (editor.storageBackpressure ||
        decide (pendingEventLimit ≤ editor.nextSeq + 1 - editor.journalCount)))
      (request : next.request = editor.request) (retry : next.retry = editor.retry)
      (room : editor.storageBackpressure = false ∨ editor.recordsGap action = true)
  | build (others : List (JsString × Json)) (offset : Nat)
      (idle : editor.request = none) (settled : editor.retry = none)
      (cursor : next.cursor = editor.cursor)
      (blocked : next.storageBackpressure = editor.storageBackpressure)
      (request : next.request = some { editor.newRequest P others with offset })
      (retry : next.retry = none) (builds : editor.builds action = some others)
  | acknowledge (request : StorageRequest) (sent : editor.request = some request)
      (cursor : next.cursor = { editor.cursor with
        queue := editor.journalPending.reverse.drop request.count
        count := request.eventCount
        bytes := request.byteLength })
      (blocked : next.storageBackpressure = (editor.storageBackpressure &&
        !decide (editor.nextSeq - request.eventCount < pendingEventLimit)))
      (idle : next.request = none) (retry : next.retry = editor.retry)
      (saves : savesEvents action = true)
  | flush (count : Nat) (idle : editor.request = none) (settled : editor.retry = none)
      (cursor : next.cursor = { editor.cursor with
        queue := editor.journalPending.reverse.drop count
        count := editor.journalCount + (editor.journalPending.reverse.take count).length
        bytes := editor.journalBytes +
          ((editor.journalPending.reverse.take count).flatMap eventLine).length })
      (blocked : next.storageBackpressure = editor.storageBackpressure)
      (request : next.request = none) (retry : next.retry = none)
      (saves : savesEvents action = true)

variable {P : Platform} {editor next : Editor} {action : Action}

/-- Steps that do not touch what storage depends on. -/
theorem Move.same (cursor : next.cursor = editor.cursor)
    (blocked : next.storageBackpressure = editor.storageBackpressure)
    (request : next.request = editor.request) (retry : next.retry = editor.retry) :
    Move P editor action next := by
  apply Move.keep cursor (fun h => by rw [blocked, h])
  · intro held hheld
    rw [Held, request, retry] at hheld
    exact ⟨held.offset, hheld⟩
  · intro hexclusive
    rw [Exclusive, request, retry]
    exact hexclusive

theorem reverse_take_sub {α : Type} (items : List α) (count : Nat) :
    (items.take (items.length - count)).reverse = items.reverse.drop count := by
  rw [List.drop_reverse]

/-! ## What each function does -/

theorem cursor_checkCaptureGap (editor : Editor) (tick : Nat) :
    (editor.checkCaptureGap tick).cursor = editor.cursor ∧
      (editor.checkCaptureGap tick).storageBackpressure = editor.storageBackpressure ∧
      (editor.checkCaptureGap tick).request = editor.request ∧
      (editor.checkCaptureGap tick).retry = editor.retry ∧
      (editor.checkCaptureGap tick).frozen = editor.frozen ∧
      (editor.checkCaptureGap tick).signing = editor.signing := by
  rw [checkCaptureGap]
  split
  · exact ⟨rfl, rfl, rfl, rfl, rfl, rfl⟩
  · exact ⟨rfl, rfl, rfl, rfl, rfl, rfl⟩

/-- An event that is appended is captured at the end of the queue. -/
theorem appendEvent_eq {op : Operation} {pos delLen insLen : Option Nat} {source : Source}
    {now : Int} (hpos : ∀ n ∈ pos, n ≤ maxBufferSize)
    (hdel : ∀ n ∈ delLen, n ≤ maxBufferSize) (hins : ∀ n ∈ insLen, n ≤ maxBufferSize)
    (hsizes : sizesAgree op delLen insLen)
    (h : editor.appendEvent op pos delLen insLen source now = some next) :
    ∃ event, Captured event ∧ event.seq = editor.nextSeq ∧ editor.lastT ≤ event.t ∧
      next = editor.enqueue event := by
  rw [appendEvent] at h
  split at h
  · cases h
  · rename_i hopen
    simp only [Bool.or_eq_true, decide_eq_true_eq, not_or, Nat.not_le] at hopen
    cases h
    refine ⟨_, ⟨hopen.2, ?_, hdel, hins, hsizes⟩, rfl, Nat.le_max_left _ _, rfl⟩
    intro n hn
    simp only [capturedEvent] at hn
    split at hn
    · cases hn
    · exact hpos n hn

theorem sizesAgree_changeOp {len inserted : Nat} {op : Operation}
    (h : changeOp len inserted = some op) : sizesAgree op (some len) (some inserted) := by
  rw [changeOp] at h
  split at h
  · rename_i hinsert
    cases h
    simpa [sizesAgree] using hinsert
  split at h
  · rename_i hdelete
    cases h
    simpa [sizesAgree] using hdelete
  split at h
  · rename_i hreplace
    cases h
    simpa [sizesAgree] using hreplace
  · cases h

theorem Move.of_enqueue (middle : Editor) {event : BufferMutation}
    (hcursor : middle.cursor = editor.cursor)
    (hblocked : middle.storageBackpressure = editor.storageBackpressure)
    (hrequest : middle.request = editor.request) (hretry : middle.retry = editor.retry)
    (hcaptured : Captured event) (hseq : event.seq = middle.nextSeq)
    (hlater : middle.lastT ≤ event.t) (hnext : next.cursor = (middle.enqueue event).cursor)
    (hnextBlocked : next.storageBackpressure = (middle.enqueue event).storageBackpressure)
    (hnextRequest : next.request = middle.request) (hnextRetry : next.retry = middle.retry)
    (room : editor.storageBackpressure = false ∨ editor.recordsGap action = true) :
    Move P editor action next := by
  have hparts := hcursor
  simp only [cursor, Cursor.mk.injEq] at hparts
  obtain ⟨hid, hstate, hjournal, hnextSeq, hlastT, hqueue, hcount, hbytes⟩ := hparts
  refine .capture event hcaptured (hseq.trans hnextSeq) (by rw [← hlastT]; exact hlater) ?_ ?_
    (hnextRequest.trans hrequest) (hnextRetry.trans hretry) room
  · rw [hnext]
    simp only [cursor, enqueue, List.reverse_cons, hid, hstate, hjournal, hnextSeq, hqueue,
      hcount, hbytes]
  · rw [hnextBlocked, enqueue, hblocked, hnextSeq, hcount]

theorem change_move {tick tick' beg stop len : Nat} {source : Source} {now : Int}
    (h : editor.step P (.change tick tick' beg stop len source now) = some next) :
    Move P editor (.change tick tick' beg stop len source now) next := by
  rw [step] at h
  split at h
  · cases h
  rename_i hfits
  have hbefore : ∃ before : Editor, editor.beforeChange tick = before ∧
      before.cursor = editor.cursor ∧
      before.storageBackpressure = editor.storageBackpressure ∧
      before.request = editor.request ∧ before.retry = editor.retry := by
    refine ⟨_, rfl, ?_⟩
    rw [beforeChange]
    split
    · obtain ⟨hcursor, hblocked, hrequest, hretry, -⟩ := cursor_checkCaptureGap editor tick
      exact ⟨hcursor, hblocked, hrequest, hretry⟩
    · exact ⟨rfl, rfl, rfl, rfl⟩
  obtain ⟨before, hbefore, hcursor, hblocked, hrequest, hretry⟩ := hbefore
  rw [hbefore, afterChange] at h
  by_cases hfull : before.storageBackpressure = true
  · have hnext : next.cursor = before.cursor ∧
        next.storageBackpressure = before.storageBackpressure ∧
        next.request = before.request ∧ next.retry = before.retry := by
      cases hmode : before.mode <;> simp [hfull, hmode] at h <;> subst h <;>
        exact ⟨rfl, by simp [hfull], rfl, rfl⟩
    exact .same (hnext.1.trans hcursor) (hnext.2.1.trans hblocked) (hnext.2.2.1.trans hrequest)
      (hnext.2.2.2.trans hretry)
  · rw [Bool.not_eq_true] at hfull
    have hopen : false = editor.storageBackpressure := by rw [← hblocked, hfull]
    simp only [hfull, Bool.and_false, Bool.false_eq_true, if_false, Bool.or_false] at h
    split at h
    · cases h
      exact .same hcursor hblocked hrequest hretry
    · split at h
      · cases h
        exact .same hcursor hopen hrequest hretry
      · rename_i op hop
        obtain ⟨event, hcaptured, hseq, hlater, rfl⟩ := appendEvent_eq
          (by simp only [Option.mem_some_iff, forall_eq']; omega)
          (by simp only [Option.mem_some_iff, forall_eq']; omega)
          (by simp only [Option.mem_some_iff, forall_eq']; omega)
          (sizesAgree_changeOp hop) h
        exact .of_enqueue
          { before with observedTick := some tick', storageBackpressure := false }
          hcursor hopen hrequest hretry hcaptured hseq hlater rfl rfl rfl rfl
          (Or.inl hopen.symm)

theorem prepareSigning_move {now : Int} {tick : Nat}
    (h : editor.step P (.prepareSigning now tick) = some next) :
    Move P editor (.prepareSigning now tick) next := by
  rw [step, prepareSigning] at h
  split at h
  · cases h
  split at h
  · cases h
    exact .same rfl rfl rfl rfl
  rename_i hfrozen
  obtain ⟨hcursor, hblocked, hrequest, hretry, -⟩ := cursor_checkCaptureGap editor tick
  rw [recordUnrecordedChange] at h
  split at h
  · rename_i hgap
    obtain ⟨appended, happended, rfl⟩ := Option.map_eq_some_iff.1 h
    obtain ⟨event, hcaptured, hseq, hlater, rfl⟩ := appendEvent_eq (by simp) (by simp) (by simp)
      (by simp [sizesAgree]) happended
    refine .of_enqueue _ hcursor hblocked hrequest hretry hcaptured hseq hlater rfl rfl rfl rfl ?_
    right
    rw [recordsGap, hgap, Bool.and_true]
    simpa using hfrozen
  · cases h
    exact .same hcursor hblocked hrequest hretry

theorem startWriter_eq (editor : Editor) :
    editor.startWriter.cursor = editor.cursor ∧
      editor.startWriter.storageBackpressure = editor.storageBackpressure ∧
      editor.startWriter.request = editor.request ∧
      editor.startWriter.retry = editor.retry ∧
      ∀ others, editor.startWriter.newRequest P others = editor.newRequest P others := by
  rw [startWriter]
  split
  · exact ⟨rfl, rfl, rfl, rfl, fun _ => rfl⟩
  · exact ⟨rfl, rfl, rfl, rfl, fun _ => rfl⟩

/-- Sending a frame moves the offset of the request and nothing else. -/
theorem sendFrame_eq (editor : Editor) (halvings : Nat) :
    (editor.sendFrame halvings).cursor = editor.cursor ∧
      (editor.sendFrame halvings).storageBackpressure = editor.storageBackpressure ∧
      (editor.sendFrame halvings).retry = editor.retry ∧
      ∀ request, editor.request = some request →
        ∃ offset, (editor.sendFrame halvings).request = some { request with offset } := by
  rw [sendFrame]
  split
  · rename_i request hrequest
    split
    · refine ⟨rfl, rfl, rfl, ?_⟩
      intro other hother
      rw [hrequest, Option.some.injEq] at hother
      subst hother
      exact ⟨_, rfl⟩
    · refine ⟨rfl, rfl, rfl, ?_⟩
      intro other hother
      exact ⟨other.offset, hother⟩
  · rename_i hnone
    refine ⟨rfl, rfl, rfl, ?_⟩
    intro other hother
    rw [hnone] at hother
    cases hother

/-- A request that only goes on being sent. -/
theorem Move.of_held {request held : StorageRequest} {offset : Nat}
    (cursor : next.cursor = editor.cursor)
    (blocked : next.storageBackpressure = editor.storageBackpressure)
    (sent : next.request = some { request with offset }) (retry : next.retry = none)
    (hheld : editor.Held held) (hsame : ∃ offset, { request with offset } = held) :
    Move P editor action next := by
  apply Move.keep cursor (fun h => by rw [blocked, h])
  · intro other hother
    rcases hother with hother | hother
    · rw [sent, Option.some.injEq] at hother
      obtain ⟨place, hplace⟩ := hsame
      exact ⟨place, by rw [← hother]; exact hplace ▸ hheld⟩
    · rw [retry] at hother
      cases hother
  · intro _
    exact Or.inr retry

theorem pump_move {others : List (JsString × Json)} {halvings : Nat}
    (hexclusive : editor.Exclusive)
    (h : editor.step P (.pump others halvings) = some next) :
    Move P editor (.pump others halvings) next := by
  rw [step, Option.some.injEq, pumpStorage] at h
  obtain ⟨hcursor, hblocked, hrequest, hretry, hnew⟩ := startWriter_eq (P := P) editor
  split at h
  · subst h
    exact .same rfl rfl rfl rfl
  rename_i hsaving
  split at h
  · rename_i hwork
    simp only at h
    split at h
    · rename_i hready
      subst h
      rw [buildRequest]
      split
      · rename_i request hfound
        obtain ⟨hsendCursor, hsendBlocked, hsendRetry, hsend⟩ :=
          sendFrame_eq editor.startWriter halvings
        obtain ⟨offset, hoffset⟩ := hsend request hfound
        rw [hrequest] at hfound
        have hnone : editor.retry = none := by
          rcases hexclusive with hidle | hsettled
          · rw [hidle] at hfound
            cases hfound
          · exact hsettled
        exact .of_held (hsendCursor.trans hcursor) (hsendBlocked.trans hblocked) hoffset
          (by rw [hsendRetry, hretry, hnone]) (Or.inl hfound) ⟨request.offset, rfl⟩
      · rename_i hidle
        split
        · rename_i request hfound
          rw [hretry] at hfound
          obtain ⟨hsendCursor, hsendBlocked, hsendRetry, hsend⟩ := sendFrame_eq
            { editor.startWriter with
              request := some { request with offset := 0 }, dirty := true, retry := none } halvings
          obtain ⟨offset, hoffset⟩ := hsend _ rfl
          exact .of_held (hsendCursor.trans hcursor) (hsendBlocked.trans hblocked) hoffset
            hsendRetry (Or.inr hfound) ⟨request.offset, rfl⟩
        · rename_i hsettled
          rw [hrequest] at hidle
          rw [hretry] at hsettled
          obtain ⟨hsendCursor, hsendBlocked, hsendRetry, hsend⟩ := sendFrame_eq
            { editor.startWriter with
              request := some (editor.startWriter.newRequest P others)
              sequence := editor.startWriter.sequence + 1
              dirty := false } halvings
          obtain ⟨offset, hoffset⟩ := hsend _ rfl
          refine .build others offset hidle hsettled (hsendCursor.trans hcursor)
            (hsendBlocked.trans hblocked) ?_ (by rw [hsendRetry]; exact hretry.trans hsettled) ?_
          · rw [← hnew]
            exact hoffset
          · rw [hidle, hsettled] at hwork
            rw [builds, if_pos]
            simpa [hidle, hsettled, hready, hsaving] using hwork
    · subst h
      exact .same hcursor hblocked hrequest hretry
  · subst h
    exact .same rfl rfl rfl rfl

/-- A failure keeps the uncertain request for a retry. -/
theorem held_storageFailed (hexclusive : editor.Exclusive) {request : StorageRequest}
    (hheld : editor.storageFailed.Held request) : editor.Held request := by
  rcases hheld with hheld | hheld
  · cases hheld
  · rcases hexclusive with hidle | hsettled
    · rw [storageFailed, hidle, Option.none_or] at hheld
      exact Or.inr hheld
    · rw [storageFailed, hsettled, Option.or_none] at hheld
      exact Or.inl hheld

theorem storageFailed_move (hexclusive : editor.Exclusive) :
    Move P editor action editor.storageFailed := by
  refine .keep rfl (fun h => h) ?_ ?_
  · intro request hheld
    exact ⟨request.offset, held_storageFailed hexclusive hheld⟩
  · intro _
    exact Or.inl rfl

theorem reply_move {reply : WorkerReply} (hexclusive : editor.Exclusive)
    (h : editor.step P (.reply reply) = some next) : Move P editor (.reply reply) next := by
  rw [step] at h
  split at h
  · rw [Option.some.injEq] at h
    subst h
    cases hreply : editor.storageReply reply with
    | none => exact storageFailed_move hexclusive
    | some replied =>
        rw [Option.getD_some]
        rw [storageReply] at hreply
        split at hreply
        · split at hreply
          · cases hreply
          · cases hreply
            exact .same rfl rfl rfl rfl
        split at hreply
        · cases hreply
        rename_i request hrequest
        split at hreply
        · cases hreply
        split at hreply
        · split at hreply
          · cases hreply
          · cases hreply
            exact .same rfl rfl rfl rfl
        split at hreply
        · cases hreply
        split at hreply
        · cases hreply
        cases hreply
        refine .acknowledge request hrequest ?_ rfl rfl rfl ?_
        · simp only [cursor, acknowledge, reverse_take_sub]
        · rename_i hready _ _ hcredit hdone _
          rw [Bool.or_eq_true, not_or, Bool.not_eq_true', Bool.not_eq_false] at hdone
          rw [savesEvents, Bool.eq_false_of_not_eq_true hready,
            Bool.eq_false_of_not_eq_true hcredit, hdone.1]
          rfl
  · cases h

/-- What every step does. -/
theorem step_move (hexclusive : editor.Exclusive) (h : editor.step P action = some next) :
    Move P editor action next := by
  cases action with
  | change tick tick' beg stop len source now => exact change_move h
  | prepareSigning now tick => exact prepareSigning_move h
  | pump others halvings => exact pump_move hexclusive h
  | reply reply => exact reply_move hexclusive h
  | fail =>
      cases h
      exact storageFailed_move hexclusive
  | freeze | accept =>
      rw [step] at h
      split at h
      · cases h
        exact .same rfl rfl rfl rfl
      · cases h
  | retrySave =>
      rw [step] at h
      split at h
      · cases h
      · cases h
        exact .same rfl rfl rfl rfl
  | cancelSigning | drain =>
      cases h
      exact .same rfl rfl rfl rfl
  | drained =>
      rw [step] at h
      split at h
      · cases h
        split
        · exact .same rfl rfl rfl rfl
        · exact .same rfl rfl rfl rfl
      · cases h
  | flush count saved =>
      rw [step] at h
      split at h
      · cases h
      rename_i hidle
      split at h
      · cases h
      cases h
      simp only [Bool.or_eq_true, not_or, Bool.not_eq_true, Option.isSome_eq_false_iff,
        Option.isNone_iff_eq_none] at hidle
      refine .flush count hidle.1.2 hidle.2 ?_ rfl hidle.1.2 hidle.2 rfl
      simp only [cursor, flushJournal, reverse_take_sub]

end Editor

/-! ## Requests ask for the front of the queue -/

namespace Editor.Cursor

/-- The payload that asks for these events at this cursor. -/
def payload (cursor : Cursor) (id : Nat) (events : List BufferMutation)
    (others : List (JsString × Json)) : Json :=
  .obj [(js "id", Json.ofNat id), (js "state_path", .str cursor.statePath),
    (js "journal_path", .str cursor.journalPath),
    (js "expected_bytes", Json.ofNat cursor.bytes),
    (js "expected_count", Json.ofNat cursor.count),
    (js "events", .arr (events.map BufferMutation.toJson)),
    (js "state", .obj ((js "session_id", .str cursor.sessionId) ::
      (js "storage_version", Json.ofNat 2) :: (js "event_count", Json.ofNat cursor.count) ::
      (js "journal_bytes", Json.ofNat cursor.bytes) :: others))]

/-- The request asks for these events, which are the oldest of the queue. -/
structure Issued (cursor : Cursor) (request : StorageRequest) (events : List BufferMutation) :
    Prop where
  first : events <+: cursor.queue
  count : request.count = events.length
  eventCount : request.eventCount = cursor.count + events.length
  byteLength : request.byteLength = cursor.bytes + (events.flatMap eventLine).length
  payload_eq : ∃ id others, request.payload = cursor.payload id events others

theorem Issued.of_offset {cursor : Cursor} {request : StorageRequest} {offset : Nat}
    {events : List BufferMutation} (h : cursor.Issued { request with offset } events) :
    cursor.Issued request events :=
  ⟨h.first, h.count, h.eventCount, h.byteLength, h.payload_eq⟩

structure Sound (cwd : List JsString) (cursor : Cursor) : Prop where
  distinct : resolve cwd cursor.journalPath ≠ resolve cwd cursor.statePath
  together : dirname (resolve cwd cursor.journalPath) = dirname (resolve cwd cursor.statePath)
  session : cursor.sessionId ≠ []
  counted : cursor.nextSeq = cursor.count + cursor.queue.length
  captured : ∀ event ∈ cursor.queue, Captured event
  places : ∀ (i : Nat) (event : BufferMutation), cursor.queue[i]? = some event →
    event.seq = cursor.count + i
  sorted : cursor.queue.Pairwise fun earlier later => earlier.t ≤ later.t
  last : ∀ event ∈ cursor.queue, event.t ≤ cursor.lastT

/-- The front of the queue moves into the journal. -/
theorem Sound.advance {cwd : List JsString} {cursor : Cursor} (h : cursor.Sound cwd)
    (count bytes : Nat) : Sound cwd { cursor with
      queue := cursor.queue.drop count
      count := cursor.count + (cursor.queue.take count).length
      bytes } where
  distinct := h.distinct
  together := h.together
  session := h.session
  counted := by
    have hcounted := h.counted
    simp only [List.length_take, List.length_drop]
    omega
  captured event hevent := h.captured event (List.mem_of_mem_drop hevent)
  places i event hevent := by
    rw [List.getElem?_drop] at hevent
    have hplace := h.places _ event hevent
    have hlt := (List.getElem?_eq_some_iff.1 hevent).1
    simp only [List.length_take]
    omega
  sorted := h.sorted.sublist (List.drop_sublist _ _)
  last event hevent := h.last event (List.mem_of_mem_drop hevent)

theorem Sound.capture {cwd : List JsString} {cursor : Cursor} (h : cursor.Sound cwd)
    {event : BufferMutation} (hcaptured : Captured event) (hseq : event.seq = cursor.nextSeq)
    (hlater : cursor.lastT ≤ event.t) : Sound cwd { cursor with
      nextSeq := cursor.nextSeq + 1
      lastT := event.t
      queue := cursor.queue ++ [event] } where
  distinct := h.distinct
  together := h.together
  session := h.session
  counted := by
    have hcounted := h.counted
    simp only [List.length_append, List.length_singleton]
    omega
  captured other hother := by
    rcases List.mem_append.1 hother with hother | hother
    · exact h.captured other hother
    · rw [List.mem_singleton.1 hother]
      exact hcaptured
  places i other hother := by
    by_cases hlt : i < cursor.queue.length
    · rw [List.getElem?_append_left hlt] at hother
      exact h.places i other hother
    · rw [List.getElem?_append_right (by omega)] at hother
      have hbound := (List.getElem?_eq_some_iff.1 hother).1
      have hsame : i - cursor.queue.length = 0 := by
        rw [List.length_singleton] at hbound
        omega
      rw [hsame] at hother
      cases hother
      have hcounted := h.counted
      simp only
      omega
  sorted := by
    rw [List.pairwise_append]
    refine ⟨h.sorted, List.pairwise_singleton _ _, ?_⟩
    intro earlier hearlier later hmem
    rw [List.mem_singleton.1 hmem]
    exact Nat.le_trans (h.last earlier hearlier) hlater
  last other hother := by
    rcases List.mem_append.1 hother with hother | hother
    · exact Nat.le_trans (h.last other hother) hlater
    · rw [List.mem_singleton.1 hother]

end Editor.Cursor

namespace Editor

variable {P : Platform} {editor next : Editor} {action : Action} {cwd : List JsString}

structure Sound (cwd : List JsString) (editor : Editor) : Prop where
  cursor : editor.cursor.Sound cwd
  exclusive : editor.Exclusive
  issued : ∀ request, editor.Held request → ∃ events, editor.cursor.Issued request events

/-- A buffer whose session has nothing to save yet, fresh or recovered. -/
structure Starts (cwd : List JsString) (editor : Editor) : Prop where
  distinct : resolve cwd editor.journalPath ≠ resolve cwd editor.statePath
  together : dirname (resolve cwd editor.journalPath) = dirname (resolve cwd editor.statePath)
  session : editor.sessionId ≠ []
  saved : editor.nextSeq = editor.journalCount
  empty : editor.journalPending = []
  idle : editor.request = none
  settled : editor.retry = none

theorem Starts.sound (h : editor.Starts cwd) : editor.Sound cwd where
  cursor := {
    distinct := h.distinct
    together := h.together
    session := h.session
    counted := by simp [Editor.cursor, h.saved, h.empty]
    captured := by simp [Editor.cursor, h.empty]
    places := by simp [Editor.cursor, h.empty]
    sorted := by simp [Editor.cursor, h.empty]
    last := by simp [Editor.cursor, h.empty] }
  exclusive := Or.inl h.idle
  issued := by
    intro request hheld
    rw [Held, h.idle, h.settled] at hheld
    rcases hheld with hheld | hheld <;> cases hheld

theorem sum_lines (events : List BufferMutation) :
    (events.map fun event => 1 + (utf8ToBytes (jsonEncode event)).length).sum =
      (events.flatMap eventLine).length := by
  rw [List.length_flatMap]
  congr 1
  apply List.map_congr_left
  intro event _
  rw [eventLine_eq, List.length_append, List.length_singleton, Nat.add_comm]

theorem newRequest_issued (P : Platform) (editor : Editor) (others : List (JsString × Json)) :
    editor.cursor.Issued (editor.newRequest P others) editor.journalPending.reverse where
  first := List.prefix_refl _
  count := rfl
  eventCount := rfl
  byteLength := by
    rw [newRequest, sum_lines]
    rfl
  payload_eq := ⟨_, others, rfl⟩

theorem Sound.step (h : editor.Sound cwd) (hstep : editor.step P action = some next) :
    next.Sound cwd := by
  cases step_move h.exclusive hstep with
  | keep cursor blocked held exclusive =>
      refine ⟨by rw [cursor]; exact h.cursor, exclusive h.exclusive, ?_⟩
      intro request hheld
      obtain ⟨offset, hold⟩ := held request hheld
      obtain ⟨events, hissued⟩ := h.issued _ hold
      rw [cursor]
      exact ⟨events, hissued.of_offset⟩
  | capture event captured seq later cursor blocked request retry room =>
      refine ⟨by rw [cursor]; exact h.cursor.capture captured seq later, ?_, ?_⟩
      · rw [Exclusive, request, retry]
        exact h.exclusive
      · intro held hheld
        rw [Held, request, retry] at hheld
        obtain ⟨events, hissued⟩ := h.issued held hheld
        rw [cursor]
        exact ⟨events, hissued.first.trans (List.prefix_append _ _), hissued.count,
          hissued.eventCount, hissued.byteLength, hissued.payload_eq⟩
  | build others offset idle settled cursor blocked request retry =>
      refine ⟨by rw [cursor]; exact h.cursor, Or.inr retry, ?_⟩
      intro held hheld
      rw [Held, request, retry] at hheld
      rcases hheld with hheld | hheld
      · cases hheld
        rw [cursor]
        have hnew := newRequest_issued P editor others
        exact ⟨_, hnew.first, hnew.count, hnew.eventCount, hnew.byteLength, hnew.payload_eq⟩
      · cases hheld
  | acknowledge request sent cursor blocked idle retry =>
      obtain ⟨events, hissued⟩ := h.issued request (Or.inl sent)
      have hsettled : next.retry = none := by
        rw [retry]
        rcases h.exclusive with hidle | hsettled
        · rw [hidle] at sent
          cases sent
        · exact hsettled
      refine ⟨?_, Or.inl idle, ?_⟩
      · have htake : editor.journalPending.reverse.take request.count = events := by
          rw [hissued.count]
          exact (List.prefix_iff_eq_take.1 hissued.first).symm
        have hadvance := h.cursor.advance request.count request.byteLength
        rw [cursor, hissued.eventCount]
        simp only [Editor.cursor] at hadvance ⊢
        rw [htake] at hadvance
        exact hadvance
      · intro held hheld
        rw [Held, idle, hsettled] at hheld
        rcases hheld with hheld | hheld <;> cases hheld
  | flush count idle settled cursor blocked request retry =>
      refine ⟨by rw [cursor]; exact h.cursor.advance count _, Or.inl request, ?_⟩
      intro held hheld
      rw [Held, request, retry] at hheld
      rcases hheld with hheld | hheld <;> cases hheld

end Editor

end Pmbah.Emacs
