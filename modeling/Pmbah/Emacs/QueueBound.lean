import Pmbah.Emacs.QueueInvariant

/-!
# The queue fits the worker

As long as no gap is recorded at signing into a full queue, at most 256 captured
events await storage, and the worker takes the shape of every request.
-/

namespace Pmbah.Emacs

open Js Format Library

namespace Editor

/-- The step records no gap while the queue is full. -/
def GapHasRoom (editor : Editor) (action : Action) : Prop :=
  editor.recordsGap action = true → editor.waiting < pendingEventLimit

instance (editor : Editor) (action : Action) : Decidable (editor.GapHasRoom action) := by
  unfold GapHasRoom
  infer_instance

/-- The worker takes the request's shape and batch, and counts as the editor does.
The batch is checked event by event afterwards. -/
def Accepted (P : Platform) (cwd : List JsString) (request : StorageRequest) : Prop :=
  ∃ write sessionId, readRequest cwd request.payload = .ok write ∧
    snapshotSession write = .ok sessionId ∧
    request.eventCount = write.expectedCount + write.events.length ∧
    request.byteLength =
      write.expectedBytes + (write.events.map (journalLine P)).flatten.length

/-- What waits fits, and so does every request whose cursor is an exact integer. -/
structure QueueFits (P : Platform) (cwd : List JsString) (editor : Editor) : Prop where
  waiting_le : editor.waiting ≤ pendingEventLimit
  accepted : ∀ request, editor.Held request → request.eventCount ≤ maxTimeFieldValue →
    request.byteLength ≤ maxTimeFieldValue → Accepted P cwd request

/-! ## The bound -/

/-- A full queue blocks capture. -/
structure Bounded (editor : Editor) : Prop where
  length_le : editor.cursor.queue.length ≤ pendingEventLimit
  blocked : editor.storageBackpressure = true ∨ editor.cursor.queue.length < pendingEventLimit

variable {P : Platform} {cwd : List JsString} {editor next : Editor} {action : Action}

theorem Sound.waiting_eq (h : editor.Sound cwd) :
    editor.waiting = editor.cursor.queue.length := by
  have hcounted := h.cursor.counted
  simp only [Editor.cursor] at hcounted ⊢
  rw [waiting]
  omega

theorem Bounded.step (hsound : editor.Sound cwd) (h : editor.Bounded)
    (hroom : editor.GapHasRoom action) (hstep : editor.step P action = some next) :
    next.Bounded := by
  have hwaiting := hsound.waiting_eq
  have hcounted := hsound.cursor.counted
  have hlength := h.length_le
  cases step_move hsound.exclusive hstep with
  | keep cursor blocked held exclusive =>
      refine ⟨by rw [cursor]; exact hlength, ?_⟩
      rw [cursor]
      exact h.blocked.imp blocked id
  | capture event captured seq later cursor blocked request retry room =>
      have hless : editor.cursor.queue.length < pendingEventLimit := by
        rcases room with hopen | hgap
        · rcases h.blocked with hfull | hless
          · rw [hopen] at hfull
            cases hfull
          · exact hless
        · rw [← hwaiting]
          exact hroom hgap
      have hnext : next.cursor.queue.length = editor.cursor.queue.length + 1 := by
        rw [cursor, List.length_append, List.length_singleton]
        rfl
      refine ⟨by omega, ?_⟩
      by_cases hfull : pendingEventLimit ≤ editor.nextSeq + 1 - editor.journalCount
      · left
        rw [blocked, decide_eq_true hfull, Bool.or_true]
      · right
        simp only [Editor.cursor] at hcounted hnext ⊢
        omega
  | build others offset idle settled cursor blocked request retry =>
      refine ⟨by rw [cursor]; exact hlength, ?_⟩
      rw [cursor, blocked]
      exact h.blocked
  | acknowledge request sent cursor blocked idle retry =>
      obtain ⟨events, hissued⟩ := hsound.issued request (Or.inl sent)
      have hprefix := hissued.first.length_le
      have hnext : next.cursor.queue.length = editor.cursor.queue.length - request.count := by
        rw [cursor, List.length_drop]
        rfl
      refine ⟨by omega, ?_⟩
      by_cases hless : next.cursor.queue.length < pendingEventLimit
      · exact Or.inr hless
      · left
        have hcount := hissued.count
        have heventCount := hissued.eventCount
        simp only [Editor.cursor] at hcounted heventCount
        rw [blocked, Bool.and_eq_true, Bool.not_eq_true', decide_eq_false_iff_not]
        refine ⟨?_, ?_⟩
        · rcases h.blocked with hfull | hopen
          · exact hfull
          · omega
        · simp only [Editor.cursor] at hless hnext hprefix
          omega
  | flush count idle settled cursor blocked request retry =>
      have hnext : next.cursor.queue.length = editor.cursor.queue.length - count := by
        rw [cursor, List.length_drop]
        rfl
      refine ⟨by omega, ?_⟩
      rw [blocked]
      exact h.blocked.imp id (by omega)

/-! ## The shape of requests -/

theorem integer_ofNat {n : Nat} (h : n ≤ maxTimeFieldValue) :
    integer (some (Json.ofNat n)) = true :=
  isSafeElapsed_iff.2 ⟨n, h, rfl⟩

theorem readRequest_payload_eq (cwd : List JsString) (cursor : Cursor) (id : Nat)
    (events : List BufferMutation) (others : List (JsString × Json)) :
    readRequest cwd (cursor.payload id events others) =
      if integer (some (Json.ofNat cursor.bytes)) && integer (some (Json.ofNat cursor.count)) &&
          decide ((events.map BufferMutation.toJson).length ≤ maxBatch) && true &&
          decide (resolve cwd cursor.journalPath ≠ resolve cwd cursor.statePath) &&
          decide (dirname (resolve cwd cursor.journalPath) =
            dirname (resolve cwd cursor.statePath)) then
        .ok { id := some (Json.ofNat id), expectedBytes := cursor.bytes,
              expectedCount := cursor.count, events := events.map BufferMutation.toJson
              state := .obj ((js "session_id", .str cursor.sessionId) ::
                (js "storage_version", Json.ofNat 2) ::
                (js "event_count", Json.ofNat cursor.count) ::
                (js "journal_bytes", Json.ofNat cursor.bytes) :: others) }
      else .error (.error (js "invalid session write request")) := rfl

/-- What the worker reads of a payload that asks for these events at this cursor. -/
theorem readRequest_payload {cursor : Cursor} (h : cursor.Sound cwd)
    (hcount : cursor.count ≤ maxTimeFieldValue) (hbytes : cursor.bytes ≤ maxTimeFieldValue)
    {events : List BufferMutation} (hbatch : events.length ≤ maxBatch) (id : Nat)
    (others : List (JsString × Json)) :
    ∃ write, readRequest cwd (cursor.payload id events others) = .ok write ∧
      write.id = some (Json.ofNat id) ∧ write.expectedCount = cursor.count ∧
      write.expectedBytes = cursor.bytes ∧ write.events = events.map BufferMutation.toJson ∧
      some write.state = (cursor.payload id events others).field (js "state") ∧
      snapshotSession write = .ok cursor.sessionId := by
  have hread := readRequest_payload_eq cwd cursor id events others
  rw [integer_ofNat hbytes, integer_ofNat hcount, List.length_map, decide_eq_true hbatch,
    decide_eq_true h.distinct, decide_eq_true h.together] at hread
  refine ⟨_, hread, rfl, rfl, rfl, rfl, rfl, ?_⟩
  exact if_pos ⟨rfl, h.session, rfl, rfl⟩

theorem journalLines_eq {events : List BufferMutation} (P : Platform)
    (h : ∀ event ∈ events, Emacs.Bounded event) :
    (events.map BufferMutation.toJson).map (journalLine P) = events.map eventLine := by
  rw [List.map_map]
  apply List.map_congr_left
  intro event hevent
  exact journalLine_toJson P (h event hevent)

theorem bounded_of_captured {event : BufferMutation} (h : Captured event)
    (hseq : event.seq ≤ maxTimeFieldValue) : Emacs.Bounded event where
  seq_le := hseq
  t_le := Nat.le_of_lt h.t_lt
  pos_le := h.pos_le
  delLen_le := h.delLen_le
  insLen_le := h.insLen_le

/-- The lines of a batch are those that the editor counted. -/
theorem Cursor.Sound.bounded {cursor : Cursor} (h : cursor.Sound cwd)
    {events : List BufferMutation} (hfirst : events <+: cursor.queue)
    (hcount : cursor.count + events.length ≤ maxTimeFieldValue) :
    ∀ event ∈ events, Emacs.Bounded event := by
  intro event hevent
  obtain ⟨i, hlt, rfl⟩ := List.getElem_of_mem hevent
  obtain ⟨rest, hqueue⟩ := hfirst
  have hplace : cursor.queue[i]? = some events[i] := by
    rw [← hqueue, List.getElem?_append_left hlt, List.getElem?_eq_getElem hlt]
  have hseq := h.places i _ hplace
  exact bounded_of_captured (h.captured _ (List.mem_of_getElem? hplace)) (by omega)

theorem Sound.accepted (hsound : editor.Sound cwd) (h : editor.Bounded)
    {request : StorageRequest} (hheld : editor.Held request)
    (hcount : request.eventCount ≤ maxTimeFieldValue)
    (hbytes : request.byteLength ≤ maxTimeFieldValue) : Accepted P cwd request := by
  obtain ⟨events, hissued⟩ := hsound.issued request hheld
  obtain ⟨id, others, hpayload⟩ := hissued.payload_eq
  have hlength := hissued.first.length_le
  have hfull := h.length_le
  rw [hissued.eventCount] at hcount
  rw [hissued.byteLength] at hbytes
  obtain ⟨write, hread, -, hexpected, hexpectedBytes, hevents, -, hsnapshot⟩ :=
    readRequest_payload hsound.cursor (by omega) (by omega)
      (Nat.le_trans hlength hfull) id others
  refine ⟨write, _, by rw [hpayload, hread], hsnapshot, ?_, ?_⟩
  · rw [hissued.eventCount, hexpected, hevents, List.length_map]
  · rw [hissued.byteLength, hexpectedBytes, hevents,
      journalLines_eq P (hsound.cursor.bounded hissued.first hcount), ← List.flatMap_def]

theorem Starts.bounded (h : editor.Starts cwd) : editor.Bounded := by
  have hempty : editor.cursor.queue = [] := by
    rw [Editor.cursor, h.empty, List.reverse_nil]
  refine ⟨?_, Or.inr ?_⟩
  · rw [hempty]
    exact Nat.zero_le _
  · rw [hempty]
    decide

/-- In every run that records no gap into a full queue, everything fits. -/
theorem queueFits_run {first : Editor} (hstart : first.Starts cwd)
    (run : Run (Editor.step P) GapHasRoom first editor) : QueueFits P cwd editor := by
  have hboth : editor.Sound cwd ∧ editor.Bounded := by
    refine run.invariant (I := fun state => state.Sound cwd ∧ state.Bounded) ?_
      ⟨hstart.sound, hstart.bounded⟩
    intro state action after hstate hroom hstep
    exact ⟨hstate.1.step hstep, hstate.2.step hstate.1 hroom hstep⟩
  obtain ⟨hsound, hbounded⟩ := hboth
  refine ⟨?_, ?_⟩
  · rw [hsound.waiting_eq]
    exact hbounded.length_le
  · intro request hheld hcount hbytes
    exact hsound.accepted hbounded hheld hcount hbytes

/-! ## A gap into a full queue -/

/-- A session that has just begun in an empty buffer. -/
def exampleEditor : Editor where
  sessionId := js "00000000-0000-4000-8000-000000000001"
  statePath := js "/state/session.json"
  journalPath := js "/state/events.jsonl"
  mode := true
  lastT := 0
  nextSeq := 0
  journalPending := []
  journalCount := 0
  journalBytes := 0
  pendingGap := false
  observedTick := none
  signing := false
  frozen := false
  saveFailure := false
  storageBackpressure := false
  live := false
  ready := false
  credit := false
  request := none
  retry := none
  dirty := false
  draining := false
  sequence := 0

theorem exampleEditor_starts : exampleEditor.Starts [] where
  distinct := by decide
  together := by decide
  session := by decide
  saved := rfl
  empty := rfl
  idle := rfl
  settled := rfl

/-- One character at the start of the buffer. -/
def typed : Action := .change 0 0 1 2 0 .typing 0

def workerReady : WorkerReply :=
  { ready := true, id := none, credit := false, ok := false, eventCount := none,
    byteLength := none }

/-- Three edits, a gap that signing records, and the request for all four. -/
def roomyActions : List Action :=
  [typed, typed, .pump [] 0, typed, .change 1 1 1 1 0 .unknown 0, .prepareSigning 0 2,
    .reply workerReady, .pump [] 0]

theorem queueFits_roomy : ∃ editor,
    (editor.request.any fun request => request.eventCount == 4) = true ∧
      QueueFits Platform.standard [] editor := by
  have hrun : (runAll (Editor.step Platform.standard) GapHasRoom exampleEditor roomyActions).any
      (fun editor => editor.request.any fun request => request.eventCount == 4) = true := by
    decide +kernel
  obtain ⟨editor, heditor, hrequest⟩ := (Option.any_eq_true _ _).1 hrun
  exact ⟨editor, hrequest, queueFits_run exampleEditor_starts (Run.of_runAll heditor)⟩

/-- The queue fills before the worker is ready, an edit bypasses the read-only
buffer, and signing records it. -/
def fullActions : List Action :=
  typed :: .pump [] 0 :: List.replicate 255 typed ++
    [typed, .prepareSigning 0 0, .reply workerReady, .pump [] 0]

def refused (request : StorageRequest) : Bool :=
  match readRequest [] request.payload with
  | .ok _ => false
  | .error _ => true

/-- The worker refuses the request for 257 events, and its retry is the same. -/
theorem not_queueFits_full :
    ¬ ∀ editor, Run (Editor.step Platform.standard) (fun _ _ => True) exampleEditor editor →
      QueueFits Platform.standard [] editor := by
  intro hfits
  have hrun : (runAll (Editor.step Platform.standard) (fun _ _ => True) exampleEditor
      fullActions).any (fun editor => editor.waiting == 257 && editor.request.any refused) = true := by
    decide +kernel
  obtain ⟨editor, heditor, hfull⟩ := (Option.any_eq_true _ _).1 hrun
  rw [Bool.and_eq_true, beq_iff_eq] at hfull
  have hle := (hfits editor (Run.of_runAll heditor)).waiting_le
  rw [hfull.1] at hle
  exact absurd hle (by decide)

end Editor

end Pmbah.Emacs
