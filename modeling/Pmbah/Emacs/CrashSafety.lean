import Pmbah.Emacs.PlannedRequests
import Pmbah.Emacs.WriterSpec

/-!
# Crash safety of the disk worker

The worker may stop after any of its writes, and its reply may be late or lost.  The
editor then asks again for the same events, and captures others in the meantime.
-/

namespace Pmbah.Emacs

open Js Format Library

/-- The editor with the files of its session.  Kept beside them are the events
captured so far, those of acknowledged requests, and the payload that the worker
last wrote anything for. -/
structure Session where
  editor : Editor
  disk : Disk
  captured : List BufferMutation
  acknowledged : List BufferMutation
  begun : Option Json

namespace Session

/-- A step of the editor that saves nothing, some writes of the worker for the request in
flight (it stops there, or its reply is late or lost), or the whole request with its
reply. -/
inductive Action where
  | edit (action : Editor.Action)
  | write (count : Nat)
  | save

/-- The events at the end of the queue that a step has captured. -/
def newEvents (editor next : Editor) : List BufferMutation :=
  (next.journalPending.take (next.nextSeq - editor.nextSeq)).reverse

/-- The request that the worker has received in full. -/
def sent (session : Session) : Option StorageRequest :=
  session.editor.request.filter fun request =>
    session.editor.live && request.offset == request.payloadLength

/-- What the worker answers under the id of its frames. -/
def replyTo (request : StorageRequest) : Except WriterError WriterReply →
    Editor.WorkerReply
  | .ok reply => { ready := false, id := some request.id, credit := false, ok := true,
                   eventCount := some reply.eventCount, byteLength := some reply.byteLength }
  | .error _ => { ready := false, id := some request.id, credit := false, ok := false,
                  eventCount := none, byteLength := none }

def wrote (session : Session) (request : StorageRequest) (writes : List Write) : Session :=
  { session with
    disk := session.disk.applyAll writes
    begun := if writes.isEmpty then session.begun else some request.payload }

def step (P : Platform) (cwd : List JsString) (session : Session) : Action → Option Session
  | .edit action =>
      if Editor.savesEvents action then none
      else
        (session.editor.step P action).map fun editor =>
          { session with editor, captured := session.captured ++ newEvents session.editor editor }
  | .write count =>
      session.sent.map fun request =>
        session.wrote request ((persistSession P cwd session.disk request.payload).1.take count)
  | .save =>
      session.sent.map fun request =>
        let (writes, result) := persistSession P cwd session.disk request.payload
        let session := session.wrote request writes
        match session.editor.storageReply (replyTo request result) with
        | none => { session with editor := session.editor.storageFailed }
        | some editor =>
            { session with
              editor
              acknowledged := session.acknowledged ++
                session.editor.journalPending.reverse.take request.count }

/-- A session whose events are all saved, new or recovered. -/
structure Starts (cwd : List JsString) (session : Session) : Prop where
  editor : session.editor.Starts cwd
  acknowledged : session.acknowledged = session.captured
  count : session.editor.journalCount = session.captured.length
  bytes : session.editor.journalBytes = (journalOf session.captured).length
  disk : session.disk.Holds session.editor.sessionId session.captured
    session.captured.length session.captured.length
  begun : session.begun = none

/-- The request asks for the events from the acknowledged cursor up to `last`, and a
worker that runs to its end stores exactly the lines of all events so far. -/
structure Succeeds (P : Platform) (cwd : List JsString) (session : Session)
    (request : StorageRequest) : Prop where
  ok : (persistSession P cwd session.disk request.payload).2.toOption.map (fun reply =>
    (reply.eventCount, reply.byteLength)) = some (request.eventCount, request.byteLength)
  journal : (session.disk.applyAll (persistSession P cwd session.disk request.payload).1).bytes =
    journalOf (session.captured.take request.eventCount)

/-- What a crash cannot break in any run. -/
structure KeepsEvents (P : Platform) (cwd : List JsString) (session : Session) : Prop where
  /-- The metadata names complete lines at the front of the journal. -/
  named : ∀ file, session.disk.state = some file → ∃ count,
    file.Names session.editor.sessionId session.captured count ∧
      journalOf (session.captured.take count) <+: session.disk.bytes ∧
      (journalOf (session.captured.take count)).count 10 = count ∧
      (count ≠ 0 → (journalOf (session.captured.take count)).getLast? = some 10)
  kept : session.acknowledged ++ session.editor.journalPending.reverse = session.captured
  durable : journalOf session.acknowledged <+: session.disk.bytes
  ordered : session.disk.bytes <+: journalOf session.captured
  /-- What the worker has written anything for can be finished. -/
  resumed : ∀ request, session.editor.Held request → session.begun = some request.payload →
    session.Succeeds P cwd request

/-- Beside that, an exact retry succeeds. -/
structure CrashSafe (P : Platform) (cwd : List JsString) (session : Session) : Prop
    extends session.KeepsEvents P cwd where
  retried : ∀ request, session.editor.Held request → session.Succeeds P cwd request

/-- No gap is recorded into a full queue, and a new request is within its limits. -/
def RequestsFit (P : Platform) (session : Session) : Action → Prop
  | .edit action => session.editor.GapHasRoom action ∧ session.editor.BuildFits P action
  | .write _ => True
  | .save => True

instance (P : Platform) (session : Session) (action : Action) :
    Decidable (session.RequestsFit P action) := by
  cases action with
  | edit action =>
      exact (inferInstance : Decidable (session.editor.GapHasRoom action ∧
        session.editor.BuildFits P action))
  | write => exact .isTrue trivial
  | save => exact .isTrue trivial

end Session

/-! ## Plans of the editor's requests -/

section

variable {P : Platform} {cwd : List JsString}

/-- The metadata after a batch names all its events. -/
theorem stateAfter_names {cursor : Editor.Cursor} {captured : List BufferMutation} {last : Nat}
    (others : List (JsString × Json)) {bytes : Nat}
    (hbytes : bytes = (journalOf (captured.take last)).length) (hlast : last ≤ captured.length)
    (hcountSafe : last ≤ maxTimeFieldValue) (hbytesSafe : bytes ≤ maxTimeFieldValue)
    (hsmall : (stateAfter P (.obj ((js "session_id", .str cursor.sessionId) ::
      (js "storage_version", Json.ofNat 2) :: (js "event_count", Json.ofNat cursor.count) ::
      (js "journal_bytes", Json.ofNat cursor.bytes) :: others)) last bytes).byteLength ≤
        maxStateBytes) :
    (stateAfter P (.obj ((js "session_id", .str cursor.sessionId) ::
      (js "storage_version", Json.ofNat 2) :: (js "event_count", Json.ofNat cursor.count) ::
      (js "journal_bytes", Json.ofNat cursor.bytes) :: others)) last bytes).Names
        cursor.sessionId captured last where
  small := hsmall
  parsed := by
    subst hbytes
    exact ⟨_, rfl, rfl, rfl, rfl⟩
  count_le := hlast
  count_safe := hcountSafe
  bytes_safe := by
    rw [← hbytes]
    exact hbytesSafe

theorem planSession_payload {cursor : Editor.Cursor} (h : cursor.Sound cwd)
    {events captured saved : List BufferMutation} (hfirst : events <+: cursor.queue)
    (hcaptured : saved ++ cursor.queue = captured) (hcount : saved.length = cursor.count)
    (hbytes : cursor.bytes = (journalOf saved).length) {id : Nat}
    {others : List (JsString × Json)} {plan : SessionPlan}
    (hplan : planSession P cwd (cursor.payload id events others) = .ok plan) :
    plan.Asks cursor.sessionId captured cursor.count (cursor.count + events.length) := by
  rw [planSession, Editor.readRequest_payload_eq] at hplan
  split at hplan
  · cases hplan
  rename_i request hrequest
  split at hrequest
  · cases hrequest
    split at hplan
    · cases hplan
    rename_i sessionId hsession
    split at hplan
    · cases hplan
    simp only at hplan
    split at hplan
    · cases hplan
    rename_i hsafe
    split at hplan
    · cases hplan
    rename_i hsmall
    cases hplan
    rw [not_or, Nat.not_lt, Nat.not_lt, List.length_map, List.length_map] at hsafe
    rw [Nat.not_lt, List.length_map, List.length_map] at hsmall
    have hlines := Editor.journalLines_eq P (h.bounded hfirst hsafe.1)
    have hsnapshot := hsession.symm.trans (if_pos ⟨rfl, h.session, rfl, rfl⟩)
    cases hsnapshot
    rw [hlines, ← List.flatMap_def] at hsafe hsmall
    rw [hlines, ← List.flatMap_def, List.length_map]
    obtain ⟨rest, hrest⟩ := hfirst
    rw [← hrest] at hcaptured
    have hsaved : captured.take cursor.count = saved := by
      rw [← hcaptured, ← hcount, List.take_left]
    have hbatch : captured.take (cursor.count + events.length) = saved ++ events := by
      rw [← hcaptured, ← hcount, ← List.append_assoc, ← List.length_append, List.take_left]
    have hfinal : cursor.bytes + (events.flatMap eventLine).length =
        (journalOf (captured.take (cursor.count + events.length))).length := by
      rw [hbatch, journalOf_append, List.length_append, hbytes, journalOf, journalOf]
    refine ⟨rfl, rfl, by rw [hsaved, hbytes], ?_, ?_, by omega⟩
    · rw [hbatch, ← hcount, List.drop_left]
    · refine stateAfter_names others hfinal ?_ hsafe.1 hsafe.2 hsmall
      rw [← hcaptured, List.length_append, List.length_append]
      omega
  · cases hrequest

end

/-! ## Every step keeps the journal whole -/

namespace Session

structure Sound (P : Platform) (cwd : List JsString) (session : Session) : Prop where
  editor : session.editor.Sound cwd
  kept : session.acknowledged ++ session.editor.cursor.queue = session.captured
  count : session.acknowledged.length = session.editor.cursor.count
  bytes : session.editor.cursor.bytes = (journalOf session.acknowledged).length
  /-- A request asks for all that the journal may have. -/
  disk : ∃ last, session.editor.cursor.count ≤ last ∧ last ≤ session.captured.length ∧
    session.disk.Holds session.editor.cursor.sessionId session.captured
      session.editor.cursor.count last ∧
    ∀ request, session.editor.Held request → last ≤ request.eventCount
  begun : ∀ payload, session.begun = some payload →
    ∃ plan, planSession P cwd payload = .ok plan

variable {P : Platform} {cwd : List JsString} {session next : Session}
  {request : StorageRequest} {plan : SessionPlan}

theorem Starts.sound (h : session.Starts cwd) : session.Sound P cwd where
  editor := h.editor.sound
  kept := by
    rw [h.acknowledged, Editor.cursor, h.editor.empty, List.reverse_nil, List.append_nil]
  count := by
    rw [h.acknowledged, Editor.cursor, h.count]
  bytes := by
    rw [h.acknowledged]
    exact h.bytes
  disk := by
    refine ⟨session.captured.length, h.count.le, Nat.le_refl _, ?_, ?_⟩
    · rw [show session.editor.cursor.count = session.captured.length from h.count]
      exact h.disk
    · intro request hheld
      rw [Editor.Held, h.editor.idle, h.editor.settled] at hheld
      rcases hheld with hheld | hheld <;> cases hheld
  begun payload hbegun := by
    rw [h.begun] at hbegun
    cases hbegun

/-- At most one request is in flight or kept. -/
theorem held_unique {editor : Editor} (h : editor.Exclusive) {request other : StorageRequest}
    (hrequest : editor.Held request) (hother : editor.Held other) : request = other := by
  rcases h with hnone | hnone
  · rw [Editor.Held, hnone] at hrequest hother
    have hsame := hrequest.resolve_left (by intro hnow; cases hnow)
    rw [hother.resolve_left (by intro hnow; cases hnow)] at hsame
    cases hsame
    rfl
  · rw [Editor.Held, hnone] at hrequest hother
    have hsame := hrequest.resolve_right (by intro hnow; cases hnow)
    rw [hother.resolve_right (by intro hnow; cases hnow)] at hsame
    cases hsame
    rfl

namespace Sound

theorem asks (h : session.Sound P cwd) (hheld : session.editor.Held request)
    (hplan : planSession P cwd request.payload = .ok plan) :
    plan.Asks session.editor.cursor.sessionId session.captured session.editor.cursor.count
      request.eventCount := by
  obtain ⟨events, hissued⟩ := h.editor.issued request hheld
  obtain ⟨id, others, hpayload⟩ := hissued.payload_eq
  rw [hpayload] at hplan
  rw [hissued.eventCount]
  exact planSession_payload h.editor.cursor hissued.first h.kept h.count h.bytes hplan

theorem holds (h : session.Sound P cwd) (hheld : session.editor.Held request) :
    session.disk.Holds session.editor.cursor.sessionId session.captured
      session.editor.cursor.count request.eventCount := by
  obtain ⟨last, -, -, hdisk, hle⟩ := h.disk
  exact hdisk.mono (hle request hheld)

/-- The events up to the end of a request are those acknowledged and its own. -/
theorem take_eventCount (h : session.Sound P cwd) (hheld : session.editor.Held request) :
    session.captured.take request.eventCount =
      session.acknowledged ++ session.editor.cursor.queue.take request.count := by
  obtain ⟨events, hissued⟩ := h.editor.issued request hheld
  rw [← h.kept, hissued.eventCount, hissued.count, ← h.count, List.take_length_add_append]

theorem byteLength_eq (h : session.Sound P cwd) (hheld : session.editor.Held request) :
    request.byteLength = (journalOf (session.captured.take request.eventCount)).length := by
  obtain ⟨events, hissued⟩ := h.editor.issued request hheld
  rw [h.take_eventCount hheld, hissued.count, ← List.prefix_iff_eq_take.1 hissued.first,
    journalOf_append, List.length_append, hissued.byteLength, h.bytes, journalOf, journalOf]

theorem length_captured (h : session.Sound P cwd) :
    session.captured.length =
      session.editor.cursor.count + session.editor.cursor.queue.length := by
  rw [← h.kept, List.length_append, h.count]

/-- What the worker does for a request whose checks pass. -/
theorem persist (h : session.Sound P cwd) (hheld : session.editor.Held request)
    (hplan : planSession P cwd request.payload = .ok plan) : ∃ opening,
    openJournal session.disk plan = .ok opening ∧
      persistSession P cwd session.disk request.payload =
        (opening ++ sessionWrites plan session.disk.bytes,
          .ok { id := plan.id, eventCount := request.eventCount,
                byteLength := request.byteLength }) := by
  have hpersist := (h.asks hheld hplan).persistPlan_ok (h.holds hheld)
  rw [persistSession, hplan, h.byteLength_eq hheld]
  exact hpersist

theorem succeeds (h : session.Sound P cwd) (hheld : session.editor.Held request)
    (hplan : planSession P cwd request.payload = .ok plan) :
    session.Succeeds P cwd request := by
  obtain ⟨opening, hopening, hpersist⟩ := h.persist hheld hplan
  refine ⟨?_, ?_⟩
  · rw [hpersist]
    rfl
  · rw [hpersist]
    exact ((h.asks hheld hplan).holds_all (h.holds hheld) hopening).1

/-- The editor may have moved on as long as its cursor and what it holds are the same. -/
theorem of_editor (h : session.Sound P cwd) {editor : Editor} (hsound : editor.Sound cwd)
    (hcursor : editor.cursor = session.editor.cursor)
    (hheld : ∀ request, editor.Held request → ∃ offset,
      session.editor.Held { request with offset }) :
    Sound P cwd { session with editor } where
  editor := hsound
  kept := by
    rw [hcursor]
    exact h.kept
  count := by
    rw [hcursor]
    exact h.count
  bytes := by
    rw [hcursor]
    exact h.bytes
  disk := by
    obtain ⟨last, hcount, hlast, hdisk, hle⟩ := h.disk
    refine ⟨last, by rw [hcursor]; exact hcount, hlast, by rw [hcursor]; exact hdisk, ?_⟩
    intro request hnext
    obtain ⟨offset, hold⟩ := hheld request hnext
    exact hle { request with offset } hold
  begun := h.begun

/-- After any first part of the writes for a request the journal is as whole as before. -/
theorem wrote (h : session.Sound P cwd) (hheld : session.editor.Held request) (count : Nat) :
    Sound P cwd (session.wrote request
      ((persistSession P cwd session.disk request.payload).1.take count)) := by
  cases hplan : planSession P cwd request.payload with
  | error thrown =>
      have hnone : (persistSession P cwd session.disk request.payload).1 = [] := by
        rw [persistSession, hplan]
      rw [hnone, List.take_nil]
      exact h
  | ok plan =>
      obtain ⟨opening, hopening, hpersist⟩ := h.persist hheld hplan
      obtain ⟨last, hcount, hlast, hdisk, hle⟩ := h.disk
      have hasks := h.asks hheld hplan
      rw [hpersist]
      refine ⟨h.editor, h.kept, h.count, h.bytes, ⟨request.eventCount, ?_, ?_, ?_, ?_⟩, ?_⟩
      · exact hasks.count_le
      · exact hasks.metadata.count_le
      · exact hasks.holds_take (h.holds hheld) hopening count
      · intro other hother
        rw [held_unique h.editor.exclusive hheld hother]
      · intro payload hbegun
        rw [Session.wrote] at hbegun
        simp only at hbegun
        split at hbegun
        · exact h.begun payload hbegun
        · cases hbegun
          exact ⟨plan, hplan⟩

/-- A step of the editor that saves nothing. -/
theorem edit (h : session.Sound P cwd) {action : Editor.Action} {editor : Editor}
    (hsaves : Editor.savesEvents action = false) (hstep : session.editor.step P action = some editor) :
    Sound P cwd { session with
      editor
      captured := session.captured ++ newEvents session.editor editor } := by
  have hsound := h.editor.step hstep
  have hkeep : editor.cursor = session.editor.cursor → newEvents session.editor editor = [] := by
    intro hcursor
    have hseq : editor.nextSeq = session.editor.nextSeq := congrArg (·.nextSeq) hcursor
    rw [newEvents, hseq, Nat.sub_self, List.take_zero, List.reverse_nil]
  cases Editor.step_move h.editor.exclusive hstep with
  | keep cursor blocked held exclusive =>
      rw [hkeep cursor, List.append_nil]
      exact h.of_editor hsound cursor held
  | build others offset idle settled cursor blocked request retry =>
      rw [hkeep cursor, List.append_nil]
      obtain ⟨last, hcount, hlast, hdisk, -⟩ := h.disk
      refine ⟨hsound, by rw [cursor]; exact h.kept, by rw [cursor]; exact h.count,
        by rw [cursor]; exact h.bytes, ⟨last, ?_, hlast, ?_, ?_⟩, h.begun⟩
      · rw [cursor]
        exact hcount
      · rw [cursor]
        exact hdisk
      · intro held hheld
        rw [Editor.Held, request, retry] at hheld
        have hnew := hheld.resolve_right (by intro hnow; cases hnow)
        cases hnew
        have hall := h.length_captured
        simp only [Editor.newRequest, List.length_reverse]
        simp only [Editor.cursor, List.length_reverse] at hall
        omega
  | capture event captured seq later cursor blocked request retry room =>
      have hqueue : editor.journalPending.reverse =
          session.editor.journalPending.reverse ++ [event] := congrArg (·.queue) cursor
      have hseq : editor.nextSeq = session.editor.nextSeq + 1 := congrArg (·.nextSeq) cursor
      have hnew : newEvents session.editor editor = [event] := by
        have hpending : editor.journalPending = event :: session.editor.journalPending := by
          rw [← List.reverse_inj, hqueue, List.reverse_cons]
        rw [newEvents, hseq, hpending, Nat.add_sub_cancel_left]
        rfl
      rw [hnew]
      obtain ⟨last, hcount, hlast, hdisk, hle⟩ := h.disk
      refine ⟨hsound, ?_, by rw [cursor]; exact h.count, by rw [cursor]; exact h.bytes,
        ⟨last, ?_, ?_, ?_, ?_⟩, h.begun⟩
      · rw [cursor]
        simp only
        rw [← List.append_assoc]
        exact congrArg (· ++ [event]) h.kept
      · rw [cursor]
        exact hcount
      · rw [List.length_append]
        omega
      · rw [cursor]
        exact hdisk.append hcount hlast [event]
      · intro held hheld
        rw [Editor.Held, request, retry] at hheld
        exact hle held hheld
  | acknowledge request sent cursor blocked idle retry saves =>
      rw [hsaves] at saves
      cases saves
  | flush count idle settled cursor blocked request retry saves =>
      rw [hsaves] at saves
      cases saves

/-- The events of an acknowledged request are those at the front of the queue. -/
theorem save (h : session.Sound P cwd) (hsent : session.editor.request = some request)
    (hplan : planSession P cwd request.payload = .ok plan)
    (heditor : (session.editor.acknowledge request).Sound cwd) :
    Sound P cwd { session.wrote request (persistSession P cwd session.disk request.payload).1 with
      editor := session.editor.acknowledge request
      acknowledged := session.acknowledged ++
        session.editor.journalPending.reverse.take request.count } := by
  have hheld : session.editor.Held request := Or.inl hsent
  obtain ⟨opening, hopening, hpersist⟩ := h.persist hheld hplan
  have hasks := h.asks hheld hplan
  have hlast := hasks.metadata.count_le
  have htake := h.take_eventCount hheld
  have hbytes := h.byteLength_eq hheld
  obtain ⟨-, hdisk⟩ := hasks.holds_all (h.holds hheld) hopening
  have hbegun := (h.wrote hheld (persistSession P cwd session.disk request.payload).1.length).begun
  rw [List.take_length] at hbegun
  refine ⟨heditor, ?_, ?_, ?_, ⟨request.eventCount, Nat.le_refl _, hlast, ?_, ?_⟩, hbegun⟩
  · have hkept := h.kept
    simp only [Editor.cursor, Editor.acknowledge, Editor.reverse_take_sub] at hkept ⊢
    rw [List.append_assoc, List.take_append_drop]
    exact hkept
  · have hlength := congrArg List.length htake
    rw [List.length_take, Nat.min_eq_left hlast] at hlength
    exact hlength.symm
  · rw [htake] at hbytes
    exact hbytes
  · rw [hpersist]
    exact hdisk
  · intro other hother
    rcases hother with hother | hother
    · cases hother
    · rcases h.editor.exclusive with hidle | hsettled
      · rw [hidle] at hsent
        cases hsent
      · rw [Editor.acknowledge, hsettled] at hother
        cases hother

end Sound

/-- An answer that counts as the editor does is accepted. -/
theorem storageReply_ok {editor : Editor} (hsent : editor.request = some request)
    (hall : request.offset = request.payloadLength) {reply : WriterReply}
    (hcount : reply.eventCount = request.eventCount)
    (hbytes : reply.byteLength = request.byteLength) :
    editor.storageReply (replyTo request (.ok reply)) = some (editor.acknowledge request) := by
  rw [Editor.storageReply, hsent]
  simp [replyTo, hall, hcount, hbytes]

/-- An error fails the request. -/
theorem storageReply_error {editor : Editor} (hsent : editor.request = some request)
    (error : WriterError) : editor.storageReply (replyTo request (.error error)) = none := by
  rw [Editor.storageReply, hsent]
  simp [replyTo]

/-- A step keeps the session sound. -/
theorem Sound.step (h : session.Sound P cwd) {action : Action}
    (hstep : session.step P cwd action = some next) : next.Sound P cwd := by
  cases action with
  | edit action =>
      rw [Session.step] at hstep
      split at hstep
      · cases hstep
      rename_i hsaves
      obtain ⟨editor, heditor, rfl⟩ := Option.map_eq_some_iff.1 hstep
      exact h.edit (Bool.eq_false_of_not_eq_true hsaves) heditor
  | write count =>
      obtain ⟨request, hsent, rfl⟩ := Option.map_eq_some_iff.1 hstep
      exact h.wrote (Or.inl (Option.filter_eq_some_iff.1 hsent).1) count
  | save =>
      obtain ⟨request, hsent, hnext⟩ := Option.map_eq_some_iff.1 hstep
      obtain ⟨hrequest, hready⟩ := Option.filter_eq_some_iff.1 hsent
      rw [Bool.and_eq_true, beq_iff_eq] at hready
      obtain ⟨hlive, hall⟩ := hready
      have hheld : session.editor.Held request := Or.inl hrequest
      cases hplan : planSession P cwd request.payload with
      | error thrown =>
          have hpersist : persistSession P cwd session.disk request.payload =
              ([], .error (.thrown thrown)) := by
            rw [persistSession, hplan]
          have hnone : session.editor.storageReply
              (replyTo request (.error (.thrown thrown))) = none :=
            storageReply_error hrequest _
          have hfail : session.editor.step P .fail = some session.editor.storageFailed := rfl
          have hfailed : session.editor.storageFailed.Sound cwd := h.editor.step hfail
          simp only [hpersist, Session.wrote, hnone] at hnext
          subst hnext
          exact h.of_editor hfailed rfl fun request hfailedHeld =>
            ⟨request.offset, Editor.held_storageFailed h.editor.exclusive hfailedHeld⟩
      | ok plan =>
          obtain ⟨opening, hopening, hpersist⟩ := h.persist hheld hplan
          obtain ⟨answer, hcount, hbytes, hpersist⟩ : ∃ answer : WriterReply,
              answer.eventCount = request.eventCount ∧
                answer.byteLength = request.byteLength ∧
                persistSession P cwd session.disk request.payload =
                  (opening ++ sessionWrites plan session.disk.bytes, .ok answer) :=
            ⟨_, rfl, rfl, hpersist⟩
          have hreply := storageReply_ok hrequest hall hcount hbytes
          have hstored : session.editor.step P (.reply (replyTo request (.ok answer))) =
              some (session.editor.acknowledge request) := by
            rw [Editor.step, if_pos hlive, hreply]
            rfl
          have heditor : (session.editor.acknowledge request).Sound cwd := h.editor.step hstored
          have hsave := h.save hrequest hplan heditor
          rw [hpersist] at hsave
          simp only [hpersist, Session.wrote, hreply] at hnext
          subst hnext
          exact hsave

theorem Sound.keepsEvents (h : session.Sound P cwd) : session.KeepsEvents P cwd where
  named := by
    obtain ⟨last, -, -, hdisk, -⟩ := h.disk
    intro file hfile
    obtain ⟨named, -, hnames, hhas⟩ := hdisk.named file hfile
    have hlength : (session.captured.take named).length = named := by
      rw [List.length_take, Nat.min_eq_left hnames.count_le]
    refine ⟨named, hnames, hhas, ?_, ?_⟩
    · rw [count_newline_journalOf, hlength]
    · intro hpositive
      apply getLast?_journalOf
      intro hnil
      rw [hnil] at hlength
      exact hpositive hlength.symm
  kept := h.kept
  durable := by
    obtain ⟨last, -, -, hdisk, -⟩ := h.disk
    have hdurable := hdisk.durable
    rw [← h.count, ← h.kept, List.take_left] at hdurable
    exact hdurable
  ordered := by
    obtain ⟨last, -, -, hdisk, -⟩ := h.disk
    exact hdisk.within.trans (journalOf_mono (List.take_prefix _ _))
  resumed := by
    intro request hheld hbegun
    obtain ⟨plan, hplan⟩ := h.begun _ hbegun
    exact h.succeeds hheld hplan

theorem Sound.crashSafe (h : session.Sound P cwd) (hplanned : session.editor.Planned P cwd) :
    session.CrashSafe P cwd where
  toKeepsEvents := h.keepsEvents
  retried := by
    intro request hheld
    obtain ⟨plan, hplan⟩ := hplanned request hheld
    exact h.succeeds hheld hplan

/-- What a step of the session is for the editor. -/
theorem step_editor {action : Action} (hfits : session.RequestsFit P action)
    (hstep : session.step P cwd action = some next) :
    Run (Editor.step P) (fun editor action => editor.GapHasRoom action ∧
      editor.BuildFits P action) session.editor next.editor := by
  -- A reply or failure neither records a gap nor builds a request.
  have hreply : ∀ reply, session.editor.GapHasRoom (.reply reply) ∧
      session.editor.BuildFits P (.reply reply) := by
    intro reply
    exact ⟨(fun h => nomatch h), (fun _ h => nomatch h)⟩
  have hfail : session.editor.GapHasRoom .fail ∧ session.editor.BuildFits P .fail :=
    ⟨(fun h => nomatch h), (fun _ h => nomatch h)⟩
  cases action with
  | edit action =>
      rw [Session.step] at hstep
      split at hstep
      · cases hstep
      obtain ⟨editor, heditor, rfl⟩ := Option.map_eq_some_iff.1 hstep
      exact .single hfits heditor
  | write count =>
      obtain ⟨request, -, rfl⟩ := Option.map_eq_some_iff.1 hstep
      exact .refl _
  | save =>
      obtain ⟨request, hsent, hnext⟩ := Option.map_eq_some_iff.1 hstep
      have hlive := (Option.filter_eq_some_iff.1 hsent).2
      rw [Bool.and_eq_true] at hlive
      simp only [Session.wrote] at hnext
      split at hnext
      · subst hnext
        exact .single hfail rfl
      · rename_i editor hstored
        subst hnext
        have hreplied : session.editor.step P (.reply (replyTo request
            (persistSession P cwd session.disk request.payload).2)) = some editor := by
          rw [Editor.step, if_pos hlive.1, hstored]
          rfl
        exact .single (hreply _) hreplied

/-- Captured and acknowledged events stay in their order. -/
theorem step_grows {action : Action} (hstep : session.step P cwd action = some next) :
    session.acknowledged <+: next.acknowledged ∧ session.captured <+: next.captured := by
  cases action with
  | edit action =>
      rw [Session.step] at hstep
      split at hstep
      · cases hstep
      obtain ⟨editor, -, rfl⟩ := Option.map_eq_some_iff.1 hstep
      exact ⟨List.prefix_refl _, List.prefix_append _ _⟩
  | write count =>
      obtain ⟨request, -, rfl⟩ := Option.map_eq_some_iff.1 hstep
      exact ⟨List.prefix_refl _, List.prefix_refl _⟩
  | save =>
      obtain ⟨request, -, hnext⟩ := Option.map_eq_some_iff.1 hstep
      simp only [Session.wrote] at hnext
      split at hnext
      · subst hnext
        exact ⟨List.prefix_refl _, List.prefix_refl _⟩
      · subst hnext
        exact ⟨List.prefix_append _ _, List.prefix_refl _⟩

/-- A disk whose journal goes on otherwise than the batch refuses the request as it is. -/
theorem persistSession_disagrees {disk : Disk} {input : Json}
    (hplan : planSession P cwd input = .ok plan) (h : Disagrees disk plan) :
    ∃ error, persistSession P cwd disk input = ([], .error error) := by
  rw [persistSession, hplan]
  exact persistPlan_disagrees h

/-- In every run nothing captured or acknowledged is lost and requests that disagree with
a journal write nothing; as long as requests fit, an exact retry succeeds as well. -/
theorem crashSafe_run {first middle last : Session} (hstart : first.Starts cwd)
    (run : Run (Session.step P cwd) (fun _ _ => True) first middle)
    (later : Run (Session.step P cwd) (fun _ _ => True) middle last) :
    last.KeepsEvents P cwd ∧
      (middle.acknowledged <+: last.acknowledged ∧ middle.captured <+: last.captured) ∧
      (∀ disk input plan, planSession P cwd input = .ok plan → Disagrees disk plan →
        ∃ error, persistSession P cwd disk input = ([], .error error)) ∧
      (Run (Session.step P cwd) (RequestsFit P) first last → last.CrashSafe P cwd) := by
  have hsound : last.Sound P cwd := by
    refine (run.trans later).invariant (I := Sound P cwd) ?_ hstart.sound
    intro state action after hstate _ hstep
    exact hstate.step hstep
  refine ⟨hsound.keepsEvents, ?_, ?_, ?_⟩
  · refine later.invariant (I := fun state =>
      middle.acknowledged <+: state.acknowledged ∧ middle.captured <+: state.captured) ?_ ?_
    · intro state action after hstate _ hstep
      obtain ⟨hacknowledged, hcaptured⟩ := step_grows hstep
      exact ⟨hstate.1.trans hacknowledged, hstate.2.trans hcaptured⟩
    · exact ⟨List.prefix_refl _, List.prefix_refl _⟩
  · intro disk input plan hplan hdisagrees
    exact persistSession_disagrees hplan hdisagrees
  · intro fitting
    refine hsound.crashSafe (Editor.planned_run hstart.editor ?_)
    exact fitting.simulate Session.editor fun _ _ _ => step_editor

/-! ## A crash in the middle of a line -/

def exampleSession : Session where
  editor := Editor.exampleEditor
  disk := { journal := none, state := none, temporary := none }
  captured := []
  acknowledged := []
  begun := none

theorem exampleSession_starts : exampleSession.Starts [] where
  editor := Editor.exampleEditor_starts
  acknowledged := rfl
  count := rfl
  bytes := rfl
  disk := ⟨List.nil_prefix, List.nil_prefix, fun _ => rfl, fun _ h => nomatch h⟩
  begun := rfl

/-- An edit, and a worker that stops after 40 writes. -/
def crashActions : List Action :=
  [.edit Editor.typed, .edit (.pump [] 0), .edit (.reply Editor.workerReady), .edit (.pump [] 0),
    .write 40]

/-- Another edit, and the same request to a new worker. -/
def retryActions : List Action :=
  [.edit Editor.typed, .edit .fail, .edit .retrySave, .edit (.pump [] 0),
    .edit (.reply Editor.workerReady), .edit (.pump [] 0), .save]

theorem crashSafe_retried : ∃ middle last : Session,
    (middle.disk.bytes.length == 39 && last.acknowledged.length == 1 &&
      last.captured.length == 2) = true ∧ last.CrashSafe Platform.standard [] := by
  have hrun : ((runAll (Session.step Platform.standard []) (RequestsFit Platform.standard)
      exampleSession crashActions).any fun middle =>
        (runAll (Session.step Platform.standard []) (RequestsFit Platform.standard) middle
          retryActions).any fun last => middle.disk.bytes.length == 39 &&
            last.acknowledged.length == 1 && last.captured.length == 2) = true := by
    decide +kernel
  obtain ⟨middle, hmiddle, hrest⟩ := (Option.any_eq_true _ _).1 hrun
  obtain ⟨last, hlast, hcounts⟩ := (Option.any_eq_true _ _).1 hrest
  have hfirst := Run.of_runAll hmiddle
  have hsecond := Run.of_runAll hlast
  exact ⟨middle, last, hcounts, (crashSafe_run exampleSession_starts
    (hfirst.mono fun _ _ _ => trivial) (hsecond.mono fun _ _ _ => trivial)).2.2.2
      (hfirst.trans hsecond)⟩

/-- A gap is recorded into a full queue, and the worker fails while it saves. -/
def overfullActions : List Action :=
  Editor.fullActions.map .edit ++ [.edit .fail]

/-- The request for 257 events is kept, and refused at every retry. -/
theorem not_crashSafe_overfull :
    ¬ ∀ session, Run (Session.step Platform.standard []) (fun _ _ => True) exampleSession
      session → session.CrashSafe Platform.standard [] := by
  intro hsafe
  have hrun : (runAll (Session.step Platform.standard []) (fun _ _ => True) exampleSession
      overfullActions).any (fun session => session.editor.retry.any Editor.refused) = true := by
    decide +kernel
  obtain ⟨session, hsession, hretry⟩ := (Option.any_eq_true _ _).1 hrun
  obtain ⟨request, hkept, hrefused⟩ := (Option.any_eq_true _ _).1 hretry
  have hsucceeds := (hsafe session (Run.of_runAll hsession)).retried request (Or.inr hkept)
  have hok := hsucceeds.ok
  rw [Editor.refused] at hrefused
  split at hrefused
  · cases hrefused
  · rename_i thrown hthrown
    rw [persistSession, planSession, hthrown] at hok
    cases hok

end Session

end Pmbah.Emacs
