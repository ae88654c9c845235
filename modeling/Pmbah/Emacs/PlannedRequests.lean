import Pmbah.Emacs.QueueBound

/-!
# Requests that pass the worker's checks

A request is planned when it passes every check that needs no file.  A new one does as
long as what waits is within the limits of the format and of the worker.
-/

namespace Pmbah.Emacs

open Js Format Library

/-- The values of a captured event are within the limits of the format. -/
def ValuesFit (event : BufferMutation) : Prop :=
  event.seq ≤ maxIntegerFieldValue ∧ (∀ n ∈ event.pos, n ≤ maxIntegerFieldValue) ∧
    (∀ n ∈ event.delLen, n ≤ maxIntegerFieldValue) ∧
    ∀ n ∈ event.insLen, n ≤ maxIntegerFieldValue

instance (event : BufferMutation) : Decidable (ValuesFit event) :=
  (inferInstance : Decidable (_ ∧ _ ∧ _ ∧ _))

theorem Captured.valid {event : BufferMutation} (h : Captured event) (hvalues : ValuesFit event) :
    event.Valid where
  seq_le := hvalues.1
  t_le := Nat.le_of_lt h.t_lt
  pos_le := hvalues.2.1
  delLen_le := hvalues.2.2.1
  insLen_le := hvalues.2.2.2
  sizes := h.sizes

/-! ## Batches -/

theorem less_times (P : Platform) (event previous : BufferMutation) :
    P.less (event.toJson.field (js "t")) (previous.toJson.field (js "t")) =
      .ok (decide (event.t < previous.t)) := by
  rw [(readsAs_toJson event).t, (readsAs_toJson previous).t]
  simp [Platform.less, Json.ofNat, Json.conversionThrows, JsNumber.ofNat]

/-- Valid events whose places follow each other and whose times do not go back. -/
theorem checkBatch_ok (P : Platform) (previous : Option BufferMutation)
    {events : List BufferMutation} {seq : Nat}
    (hvalid : ∀ event ∈ events, event.Valid)
    (hplaces : ∀ (i : Nat) (event : BufferMutation), events[i]? = some event →
      event.seq = seq + i)
    (hsorted : events.Pairwise fun earlier later => earlier.t ≤ later.t)
    (hprevious : ∀ earlier ∈ previous, ∀ event ∈ events, earlier.t ≤ event.t) :
    checkBatch P (previous.map BufferMutation.toJson) seq (events.map BufferMutation.toJson) =
      .ok () := by
  induction events generalizing seq previous with
  | nil => rfl
  | cons event events ih =>
      obtain ⟨hlater, hrest⟩ := List.pairwise_cons.1 hsorted
      have haccepted : validateEvent P event.toJson (some seq) = .ok [] := by
        refine validateEvent_eq_nil.2 ⟨event, hvalid event List.mem_cons_self,
          readsAs_toJson event, ?_⟩
        intro n hn
        cases hn
        exact hplaces 0 event rfl
      have hnext : checkBatch P (some event.toJson) (seq + 1)
          (events.map BufferMutation.toJson) = .ok () := by
        refine ih (some event)
          (fun other hother => hvalid other (List.mem_cons_of_mem _ hother)) ?_ hrest ?_
        · intro i other hother
          rw [hplaces (i + 1) other hother]
          omega
        · intro earlier hearlier
          cases hearlier
          exact hlater
      cases previous with
      | none =>
          simp only [Option.map_none, List.map_cons, checkBatch, haccepted, List.isEmpty_nil,
            Bool.not_true, Bool.false_eq_true, if_false]
          exact hnext
      | some earlier =>
          have htime : ¬ event.t < earlier.t :=
            Nat.not_lt.2 (hprevious earlier rfl event List.mem_cons_self)
          simp only [Option.map_some, List.map_cons, checkBatch, haccepted, List.isEmpty_nil,
            Bool.not_true, Bool.false_eq_true, if_false, less_times, decide_eq_false htime]
          exact hnext

namespace Editor

variable {P : Platform} {cwd : List JsString} {editor next : Editor} {action : Action}

/-! ## New requests -/

/-- The metadata that the worker saves with a request for these events. -/
def Cursor.savedState (P : Platform) (cursor : Cursor) (events : List BufferMutation)
    (others : List (JsString × Json)) : StateFile :=
  stateAfter P (.obj ((js "session_id", .str cursor.sessionId) ::
    (js "storage_version", Json.ofNat 2) :: (js "event_count", Json.ofNat cursor.count) ::
    (js "journal_bytes", Json.ofNat cursor.bytes) :: others)) (cursor.count + events.length)
    (cursor.bytes + (events.flatMap eventLine).length)

/-- What a request for the front of the queue needs to pass the checks before storage. -/
theorem Cursor.Sound.planned {cursor : Cursor} (h : cursor.Sound cwd)
    {events : List BufferMutation} (hfirst : events <+: cursor.queue)
    (hbatch : events.length ≤ maxBatch) (hvalues : ∀ event ∈ events, ValuesFit event)
    (hcount : cursor.count + events.length ≤ maxTimeFieldValue)
    (hbytes : cursor.bytes + (events.flatMap eventLine).length ≤ maxTimeFieldValue)
    (id : Nat) {others : List (JsString × Json)}
    (hstate : (cursor.savedState P events others).byteLength ≤ maxStateBytes) :
    ∃ plan, planSession P cwd (cursor.payload id events others) = .ok plan := by
  obtain ⟨write, hread, -, hexpected, hexpectedBytes, hevents, hsaved, hsnapshot⟩ :=
    readRequest_payload h (by omega) (by omega) hbatch id others
  have hcheck : checkBatch P none cursor.count (events.map BufferMutation.toJson) = .ok () := by
    obtain ⟨rest, hqueue⟩ := hfirst
    refine checkBatch_ok P none ?_ ?_ ?_ (fun _ h => nomatch h)
    · intro event hevent
      refine (h.captured event ?_).valid (hvalues event hevent)
      rw [← hqueue]
      exact List.mem_append_left _ hevent
    · intro i event hevent
      refine h.places i event ?_
      rw [← hqueue, List.getElem?_append_left (List.getElem?_eq_some_iff.1 hevent).1]
      exact hevent
    · refine h.sorted.sublist ?_
      rw [← hqueue]
      exact List.sublist_append_left _ _
  have hlines := journalLines_eq P (h.bounded hfirst hcount)
  have hstateOf : write.state = .obj ((js "session_id", .str cursor.sessionId) ::
      (js "storage_version", Json.ofNat 2) :: (js "event_count", Json.ofNat cursor.count) ::
      (js "journal_bytes", Json.ofNat cursor.bytes) :: others) := Option.some.inj hsaved
  rw [planSession, hread]
  simp only [hsnapshot, hexpected, hexpectedBytes, hevents, hcheck, hlines, hstateOf,
    List.length_map, ← List.flatMap_def]
  rw [if_neg (by omega), if_neg ?_]
  · exact ⟨_, rfl⟩
  · rw [Nat.not_lt]
    exact hstate

/-- What waits is within the limits of the format and of the worker. -/
structure RequestFits (P : Platform) (editor : Editor) (others : List (JsString × Json)) :
    Prop where
  values : ∀ event ∈ editor.journalPending, ValuesFit event
  count_le : editor.journalCount + editor.journalPending.length ≤ maxTimeFieldValue
  bytes_le : editor.journalBytes + (editor.journalPending.reverse.flatMap eventLine).length ≤
    maxTimeFieldValue
  state_le : (editor.cursor.savedState P editor.journalPending.reverse others).byteLength ≤
    maxStateBytes

instance (P : Platform) (editor : Editor) (others : List (JsString × Json)) :
    Decidable (editor.RequestFits P others) :=
  decidable_of_iff ((∀ event ∈ editor.journalPending, ValuesFit event) ∧
    editor.journalCount + editor.journalPending.length ≤ maxTimeFieldValue ∧
    editor.journalBytes + (editor.journalPending.reverse.flatMap eventLine).length ≤
      maxTimeFieldValue ∧
    (editor.cursor.savedState P editor.journalPending.reverse others).byteLength ≤ maxStateBytes)
    ⟨fun h => ⟨h.1, h.2.1, h.2.2.1, h.2.2.2⟩,
      fun h => ⟨h.values, h.count_le, h.bytes_le, h.state_le⟩⟩

/-- Every request that the step builds fits. -/
def BuildFits (P : Platform) (editor : Editor) (action : Action) : Prop :=
  ∀ others ∈ editor.builds action, editor.RequestFits P others

instance (P : Platform) (editor : Editor) (action : Action) :
    Decidable (editor.BuildFits P action) :=
  (inferInstance : Decidable (∀ others ∈ editor.builds action, editor.RequestFits P others))

/-- The requests in flight and kept for a retry pass the checks before storage. -/
def Planned (P : Platform) (cwd : List JsString) (editor : Editor) : Prop :=
  ∀ request, editor.Held request → ∃ plan, planSession P cwd request.payload = .ok plan

theorem Planned.step (hsound : editor.Sound cwd) (hbounded : editor.Bounded)
    (h : editor.Planned P cwd) (hfits : editor.BuildFits P action)
    (hstep : editor.step P action = some next) : next.Planned P cwd := by
  intro held hheld
  cases step_move hsound.exclusive hstep with
  | keep cursor blocked same exclusive =>
      obtain ⟨offset, hold⟩ := same held hheld
      exact h { held with offset } hold
  | capture event captured seq later cursor blocked request retry room =>
      rw [Held, request, retry] at hheld
      exact h held hheld
  | build others offset idle settled cursor blocked request retry builds =>
      rw [Held, request, retry] at hheld
      have hnew := hheld.resolve_right (by intro hnow; cases hnow)
      cases hnew
      have hrequest := hfits others builds
      refine hsound.cursor.planned (List.prefix_refl _) hbounded.length_le ?_ ?_
        hrequest.bytes_le _ hrequest.state_le
      · intro event hevent
        exact hrequest.values event (List.mem_reverse.1 hevent)
      · have hcount := hrequest.count_le
        rw [← List.length_reverse] at hcount
        exact hcount
  | acknowledge request sent cursor blocked idle retry =>
      have hsettled : editor.retry = none := by
        rcases hsound.exclusive with hidle | hsettled
        · rw [hidle] at sent
          cases sent
        · exact hsettled
      rw [Held, idle, retry, hsettled] at hheld
      rcases hheld with hheld | hheld <;> cases hheld
  | flush count idle settled cursor blocked request retry =>
      rw [Held, request, retry] at hheld
      rcases hheld with hheld | hheld <;> cases hheld

/-- In every run whose gaps have room and whose requests fit, requests are planned. -/
theorem planned_run {first : Editor} (hstart : first.Starts cwd)
    (run : Run (Editor.step P) (fun state action => state.GapHasRoom action ∧
      state.BuildFits P action) first editor) : editor.Planned P cwd := by
  have hall : editor.Sound cwd ∧ editor.Bounded ∧ editor.Planned P cwd := by
    refine run.invariant (I := fun state => state.Sound cwd ∧ state.Bounded ∧
      state.Planned P cwd) ?_ ⟨hstart.sound, hstart.bounded, ?_⟩
    · rintro state action after ⟨hsound, hbounded, hplanned⟩ ⟨hroom, hfits⟩ hstep
      exact ⟨hsound.step hstep, hbounded.step hsound hroom hstep,
        hplanned.step hsound hbounded hfits hstep⟩
    · intro request hheld
      rw [Held, hstart.idle, hstart.settled] at hheld
      rcases hheld with hheld | hheld <;> cases hheld
  exact hall.2.2

end Editor

end Pmbah.Emacs
