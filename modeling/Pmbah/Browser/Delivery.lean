import Pmbah.Browser.FieldEntry
import Pmbah.Library.Transition

/-!
# A freeze waits for every edit

What an editor captures reaches the worker in order and once.  Freezing the editor
gives a binding only if all of it has been acknowledged.
-/

namespace Pmbah.Browser

open Js Format Library

variable {β : Type}

namespace FieldEntry

variable {entry next : FieldEntry β} {captured : List CapturedMutation}

/-- Nothing captured so far has been lost. -/
structure Whole (entry : FieldEntry β) (captured : List CapturedMutation) : Prop where
  replaced : entry.replaced = false
  failed : entry.sends.failed = false
  carries : entry.sends.Carries captured

theorem Whole.accepted (h : entry.Whole captured) : entry.rejected = false := by
  rw [rejected, h.replaced, h.failed]
  rfl

/-- A mutation joins the chain, unless the backlog is full. -/
theorem Whole.sendMutation (h : entry.Whole captured) (hsession : entry.sessionId.isSome = true)
    (value : CapturedMutation) :
    (entry.queuedCount < backlogLimit ∧
      entry.sendMutation value = { entry with
        sends := entry.sends.push value, queuedCount := entry.queuedCount + 1 }) ∨
    (backlogLimit ≤ entry.queuedCount ∧
      entry.sendMutation value = { entry.captureError with replaced := true }) := by
  unfold FieldEntry.sendMutation
  by_cases hfull : backlogLimit ≤ entry.queuedCount
  · right
    exact ⟨hfull, if_pos hfull⟩
  · left
    obtain ⟨sessionId, hid⟩ := Option.isSome_iff_exists.1 hsession
    rw [if_neg hfull, h.accepted, hid]
    exact ⟨Nat.lt_of_not_le hfull, rfl⟩

theorem length_push (sends : SerialSends CapturedMutation) (value : CapturedMutation)
    (hok : sends.failed = false) :
    (sends.push value).waiting.length = sends.waiting.length + 1 ∧
      (sends.push value).failed = false := by
  unfold SerialSends.push
  rw [hok, if_neg Bool.false_ne_true]
  exact ⟨by simp, rfl⟩

/-- What a registration sends of what waited for it. -/
theorem Whole.sendAll (h : entry.Whole captured) (hsession : entry.sessionId.isSome = true)
    (hcount : entry.queuedCount = entry.sends.waiting.length) (queue : List CapturedMutation)
    (hroom : entry.queuedCount + queue.length ≤ backlogLimit) :
    ∃ sends, queue.foldl FieldEntry.sendMutation entry =
        { entry with sends, queuedCount := entry.queuedCount + queue.length } ∧
      sends.failed = false ∧ sends.Carries (captured ++ queue) ∧
      sends.waiting.length = entry.queuedCount + queue.length := by
  induction queue generalizing entry captured with
  | nil => exact ⟨entry.sends, rfl, h.failed, by simpa using h.carries, hcount.symm⟩
  | cons value queue ih =>
      rw [List.length_cons] at hroom
      rcases h.sendMutation hsession value with ⟨-, hsent⟩ | ⟨hfull, -⟩
      · obtain ⟨hlength, hfailed⟩ := length_push entry.sends value h.failed
        have hwhole : Whole { entry with
            sends := entry.sends.push value, queuedCount := entry.queuedCount + 1 }
            (captured ++ [value]) := ⟨h.replaced, hfailed, h.carries.push value⟩
        have hcount' : entry.queuedCount + 1 = (entry.sends.push value).waiting.length := by
          rw [hlength, hcount]
        have hroom' : entry.queuedCount + 1 + queue.length ≤ backlogLimit := by omega
        obtain ⟨sends, heq, hok, hcarries, hwaiting⟩ := ih hwhole hsession hcount' hroom'
        refine ⟨sends, ?_, hok, ?_, ?_⟩
        · rw [List.foldl_cons, hsent, heq, List.length_cons]
          simp only [Nat.add_comm queue.length 1, Nat.add_assoc]
        · rwa [List.append_assoc] at hcarries
        · rw [hwaiting, List.length_cons]
          show entry.queuedCount + 1 + queue.length = _
          omega
      · omega

end FieldEntry

namespace EditorCapture

variable {state next : EditorCapture β}

/-- What holds in every state of a recorded editor. -/
structure Sound (state : EditorCapture β) : Prop where
  /-- What has been given to the chain. -/
  sent : ∃ values, values <+: state.captured ∧ state.entry.sends.Carries values
  count : state.entry.queuedCount = state.entry.sends.waiting.length
  room : state.entry.queuedCount ≤ FieldEntry.backlogLimit
  queueRoom : state.entry.queue.length ≤ FieldEntry.backlogLimit
  starting : state.entry.starting = true → state.entry.sends = .empty ∧
    state.entry.replaced = false ∧ state.entry.queuedCount = 0 ∧ state.entry.sessionId = none ∧
    (state.entry.state = .pending ∧ state.captured = state.entry.queue ∨
      state.entry.state = .error)
  pending : state.entry.state = .pending → state.entry.starting = true
  recording : state.entry.state = .recording → state.entry.sessionId.isSome = true ∧
    state.entry.Whole state.captured
  waiting : state.entry.waiting ≠ [] → state.entry.captures = false ∧
    state.entry.sends.waiting ≠ [] ∧ state.entry.Whole state.captured
  signed : state.entry.state = .signed → state.entry.finishBinding.isSome = true ∨
    state.entry.waiting ≠ []
  finished : state.entry.finishBinding.isSome = true → state.entry.captures = false ∧
    state.entry.starting = false
  result : ∀ binding unrecorded,
    state.entry.finishBinding = some (.bindingResult binding unrecorded) →
    state.entry.sends.acknowledged = state.captured
  answered : ∀ number binding unrecorded,
    (number, .bindingResult binding unrecorded) ∈ state.answers →
    state.entry.finishBinding.isSome = true ∧ state.entry.sends.acknowledged = state.captured
  error : state.entry.state = .error → state.entry.replaced = true ∨ state.entry.sends.waiting = []

theorem sound_start : Sound (start : EditorCapture β) where
  sent := ⟨[], List.prefix_refl [], SerialSends.carries_empty⟩
  count := rfl
  room := Nat.zero_le _
  queueRoom := Nat.zero_le _
  starting _ := ⟨rfl, rfl, rfl, rfl, Or.inl ⟨rfl, rfl⟩⟩
  pending _ := rfl
  recording h := EntryState.noConfusion h
  waiting h := absurd rfl h
  signed h := EntryState.noConfusion h
  finished h := Bool.noConfusion h
  result _ _ h := by cases h
  answered _ _ _ h := absurd h List.not_mem_nil
  error h := EntryState.noConfusion h

/-- A composition leaves what has been captured. -/
theorem Sound.composed (h : Sound state) (composition composing : Bool) :
    Sound { state with entry := { state.entry with composition }, composing } where
  sent := h.sent
  count := h.count
  room := h.room
  queueRoom := h.queueRoom
  starting := h.starting
  pending := h.pending
  recording hrecording := by
    obtain ⟨hsession, hwhole⟩ := h.recording hrecording
    exact ⟨hsession, hwhole.replaced, hwhole.failed, hwhole.carries⟩
  waiting hwaiting := by
    obtain ⟨hcaptures, hout, hwhole⟩ := h.waiting hwaiting
    exact ⟨hcaptures, hout, hwhole.replaced, hwhole.failed, hwhole.carries⟩
  signed := h.signed
  finished := h.finished
  result := h.result
  answered := h.answered
  error := h.error

/-- No freeze waits, and none has been answered with a binding. -/
structure Unanswered (state : EditorCapture β) : Prop where
  waiting : state.entry.waiting = []
  finish : state.entry.finishBinding = none
  answers : ∀ number binding unrecorded,
    (number, .bindingResult binding unrecorded) ∉ state.answers

theorem Unanswered.finished (h : Unanswered state) {entry : FieldEntry β}
    (hsame : entry.finishBinding = state.entry.finishBinding) :
    ¬ entry.finishBinding.isSome = true := by
  rw [hsame, h.finish]
  exact Bool.false_ne_true

theorem Unanswered.result (h : Unanswered state) {entry : FieldEntry β}
    (hsame : entry.finishBinding = state.entry.finishBinding) (result : ComputeBindingResponse β) :
    entry.finishBinding ≠ some result := by
  rw [hsame, h.finish]
  exact fun hresult => nomatch hresult

/-- An entry that captures has answered no freeze. -/
theorem Sound.unfinished (h : Sound state) (hcaptures : state.entry.captures = true) :
    Unanswered state := by
  have hnone : ¬ state.entry.finishBinding.isSome = true := by
    intro hsome
    exact Bool.noConfusion (hcaptures.symm.trans (h.finished hsome).1)
  refine ⟨?_, by simpa using hnone, fun number binding unrecorded hmem =>
    hnone (h.answered number binding unrecorded hmem).1⟩
  by_contra hwaiting
  exact Bool.noConfusion (hcaptures.symm.trans (h.waiting hwaiting).1)

/-- Nor has one whose registration is under way. -/
theorem Sound.unregistered (h : Sound state) (hstart : state.entry.starting = true) :
    Unanswered state := by
  have hnone : ¬ state.entry.finishBinding.isSome = true := by
    intro hsome
    exact Bool.noConfusion (hstart.symm.trans (h.finished hsome).2)
  refine ⟨?_, by simpa using hnone, fun number binding unrecorded hmem =>
    hnone (h.answered number binding unrecorded hmem).1⟩
  by_contra hwaiting
  apply (h.waiting hwaiting).2.1
  rw [(h.starting hstart).1]
  rfl

/-- A mutation that is lost ends the capture in error. -/
theorem Sound.lost (h : Sound state) (hcaptures : state.entry.captures = true)
    (value : CapturedMutation) {replaced : Bool}
    (hstarting : state.entry.starting = true → replaced = false)
    (hlast : replaced = true ∨ state.entry.sends.waiting = []) :
    Sound { state with
      entry := { state.entry.captureError with replaced }
      captured := state.captured ++ [value] } := by
  have hnone := h.unfinished hcaptures
  obtain ⟨values, hprefix, hcarries⟩ := h.sent
  refine ⟨⟨values, hprefix.trans (List.prefix_append _ _), hcarries⟩, h.count, h.room,
    h.queueRoom, ?_, ?_, ?_, ?_, ?_, ?_, ?_, ?_, fun _ => hlast⟩
  · intro hstart
    obtain ⟨hsends, -, hcount, hsession, -⟩ := h.starting hstart
    exact ⟨hsends, hstarting hstart, hcount, hsession, Or.inr rfl⟩
  · intro hstate
    cases hstate
  · intro hstate
    cases hstate
  · exact fun hfreezes => absurd hnone.waiting hfreezes
  · intro hstate
    cases hstate
  · exact fun hsome => absurd hsome (hnone.finished rfl)
  · exact fun binding unrecorded hresult => absurd hresult (hnone.result rfl _)
  · exact fun number binding unrecorded hmem =>
      absurd hmem (hnone.answers number binding unrecorded)

theorem sound_capture (h : Sound state) (hcaptures : state.entry.captures = true)
    (mutation : Option CapturedMutation) : Sound (state.capture mutation) := by
  cases mutation with
  | none => exact h
  | some value =>
      have hnone := h.unfinished hcaptures
      unfold capture FieldEntry.queueOrSend
      cases hstate : state.entry.state with
      | pending =>
          have hstart : state.entry.starting = true := h.pending hstate
          obtain ⟨hsends, hreplaced, hcount, hsession, hqueue⟩ := h.starting hstart
          have hcaptured : state.captured = state.entry.queue := by
            rcases hqueue with ⟨-, hcaptured⟩ | herror
            · exact hcaptured
            · exact EntryState.noConfusion (hstate.symm.trans herror)
          simp only
          split
          · exact h.lost hcaptures value (fun _ => hreplaced) (Or.inr (by rw [hsends]; rfl))
          · rename_i hroom
            refine ⟨?_, h.count, h.room, ?_, ?_, fun _ => hstart, ?_, ?_, ?_, ?_, ?_, ?_,
              fun hstate => EntryState.noConfusion hstate⟩
            · obtain ⟨values, hprefix, hcarries⟩ := h.sent
              exact ⟨values, hprefix.trans (List.prefix_append _ _), hcarries⟩
            · show (state.entry.queue ++ [value]).length ≤ _
              rw [List.length_append, List.length_singleton]
              omega
            · intro _
              refine ⟨hsends, hreplaced, hcount, hsession, Or.inl ⟨rfl, ?_⟩⟩
              rw [hcaptured]
            · intro hrecording
              cases hrecording
            · exact fun hfreezes => absurd hnone.waiting hfreezes
            · intro hsigned
              cases hsigned
            · exact fun hsome => absurd hsome (hnone.finished rfl)
            · exact fun binding unrecorded hresult => absurd hresult (hnone.result rfl _)
            · exact fun number binding unrecorded hmem =>
                absurd hmem (hnone.answers number binding unrecorded)
      | recording =>
          obtain ⟨hsession, hwhole⟩ := h.recording hstate
          have hstarted : state.entry.starting = false := by
            by_contra hstart
            obtain ⟨-, -, -, hunnamed, -⟩ := h.starting (by simpa using hstart)
            rw [hunnamed] at hsession
            cases hsession
          rcases hwhole.sendMutation hsession value with ⟨hroom, hsent⟩ | ⟨-, hfull⟩
          · simp only [hsent]
            obtain ⟨hlength, hfailed⟩ :=
              FieldEntry.length_push state.entry.sends value hwhole.failed
            have hcarries := hwhole.carries.push value
            refine ⟨⟨_, List.prefix_refl _, hcarries⟩, ?_, hroom, h.queueRoom, ?_, ?_, ?_, ?_, ?_,
              h.finished, ?_, ?_, fun herror => EntryState.noConfusion (hstate.symm.trans herror)⟩
            · show state.entry.queuedCount + 1 = _
              rw [hlength, h.count]
            · intro hstart
              exact Bool.noConfusion (hstarted.symm.trans hstart)
            · intro hpending
              exact EntryState.noConfusion (hstate.symm.trans hpending)
            · exact fun _ => ⟨hsession, hwhole.replaced, hfailed, hcarries⟩
            · exact fun hfreezes => absurd hnone.waiting hfreezes
            · intro hsigned
              exact EntryState.noConfusion (hstate.symm.trans hsigned)
            · exact fun binding unrecorded hresult => absurd hresult (hnone.result rfl _)
            · exact fun number binding unrecorded hmem =>
                absurd hmem (hnone.answers number binding unrecorded)
          · simp only [hfull]
            exact h.lost hcaptures value
              (fun hstart => Bool.noConfusion (hstarted.symm.trans hstart)) (Or.inl rfl)
      | signed =>
          rw [FieldEntry.captures, hstate] at hcaptures
          cases hcaptures
      | error =>
          rw [FieldEntry.captures, hstate] at hcaptures
          cases hcaptures

/-- A registration that succeeds sends all that waited for it. -/
theorem Sound.registered_eq (h : Sound state) (hstart : state.entry.starting = true)
    (hopen : state.entry.state ≠ .error) (sessionId : JsString) :
    ∃ sends queuedCount, state.entry.registered (some sessionId) = { state.entry with
        sessionId := some sessionId, starting := false, queue := [], sends, queuedCount
        state := .recording } ∧
      sends.failed = false ∧ sends.Carries state.captured ∧
      queuedCount = sends.waiting.length ∧ queuedCount ≤ FieldEntry.backlogLimit := by
  obtain ⟨hsends, hreplaced, hcount, -, hqueue⟩ := h.starting hstart
  have hcaptured : state.captured = state.entry.queue := by
    rcases hqueue with ⟨-, hcaptured⟩ | herror
    · exact hcaptured
    · exact absurd herror hopen
  have hwhole : FieldEntry.Whole { state.entry with
      sessionId := some sessionId, starting := false, queue := [] } [] := by
    refine ⟨hreplaced, ?_, ?_⟩
    · show state.entry.sends.failed = false
      rw [hsends]
      rfl
    · show state.entry.sends.Carries []
      rw [hsends]
      exact SerialSends.carries_empty
  have hroom : state.entry.queuedCount + state.entry.queue.length ≤
      FieldEntry.backlogLimit := by
    rw [hcount, Nat.zero_add]
    exact h.queueRoom
  obtain ⟨sends, heq, hok, hcarries, hlength⟩ :=
    hwhole.sendAll rfl h.count state.entry.queue hroom
  rw [List.nil_append, ← hcaptured] at hcarries
  refine ⟨sends, _, ?_, hok, hcarries, hlength.symm, hroom⟩
  unfold FieldEntry.registered
  simp only
  rw [if_neg hopen, heq]

theorem sound_registered (h : Sound state) (hstart : state.entry.starting = true)
    (sessionId : Option JsString) :
    Sound { state with entry := state.entry.registered sessionId } := by
  obtain ⟨hsends, hreplaced, -⟩ := h.starting hstart
  have hnone := h.unregistered hstart
  have hidle : state.entry.sends.waiting = [] := by
    rw [hsends]
    rfl
  -- What is common to the entries that a registration leaves.
  have hleft : ∀ entry : FieldEntry β, entry.starting = false → entry.queue = [] →
      entry.finishBinding = state.entry.finishBinding → entry.waiting = state.entry.waiting →
      (∃ values, values <+: state.captured ∧ entry.sends.Carries values) →
      entry.queuedCount = entry.sends.waiting.length →
      entry.queuedCount ≤ FieldEntry.backlogLimit → entry.state ≠ .pending →
      entry.state ≠ .signed → (entry.state = .recording → entry.sessionId.isSome = true ∧
        entry.Whole state.captured) → (entry.state = .error → entry.sends.waiting = []) →
      Sound { state with entry } := by
    intro entry hstarting hempty hfinish hfreezes hsent hlength hroom hpending hsigned hrecording
      herror
    rw [hnone.waiting] at hfreezes
    refine ⟨hsent, hlength, hroom, ?_, ?_, ?_, hrecording, ?_, ?_, ?_, ?_, ?_,
      fun hstate => Or.inr (herror hstate)⟩
    · show entry.queue.length ≤ _
      rw [hempty]
      exact Nat.zero_le _
    · exact fun hstart => Bool.noConfusion (hstarting.symm.trans hstart)
    · exact fun hstate => absurd hstate hpending
    · exact fun hnonempty => absurd hfreezes hnonempty
    · exact fun hstate => absurd hstate hsigned
    · exact fun hsome => absurd hsome (hnone.finished hfinish)
    · exact fun binding unrecorded hresult => absurd hresult (hnone.result hfinish _)
    · exact fun number binding unrecorded hmem =>
        absurd hmem (hnone.answers number binding unrecorded)
  cases sessionId with
  | none =>
      refine hleft _ rfl rfl rfl rfl h.sent h.count h.room ?_ ?_ ?_ fun _ => hidle
      · exact fun hstate => EntryState.noConfusion hstate
      · exact fun hstate => EntryState.noConfusion hstate
      · exact fun hstate => EntryState.noConfusion hstate
  | some sessionId =>
      by_cases herror : state.entry.state = .error
      · unfold FieldEntry.registered
        simp only
        rw [if_pos herror]
        refine hleft _ rfl rfl rfl rfl h.sent h.count h.room ?_ ?_ ?_ fun _ => hidle
        · exact fun hstate => EntryState.noConfusion (herror.symm.trans hstate)
        · exact fun hstate => EntryState.noConfusion (herror.symm.trans hstate)
        · exact fun hstate => EntryState.noConfusion (herror.symm.trans hstate)
      · obtain ⟨sends, queuedCount, heq, hok, hcarries, hlength, hroom⟩ :=
          h.registered_eq hstart herror sessionId
        rw [heq]
        refine hleft _ rfl rfl rfl rfl ⟨_, List.prefix_refl _, hcarries⟩ hlength hroom ?_ ?_ ?_ ?_
        · exact fun hstate => EntryState.noConfusion hstate
        · exact fun hstate => EntryState.noConfusion hstate
        · exact fun _ => ⟨rfl, hreplaced, hok, hcarries⟩
        · exact fun hstate => EntryState.noConfusion hstate

/-- While a message is out no freeze has been answered with a binding. -/
theorem Sound.out (h : Sound state) (hout : state.entry.sends.waiting ≠ []) :
    state.entry.sends.acknowledged ≠ state.captured := by
  intro hall
  obtain ⟨values, hprefix, hcarries⟩ := h.sent
  apply hout
  apply hcarries.waiting_nil
  rw [hall]
  exact hprefix.length_le

/-- The freezes that were answered last, or the answer there was before. -/
theorem settled_eq (freezes : List (WaitingFreeze β))
    (answer : WaitingFreeze β → Nat × ComputeBindingResponse β)
    (old : Option (ComputeBindingResponse β)) :
    (freezes = [] ∧ ((freezes.map answer).getLast?.map Prod.snd).or old = old) ∨
      ∃ freeze ∈ freezes, freezes ≠ [] ∧
        ((freezes.map answer).getLast?.map Prod.snd).or old = some (answer freeze).2 := by
  cases hlast : freezes.getLast? with
  | none =>
      rw [List.getLast?_eq_none_iff] at hlast
      subst hlast
      exact Or.inl ⟨rfl, rfl⟩
  | some freeze =>
      have hmem := List.mem_of_getLast? hlast
      refine Or.inr ⟨freeze, hmem, List.ne_nil_of_mem hmem, ?_⟩
      rw [List.getLast?_map, hlast]
      rfl

theorem sound_respond (h : Sound state) {ok : Bool} {entry : FieldEntry β}
    {answers : List (Nat × ComputeBindingResponse β)}
    (hrespond : state.entry.respond ok = some (entry, answers)) :
    Sound { state with entry, answers := state.answers ++ answers } := by
  obtain ⟨sends, hsends, heq⟩ := Option.map_eq_some_iff.1 hrespond
  obtain ⟨hout, hcases⟩ := SerialSends.answer_eq_some hsends
  have hopen := h.out hout
  obtain ⟨values, hprefix, hcarried⟩ := h.sent
  have hsent : ∃ values, values <+: state.captured ∧ sends.Carries values :=
    ⟨values, hprefix, hcarried.answer hsends⟩
  have hstarted : state.entry.starting = false := by
    by_contra hstart
    obtain ⟨hempty, -⟩ := h.starting (by simpa using hstart)
    rw [hempty] at hout
    exact hout rfl
  have hstarting : state.entry.starting = true → False := fun hstart =>
    Bool.noConfusion (hstarted.symm.trans hstart)
  have hold : ∀ number binding unrecorded,
      (number, .bindingResult binding unrecorded) ∉ state.answers := fun number binding
      unrecorded hmem => hopen (h.answered number binding unrecorded hmem).2
  have hfinish : ∀ binding unrecorded,
      state.entry.finishBinding ≠ some (.bindingResult binding unrecorded) :=
    fun binding unrecorded hresult => hopen (h.result binding unrecorded hresult)
  have hcount := h.count
  have hroom := h.room
  rcases hcases with ⟨rfl, hsame, hless⟩ | ⟨rfl, hfailed, hnone⟩
  · have hrecording : state.entry.state = .recording → state.entry.sessionId.isSome = true ∧
        FieldEntry.Whole { state.entry with sends } state.captured := by
      intro hstate
      obtain ⟨hsession, hwhole⟩ := h.recording hstate
      exact ⟨hsession, hwhole.replaced, hsame.trans hwhole.failed, hwhole.carries.answer hsends⟩
    cases hrest : sends.waiting with
    | cons first rest =>
        simp only [hrest, List.isEmpty_cons, Bool.false_eq_true, if_false, if_true,
          Prod.mk.injEq] at heq
        obtain ⟨rfl, rfl⟩ := heq
        refine ⟨hsent, ?_, ?_, h.queueRoom, fun hstart => (hstarting hstart).elim, h.pending,
          fun hstate => ?_, ?_, h.signed, h.finished, ?_, ?_,
          fun hstate => Or.inl ((h.error hstate).resolve_right hout)⟩
        · show state.entry.queuedCount - 1 = sends.waiting.length
          omega
        · show state.entry.queuedCount - 1 ≤ _
          omega
        · obtain ⟨hsession, hwhole⟩ := hrecording hstate
          exact ⟨hsession, hwhole.replaced, hwhole.failed, hwhole.carries⟩
        · intro hfreezes
          obtain ⟨hcaptures, -, hwhole⟩ := h.waiting hfreezes
          refine ⟨hcaptures, ?_, hwhole.replaced, hsame.trans hwhole.failed,
            hwhole.carries.answer hsends⟩
          show sends.waiting ≠ []
          rw [hrest]
          exact List.cons_ne_nil _ _
        · exact fun binding unrecorded hresult => absurd hresult (hfinish binding unrecorded)
        · intro number binding unrecorded hmem
          rw [List.append_nil] at hmem
          exact absurd hmem (hold number binding unrecorded)
    | nil =>
        simp only [hrest, List.isEmpty_nil, if_true, Prod.mk.injEq] at heq
        obtain ⟨rfl, rfl⟩ := heq
        have hwhole : state.entry.waiting ≠ [] → sends.acknowledged = state.captured := by
          intro hfreezes
          obtain ⟨-, -, hwhole⟩ := h.waiting hfreezes
          exact ((hwhole.carries.answer hsends).fulfilled ⟨hrest, hsame.trans hwhole.failed⟩).1
        refine ⟨hsent, ?_, ?_, h.queueRoom, fun hstart => (hstarting hstart).elim, h.pending,
          fun hstate => ?_, fun hfreezes => absurd rfl hfreezes, ?_, ?_, ?_, ?_,
          fun _ => Or.inr hrest⟩
        · show state.entry.queuedCount - 1 = sends.waiting.length
          omega
        · show state.entry.queuedCount - 1 ≤ _
          omega
        · obtain ⟨hsession, hwhole⟩ := hrecording hstate
          exact ⟨hsession, hwhole.replaced, hwhole.failed, hwhole.carries⟩
        · intro hsigned
          left
          rcases settled_eq state.entry.waiting _ state.entry.finishBinding with
            ⟨hempty, heq⟩ | ⟨freeze, -, -, heq⟩
          · rw [heq]
            exact (h.signed hsigned).resolve_right fun hfreezes => hfreezes hempty
          · rw [heq]
            rfl
        · intro hsome
          rcases settled_eq state.entry.waiting _ state.entry.finishBinding with
            ⟨-, heq⟩ | ⟨freeze, -, hfreezes, -⟩
          · rw [heq] at hsome
            exact h.finished hsome
          · exact ⟨(h.waiting hfreezes).1, hstarted⟩
        · intro binding unrecorded hresult
          rcases settled_eq state.entry.waiting _ state.entry.finishBinding with
            ⟨-, heq⟩ | ⟨freeze, -, hfreezes, -⟩
          · rw [heq] at hresult
            exact absurd hresult (hfinish binding unrecorded)
          · exact hwhole hfreezes
        · intro number binding unrecorded hmem
          rcases List.mem_append.1 hmem with hmem | hmem
          · exact absurd hmem (hold number binding unrecorded)
          · have hfreezes : state.entry.waiting ≠ [] := by
              rintro hempty
              rw [hempty] at hmem
              exact List.not_mem_nil hmem
            refine ⟨?_, hwhole hfreezes⟩
            rcases settled_eq state.entry.waiting _ state.entry.finishBinding with
              ⟨hempty, -⟩ | ⟨freeze, -, -, heq⟩
            · exact absurd hempty hfreezes
            · rw [heq]
              rfl
  · simp only [hnone, List.isEmpty_nil, if_true, Bool.false_eq_true, if_false,
      Prod.mk.injEq] at heq
    obtain ⟨rfl, rfl⟩ := heq
    refine ⟨hsent, ?_, ?_, h.queueRoom, fun hstart => (hstarting hstart).elim,
      fun hstate => EntryState.noConfusion hstate, fun hstate => EntryState.noConfusion hstate,
      fun hfreezes => absurd rfl hfreezes, fun hstate => EntryState.noConfusion hstate,
      fun _ => ⟨rfl, hstarted⟩, ?_, ?_, fun _ => Or.inr hnone⟩
    · show state.entry.queuedCount - state.entry.sends.waiting.length = sends.waiting.length
      rw [hnone, hcount, Nat.sub_self]
      rfl
    · show state.entry.queuedCount - state.entry.sends.waiting.length ≤ _
      omega
    · intro binding unrecorded hresult
      rcases settled_eq state.entry.waiting _ state.entry.captureError.finishBinding with
        ⟨-, heq⟩ | ⟨freeze, -, -, heq⟩
      · rw [heq] at hresult
        exact absurd hresult (hfinish binding unrecorded)
      · rw [heq] at hresult
        cases hresult
    · intro number binding unrecorded hmem
      rcases List.mem_append.1 hmem with hmem | hmem
      · exact absurd hmem (hold number binding unrecorded)
      · obtain ⟨freeze, -, hequal⟩ := List.mem_map.1 hmem
        cases hequal

/-- A freeze that has no answer yet finds a whole chain, or an entry in error. -/
theorem Sound.beforeFreeze (h : Sound state) (hsession : state.entry.sessionId.isSome = true)
    (hnone : state.entry.finishBinding = none) :
    state.entry.state = .error ∨ state.entry.Whole state.captured := by
  cases hstate : state.entry.state with
  | pending =>
      obtain ⟨-, -, -, hmissing, -⟩ := h.starting (h.pending hstate)
      rw [hmissing] at hsession
      cases hsession
  | recording => exact Or.inr (h.recording hstate).2
  | signed =>
      right
      refine (h.waiting ?_).2.2
      apply (h.signed hstate).resolve_left
      rw [hnone]
      exact Bool.false_ne_true
  | error => exact Or.inl rfl

theorem freezeResult_binding {entry : FieldEntry β} {bind : Bool} {page : EditorPage β}
    {binding : Option β} {unrecorded : Bool}
    (h : entry.freezeResult bind page = .bindingResult binding unrecorded) :
    entry.state ≠ .error ∧ entry.composition = false := by
  unfold FieldEntry.freezeResult at h
  split at h
  · cases h
  · rename_i hopen
    rw [not_or] at hopen
    exact ⟨hopen.1, by simpa using hopen.2⟩

theorem sound_freeze (h : Sound state) (hsession : state.entry.sessionId.isSome = true)
    (number : Nat) (bind : Bool) (expected : Option JsString) (page : EditorPage β) :
    Sound { state with
      entry := (state.entry.freezeSession number bind expected page).1
      calls := state.calls + 1
      answers := state.answers ++ (state.entry.freezeSession number bind expected page).2 } := by
  have hstarted : state.entry.starting = false := by
    by_contra hstart
    obtain ⟨-, -, -, hmissing, -⟩ := h.starting (by simpa using hstart)
    rw [hmissing] at hsession
    cases hsession
  have hstarting : state.entry.starting = true → False := fun hstart =>
    Bool.noConfusion (hstarted.symm.trans hstart)
  -- The entry as it was, with an answer that is no new binding.
  have hkept : ∀ answer : ComputeBindingResponse β,
      (∀ binding unrecorded, answer = .bindingResult binding unrecorded →
        state.entry.finishBinding = some answer) →
      Sound { state with
        calls := state.calls + 1, answers := state.answers ++ [(number, answer)] } := by
    intro answer hanswer
    refine ⟨h.sent, h.count, h.room, h.queueRoom, h.starting, h.pending, h.recording, h.waiting,
      h.signed, h.finished, h.result, ?_, h.error⟩
    intro other binding unrecorded hmem
    rcases List.mem_append.1 hmem with hmem | hmem
    · exact h.answered other binding unrecorded hmem
    · rw [List.mem_singleton, Prod.mk.injEq] at hmem
      have hfinish := hanswer binding unrecorded hmem.2.symm
      refine ⟨?_, h.result binding unrecorded (hmem.2 ▸ hfinish)⟩
      show state.entry.finishBinding.isSome = true
      rw [hfinish]
      rfl
  unfold FieldEntry.freezeSession
  cases hfinish : state.entry.finishBinding with
  | some result =>
      have hsame := hkept result fun binding unrecorded _ => hfinish
      exact hsame
  | none =>
      have hbefore := h.beforeFreeze hsession hfinish
      have hold : ∀ other binding unrecorded,
          (other, .bindingResult binding unrecorded) ∉ state.answers := by
        intro other binding unrecorded hmem
        have hsome := (h.answered other binding unrecorded hmem).1
        rw [hfinish] at hsome
        cases hsome
      -- The entry stops, with its answer.
      have hended : ∀ result : ComputeBindingResponse β,
          (∀ binding unrecorded, result = .bindingResult binding unrecorded →
            state.entry.sends.acknowledged = state.captured) → state.entry.waiting = [] →
          Sound { state with
            entry := { state.entry with
              state := .signed, composition := false, finishBinding := some result }
            calls := state.calls + 1
            answers := state.answers ++ [(number, result)] } := by
        intro result hresult hfreezes
        refine ⟨h.sent, h.count, h.room, h.queueRoom, fun hstart => (hstarting hstart).elim,
          fun hstate => EntryState.noConfusion hstate, fun hstate => EntryState.noConfusion hstate,
          fun hwaiting => absurd hfreezes hwaiting, fun _ => Or.inl rfl, fun _ => ⟨rfl, hstarted⟩,
          ?_, ?_, fun hstate => EntryState.noConfusion hstate⟩
        · intro binding unrecorded heq
          exact hresult binding unrecorded (Option.some.inj heq)
        · intro other binding unrecorded hmem
          rcases List.mem_append.1 hmem with hmem | hmem
          · exact absurd hmem (hold other binding unrecorded)
          · rw [List.mem_singleton, Prod.mk.injEq] at hmem
            exact ⟨rfl, hresult binding unrecorded hmem.2.symm⟩
      simp only
      split
      · have hsame := hkept (.bindingScopeChanged (state.entry.bindingScopeForSession page))
          fun binding unrecorded heq => by cases heq
        exact hsame
      · split
        · rename_i hrejected
          apply hended
          · intro binding unrecorded heq
            cases heq
          · by_contra hfreezes
            rw [(h.waiting hfreezes).2.2.accepted] at hrejected
            cases hrejected
        · rename_i hopen
          split
          · rename_i hempty
            rw [List.isEmpty_iff] at hempty
            apply hended
            · intro binding unrecorded heq
              have hwhole := hbefore.resolve_left (freezeResult_binding heq).1
              exact (hwhole.carries.fulfilled ⟨hempty, hwhole.failed⟩).1
            · by_contra hfreezes
              exact (h.waiting hfreezes).2.1 hempty
          · rename_i hout
            rw [List.isEmpty_iff] at hout
            have hwhole : state.entry.Whole state.captured := by
              rcases hbefore with herror | hwhole
              · rw [FieldEntry.rejected, (h.error herror).resolve_right hout] at hopen
                exact absurd rfl hopen
              · exact hwhole
            refine ⟨h.sent, h.count, h.room, h.queueRoom, fun hstart => (hstarting hstart).elim,
              fun hstate => EntryState.noConfusion hstate,
              fun hstate => EntryState.noConfusion hstate, fun _ => ⟨rfl, hout, hwhole.replaced,
              hwhole.failed, hwhole.carries⟩, fun _ => Or.inr ?_, fun _ => ⟨rfl, hstarted⟩, ?_, ?_,
              fun hstate => EntryState.noConfusion hstate⟩
            · simp
            · intro binding unrecorded heq
              cases heq
            · intro other binding unrecorded hmem
              rw [List.append_nil] at hmem
              exact absurd hmem (hold other binding unrecorded)

theorem sound_step (h : Sound state) {action : Action β}
    (hnext : state.step action = some next) : Sound next := by
  cases action with
  | registered sessionId =>
      rw [step] at hnext
      split at hnext
      · cases hnext
        exact sound_registered h ‹_› sessionId
      · cases hnext
  | input mutation =>
      rw [step] at hnext
      split at hnext
      · rename_i hopen
        rw [Bool.and_eq_true] at hopen
        cases hnext
        exact sound_capture h hopen.1 mutation
      · cases hnext
        exact h
  | compositionstart =>
      rw [step] at hnext
      split at hnext
      · cases hnext
        exact h.composed true true
      · cases hnext
        exact h
  | compositionend mutation =>
      rw [step] at hnext
      split at hnext
      · rename_i hcaptures
        split at hnext
        · cases hnext
          exact sound_capture (h.composed false false) hcaptures mutation
        · cases hnext
          exact h.composed state.entry.composition false
      · cases hnext
        exact h
  | respond ok =>
      obtain ⟨⟨entry, answers⟩, hrespond, rfl⟩ := Option.map_eq_some_iff.1 hnext
      exact sound_respond h hrespond
  | freeze bind expected page =>
      rw [step] at hnext
      split at hnext
      · cases hnext
        exact sound_freeze h ‹_› state.calls bind expected page
      · cases hnext
  | earlierReleased =>
      cases hnext
      exact h.composed false state.composing

theorem sound_run {condition : EditorCapture β → Action β → Prop}
    (run : Run step condition start state) : Sound state :=
  run.invariant (fun _ _ _ h _ hnext => sound_step h hnext) sound_start

/-- In every run: the edits of an editor reach the worker in the order in which they were
captured, each once and one at a time.  While the editor records none is lost, and a
freeze answers with a binding only if all of them have been acknowledged. -/
theorem freezing_delivers (run : Run step (fun _ _ => True) start state) :
    state.entry.sends.posted <+: state.captured ∧
      state.entry.sends.acknowledged <+: state.entry.sends.posted ∧
      state.entry.sends.posted.length ≤ state.entry.sends.acknowledged.length + 1 ∧
      state.entry.sends.waiting.length ≤ FieldEntry.backlogLimit ∧
      state.entry.queue.length ≤ FieldEntry.backlogLimit ∧
      (state.entry.state = .pending → state.captured = state.entry.queue) ∧
      (state.entry.state = .recording →
        state.captured = state.entry.sends.acknowledged ++ state.entry.sends.waiting) ∧
      ∀ number binding unrecorded,
        (number, .bindingResult binding unrecorded) ∈ state.answers →
        state.entry.sends.acknowledged = state.captured := by
  have hsound := sound_run run
  obtain ⟨values, hprefix, hcarries⟩ := hsound.sent
  refine ⟨hcarries.posted.trans hprefix, hcarries.acknowledged, hcarries.single,
    hsound.count ▸ hsound.room, hsound.queueRoom, ?_, ?_, ?_⟩
  · intro hpending
    obtain ⟨-, -, -, -, ⟨-, hqueue⟩ | herror⟩ := hsound.starting (hsound.pending hpending)
    · exact hqueue
    · exact EntryState.noConfusion (hpending.symm.trans herror)
  · intro hrecording
    have hwhole := (hsound.recording hrecording).2
    exact (hwhole.carries.complete hwhole.failed).1
  · exact fun number binding unrecorded hmem =>
      (hsound.answered number binding unrecorded hmem).2

def typedLetter : CapturedMutation := ⟨⟨.insert, some 0, some 0, some 1, .typing⟩, 0⟩

def examplePage : EditorPage JsString where
  connected := true
  scope := .wholeField
  scopeToken := js "1:0:whole"
  unrecorded := false
  binding := .ok (some (js "binding"))

/-- A letter waits for the registration, and another one is out when the editor is frozen. -/
def frozenInTime : List (Action JsString) :=
  [.input (some typedLetter), .registered (some (js "session")), .input (some typedLetter),
    .respond true, .freeze true none examplePage, .respond true]

theorem freezing_delivers_inTime : ∃ state : EditorCapture JsString,
    runAll step (fun _ _ => True) start frozenInTime = some state ∧
      state.answers = [(0, .bindingResult (some (js "binding")) false)] ∧
      state.captured = [typedLetter, typedLetter] ∧
      state.entry.sends.acknowledged = state.captured := by
  have hrun : (runAll step (fun _ _ => True) start frozenInTime).any (fun state =>
      decide (state.answers = [(0, .bindingResult (some (js "binding")) false)] ∧
        state.captured = [typedLetter, typedLetter])) = true := by
    decide +kernel
  obtain ⟨state, hstate, hholds⟩ := (Option.any_eq_true _ _).1 hrun
  obtain ⟨hanswers, hcaptured⟩ := of_decide_eq_true hholds
  obtain ⟨-, -, -, -, -, -, -, hall⟩ := freezing_delivers (Run.of_runAll hstate)
  refine ⟨state, hstate, hanswers, hcaptured, hall 0 (some (js "binding")) false ?_⟩
  rw [hanswers]
  exact List.mem_singleton.2 rfl

end EditorCapture

end Pmbah.Browser
