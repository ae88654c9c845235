import Pmbah.Browser.Delivery

/-!
# What a freeze answers

Every freeze of an editor is answered once.  One that is called while another waits
does not know of a composition that the first has let go of.
-/

namespace Pmbah.Browser

open Js Format Library

namespace EditorCapture

variable {β : Type} {state next : EditorCapture β}

theorem sendMutation_kept (entry : FieldEntry β) (value : CapturedMutation) :
    (entry.sendMutation value).waiting = entry.waiting ∧
      (entry.sendMutation value).finishBinding = entry.finishBinding := by
  unfold FieldEntry.sendMutation
  split
  · exact ⟨rfl, rfl⟩
  · split
    · exact ⟨rfl, rfl⟩
    · split
      · exact ⟨rfl, rfl⟩
      · exact ⟨rfl, rfl⟩

theorem sendAll_kept (queue : List CapturedMutation) (entry : FieldEntry β) :
    (queue.foldl FieldEntry.sendMutation entry).waiting = entry.waiting ∧
      (queue.foldl FieldEntry.sendMutation entry).finishBinding = entry.finishBinding := by
  induction queue generalizing entry with
  | nil => exact ⟨rfl, rfl⟩
  | cons value queue ih =>
      obtain ⟨hwaiting, hfinish⟩ := sendMutation_kept entry value
      obtain ⟨hwaiting', hfinish'⟩ := ih (entry.sendMutation value)
      exact ⟨hwaiting'.trans hwaiting, hfinish'.trans hfinish⟩

theorem queueOrSend_kept (entry : FieldEntry β) (value : CapturedMutation) :
    (entry.queueOrSend value).waiting = entry.waiting ∧
      (entry.queueOrSend value).finishBinding = entry.finishBinding := by
  unfold FieldEntry.queueOrSend
  split
  · split
    · exact ⟨rfl, rfl⟩
    · exact ⟨rfl, rfl⟩
  · exact sendMutation_kept entry value
  · exact ⟨rfl, rfl⟩

theorem registered_kept (entry : FieldEntry β) (sessionId : Option JsString) :
    (entry.registered sessionId).waiting = entry.waiting ∧
      (entry.registered sessionId).finishBinding = entry.finishBinding := by
  cases sessionId with
  | none => exact ⟨rfl, rfl⟩
  | some sessionId =>
      unfold FieldEntry.registered
      simp only
      split
      · exact ⟨rfl, rfl⟩
      · exact sendAll_kept entry.queue _

theorem capture_kept (state : EditorCapture β) (mutation : Option CapturedMutation) :
    (state.capture mutation).entry.waiting = state.entry.waiting ∧
      (state.capture mutation).entry.finishBinding = state.entry.finishBinding ∧
      (state.capture mutation).calls = state.calls ∧
      (state.capture mutation).answers = state.answers ∧
      (state.capture mutation).composing = state.composing := by
  cases mutation with
  | none => exact ⟨rfl, rfl, rfl, rfl, rfl⟩
  | some value =>
      obtain ⟨hwaiting, hfinish⟩ := queueOrSend_kept state.entry value
      exact ⟨hwaiting, hfinish, rfl, rfl, rfl⟩

/-- A step that is no freeze and no answer of the worker. -/
theorem step_kept {action : Action β} (hrespond : ∀ ok, action ≠ .respond ok)
    (hfreeze : ∀ bind expected page, action ≠ .freeze bind expected page)
    (hnext : state.step action = some next) :
    next.entry.waiting = state.entry.waiting ∧
      next.entry.finishBinding = state.entry.finishBinding ∧
      next.calls = state.calls ∧ next.answers = state.answers := by
  cases action with
  | registered sessionId =>
      rw [step] at hnext
      split at hnext
      · cases hnext
        obtain ⟨hwaiting, hfinish⟩ := registered_kept state.entry sessionId
        exact ⟨hwaiting, hfinish, rfl, rfl⟩
      · cases hnext
  | input mutation =>
      rw [step] at hnext
      split at hnext
      · cases hnext
        obtain ⟨hwaiting, hfinish, hcalls, hanswers, -⟩ := capture_kept state mutation
        exact ⟨hwaiting, hfinish, hcalls, hanswers⟩
      · cases hnext
        exact ⟨rfl, rfl, rfl, rfl⟩
  | compositionstart =>
      rw [step] at hnext
      split at hnext
      · cases hnext
        exact ⟨rfl, rfl, rfl, rfl⟩
      · cases hnext
        exact ⟨rfl, rfl, rfl, rfl⟩
  | compositionend mutation =>
      rw [step] at hnext
      split at hnext
      · split at hnext
        · cases hnext
          obtain ⟨hwaiting, hfinish, hcalls, hanswers, -⟩ := capture_kept { state with
            entry := { state.entry with composition := false }, composing := false } mutation
          exact ⟨hwaiting, hfinish, hcalls, hanswers⟩
        · cases hnext
          exact ⟨rfl, rfl, rfl, rfl⟩
      · cases hnext
        exact ⟨rfl, rfl, rfl, rfl⟩
  | respond ok => exact absurd rfl (hrespond ok)
  | freeze bind expected page => exact absurd rfl (hfreeze bind expected page)
  | earlierReleased =>
      cases hnext
      exact ⟨rfl, rfl, rfl, rfl⟩

/-- How a freeze ends: with an answer, or waiting for what is out. -/
theorem freezeSession_cases (entry : FieldEntry β) (number : Nat) (bind : Bool)
    (expected : Option JsString) (page : EditorPage β) :
    (∃ answer, entry.freezeSession number bind expected page = (entry, [(number, answer)]) ∧
      (entry.finishBinding = some answer ∨ ∃ preview, answer = .bindingScopeChanged preview)) ∨
    (entry.finishBinding = none ∧ ∃ answer,
      entry.freezeSession number bind expected page =
        ({ entry with
            state := .signed, composition := false, finishBinding := some answer },
          [(number, answer)]) ∧
      (answer = .bindingError FieldEntry.unsavedReason ∨
        answer = entry.freezeResult bind page)) ∨
    (entry.finishBinding = none ∧ entry.freezeSession number bind expected page =
      ({ entry with
          state := .signed, composition := false
          waiting := entry.waiting ++ [⟨number, entry.freezeResult bind page⟩] }, [])) := by
  unfold FieldEntry.freezeSession
  cases entry.finishBinding with
  | some result => exact Or.inl ⟨result, rfl, Or.inl rfl⟩
  | none =>
      simp only
      split
      · exact Or.inl ⟨_, rfl, Or.inr ⟨_, rfl⟩⟩
      · split
        · exact Or.inr (Or.inl ⟨trivial, _, rfl, Or.inl rfl⟩)
        · split
          · exact Or.inr (Or.inl ⟨trivial, _, rfl, Or.inr rfl⟩)
          · exact Or.inr (Or.inr ⟨trivial, rfl⟩)

/-- How an answer of the worker ends: the chain goes on, or every freeze is answered. -/
theorem respond_cases {entry next : FieldEntry β} {ok : Bool}
    {answers : List (Nat × ComputeBindingResponse β)}
    (h : entry.respond ok = some (next, answers)) :
    (next.waiting = entry.waiting ∧ next.finishBinding = entry.finishBinding ∧ answers = []) ∨
    (next.waiting = [] ∧ ∃ answer : WaitingFreeze β → Nat × ComputeBindingResponse β,
      answers = entry.waiting.map answer ∧ (∀ freeze, (answer freeze).1 = freeze.number ∧
        ((answer freeze).2 = freeze.result ∨
          (answer freeze).2 = .bindingError FieldEntry.unsavedReason)) ∧
      next.finishBinding = (answers.getLast?.map Prod.snd).or entry.finishBinding) := by
  obtain ⟨sends, -, heq⟩ := Option.map_eq_some_iff.1 h
  simp only at heq
  split at heq
  · rw [Prod.mk.injEq] at heq
    obtain ⟨rfl, rfl⟩ := heq
    cases ok with
    | true => exact Or.inr ⟨rfl, _, rfl, fun freeze => ⟨rfl, Or.inl rfl⟩, rfl⟩
    | false => exact Or.inr ⟨rfl, _, rfl, fun freeze => ⟨rfl, Or.inr rfl⟩, rfl⟩
  · rw [Prod.mk.injEq] at heq
    obtain ⟨rfl, rfl⟩ := heq
    cases ok with
    | true => exact Or.inl ⟨rfl, rfl, rfl⟩
    | false => exact Or.inl ⟨rfl, rfl, rfl⟩

theorem step_freeze {bind : Bool} {expected : Option JsString} {page : EditorPage β}
    (h : state.step (.freeze bind expected page) = some next) :
    state.entry.sessionId.isSome = true ∧ next = { state with
      entry := (state.entry.freezeSession state.calls bind expected page).1
      calls := state.calls + 1
      answers :=
        state.answers ++ (state.entry.freezeSession state.calls bind expected page).2 } := by
  rw [step] at h
  split at h
  · exact ⟨‹_›, (Option.some.inj h).symm⟩
  · cases h

theorem step_respond {ok : Bool} (h : state.step (.respond ok) = some next) :
    ∃ entry answers, state.entry.respond ok = some (entry, answers) ∧
      next = { state with entry, answers := state.answers ++ answers } := by
  obtain ⟨⟨entry, answers⟩, hrespond, rfl⟩ := Option.map_eq_some_iff.1 h
  exact ⟨entry, answers, hrespond, rfl⟩

/-- Every call has been answered, or waits. -/
def Counted (state : EditorCapture β) : Prop :=
  (state.answers.map Prod.fst ++ state.entry.waiting.map WaitingFreeze.number).Perm
    (List.range state.calls)

theorem counted_step (h : Counted state) {action : Action β}
    (hnext : state.step action = some next) : Counted next := by
  unfold Counted at h ⊢
  by_cases hrespond : ∀ ok, action ≠ .respond ok
  · by_cases hfreeze : ∀ bind expected page, action ≠ .freeze bind expected page
    · obtain ⟨hwaiting, -, hcalls, hanswers⟩ := step_kept hrespond hfreeze hnext
      rwa [hwaiting, hcalls, hanswers]
    · push Not at hfreeze
      obtain ⟨bind, expected, page, rfl⟩ := hfreeze
      obtain ⟨-, rfl⟩ := step_freeze hnext
      simp only [List.range_succ]
      have hlonger : ∀ answer : ComputeBindingResponse β,
          ((state.answers ++ [(state.calls, answer)]).map Prod.fst ++
            state.entry.waiting.map WaitingFreeze.number).Perm
            (List.range state.calls ++ [state.calls]) := by
        intro answer
        rw [List.map_append, List.append_assoc]
        refine List.Perm.trans ?_ (h.append_right _)
        rw [List.append_assoc]
        exact List.Perm.append_left _ List.perm_append_comm
      rcases freezeSession_cases state.entry state.calls bind expected page with
        ⟨answer, heq, -⟩ | ⟨-, answer, heq, -⟩ | ⟨-, heq⟩
      · rw [heq]
        exact hlonger answer
      · rw [heq]
        exact hlonger answer
      · rw [heq]
        simp only [List.append_nil, List.map_append, List.map_cons, List.map_nil]
        rw [← List.append_assoc]
        exact h.append_right _
  · push Not at hrespond
    obtain ⟨ok, rfl⟩ := hrespond
    obtain ⟨entry, answers, hanswer, rfl⟩ := step_respond hnext
    rcases respond_cases hanswer with ⟨hwaiting, -, rfl⟩ | ⟨hwaiting, answer, rfl, hnumber, -⟩
    · simp only [hwaiting, List.append_nil]
      exact h
    · simp only [hwaiting, List.map_append, List.map_map, List.map_nil, List.append_nil]
      have hsame : Prod.fst ∘ answer = WaitingFreeze.number := by
        funext freeze
        exact (hnumber freeze).1
      rw [hsame]
      exact h

/-- No freeze is called while another one waits, and no earlier entry for the element
lets go of its numbers. -/
def Alone (state : EditorCapture β) : Action β → Prop
  | .freeze _ _ _ => state.entry.waiting = []
  | .earlierReleased => False
  | _ => True

instance (state : EditorCapture β) : (action : Action β) → Decidable (Alone state action)
  | .freeze _ _ _ => decidable_of_iff (state.entry.waiting.isEmpty = true) List.isEmpty_iff
  | .earlierReleased => inferInstanceAs (Decidable False)
  | .registered _ | .input _ | .compositionstart | .compositionend _ | .respond _ =>
      inferInstanceAs (Decidable True)

/-- The answer gives no binding where a composition was open. -/
def Careful (state : EditorCapture β) (answer : ComputeBindingResponse β) : Prop :=
  ∀ binding unrecorded, answer = .bindingResult binding unrecorded → state.composing = false

/-- There is one answer to every freeze, and it knows of an open composition. -/
structure Settled (state : EditorCapture β) : Prop where
  composing : state.entry.captures = true → state.entry.composition = state.composing
  unanswered : state.entry.waiting ≠ [] → state.entry.finishBinding = none
  single : state.entry.waiting.length ≤ 1
  waiting : ∀ freeze ∈ state.entry.waiting, Careful state freeze.result
  result : ∀ answer, state.entry.finishBinding = some answer → Careful state answer
  answered : ∀ number answer, (number, answer) ∈ state.answers →
    (∃ preview, answer = .bindingScopeChanged preview) ∨ state.entry.finishBinding = some answer

theorem settled_start : Settled (start : EditorCapture β) where
  composing _ := rfl
  unanswered h := absurd rfl h
  single := Nat.zero_le _
  waiting freeze h := absurd h List.not_mem_nil
  result answer h := by cases h
  answered number answer h := absurd h List.not_mem_nil

/-- A change that leaves the freezes and what is known of a composition. -/
theorem Settled.kept (h : Settled state) (hwaiting : next.entry.waiting = state.entry.waiting)
    (hfinish : next.entry.finishBinding = state.entry.finishBinding)
    (hanswers : next.answers = state.answers) (hsame : next.composing = state.composing)
    (hcomposing : next.entry.captures = true → next.entry.composition = next.composing) :
    Settled next := by
  refine ⟨hcomposing, ?_, ?_, ?_, ?_, ?_⟩
  · rw [hwaiting, hfinish]
    exact h.unanswered
  · rw [hwaiting]
    exact h.single
  · rw [hwaiting]
    exact fun freeze hmem binding unrecorded heq =>
      hsame.trans (h.waiting freeze hmem binding unrecorded heq)
  · rw [hfinish]
    exact fun answer hanswer binding unrecorded heq =>
      hsame.trans (h.result answer hanswer binding unrecorded heq)
  · rw [hfinish, hanswers]
    exact h.answered

/-- A change of an entry that captures, with no freeze in sight. -/
theorem Settled.captured (h : Settled state) (hsound : Sound state)
    (hcaptures : state.entry.captures = true)
    (hwaiting : next.entry.waiting = state.entry.waiting)
    (hfinish : next.entry.finishBinding = state.entry.finishBinding)
    (hanswers : next.answers = state.answers)
    (hcomposing : next.entry.captures = true → next.entry.composition = next.composing) :
    Settled next := by
  obtain ⟨hfreezes, hnone, -⟩ := hsound.unfinished hcaptures
  rw [hfreezes] at hwaiting
  refine ⟨hcomposing, ?_, ?_, ?_, ?_, ?_⟩
  · exact fun hnonempty => absurd hwaiting hnonempty
  · rw [hwaiting]
    exact Nat.zero_le _
  · intro freeze hmem
    rw [hwaiting] at hmem
    exact absurd hmem List.not_mem_nil
  · intro answer hanswer
    rw [hfinish, hnone] at hanswer
    cases hanswer
  · intro number answer hmem
    rw [hanswers] at hmem
    rw [hfinish]
    exact h.answered number answer hmem

theorem queueOrSend_composition (entry : FieldEntry β) (value : CapturedMutation)
    (hcaptures : (entry.queueOrSend value).captures = true) :
    (entry.queueOrSend value).composition = entry.composition := by
  revert hcaptures
  unfold FieldEntry.queueOrSend
  split
  · split
    · exact fun herror => Bool.noConfusion herror
    · exact fun _ => rfl
  · unfold FieldEntry.sendMutation
    split
    · exact fun herror => Bool.noConfusion herror
    · split
      · exact fun herror => Bool.noConfusion herror
      · split
        · exact fun _ => rfl
        · exact fun _ => rfl
  · exact fun _ => rfl

theorem capture_composition (state : EditorCapture β) (mutation : Option CapturedMutation)
    (hcaptures : (state.capture mutation).entry.captures = true) :
    (state.capture mutation).entry.composition = state.entry.composition := by
  cases mutation with
  | none => rfl
  | some value => exact queueOrSend_composition state.entry value hcaptures

theorem respond_composition {entry next : FieldEntry β} {ok : Bool}
    {answers : List (Nat × ComputeBindingResponse β)}
    (h : entry.respond ok = some (next, answers)) (hcaptures : next.captures = true) :
    entry.captures = true ∧ next.composition = entry.composition := by
  obtain ⟨sends, -, heq⟩ := Option.map_eq_some_iff.1 h
  cases ok with
  | true =>
      simp only [if_true] at heq
      split at heq
      · cases heq
        exact ⟨hcaptures, rfl⟩
      · cases heq
        exact ⟨hcaptures, rfl⟩
  | false =>
      simp only [Bool.false_eq_true, if_false] at heq
      split at heq
      · cases heq
        exact Bool.noConfusion hcaptures
      · cases heq
        exact Bool.noConfusion hcaptures

theorem settled_respond (h : Settled state) {ok : Bool}
    (hnext : state.step (.respond ok) = some next) : Settled next := by
  obtain ⟨entry, answers, hanswer, rfl⟩ := step_respond hnext
  have hcomposing : entry.captures = true → entry.composition = state.composing := by
    intro hcaptures
    obtain ⟨hbefore, hsame⟩ := respond_composition hanswer hcaptures
    exact hsame.trans (h.composing hbefore)
  -- The freezes are as they were.
  have hkept : entry.waiting = state.entry.waiting →
      entry.finishBinding = state.entry.finishBinding → answers = [] →
      Settled { state with entry, answers := state.answers ++ answers } := by
    rintro hwaiting hfinish rfl
    refine ⟨hcomposing, ?_, ?_, ?_, ?_, ?_⟩
    · show entry.waiting ≠ [] → entry.finishBinding = none
      rw [hwaiting, hfinish]
      exact h.unanswered
    · show entry.waiting.length ≤ 1
      rw [hwaiting]
      exact h.single
    · show ∀ freeze ∈ entry.waiting, _
      rw [hwaiting]
      exact h.waiting
    · show ∀ answer, entry.finishBinding = some answer → _
      rw [hfinish]
      exact h.result
    · intro number answer hmem
      simp only [List.append_nil] at hmem
      show _ ∨ entry.finishBinding = some answer
      rw [hfinish]
      exact h.answered number answer hmem
  rcases respond_cases hanswer with ⟨hwaiting, hfinish, hnone⟩ |
    ⟨hwaiting, answer, hanswers, hnumber, hfinish⟩
  · exact hkept hwaiting hfinish hnone
  · have hsingle := h.single
    have hunanswered := h.unanswered
    have hcareful := h.waiting
    cases hfreezes : state.entry.waiting with
    | nil =>
        rw [hfreezes] at hanswers
        subst hanswers
        exact hkept (hwaiting.trans hfreezes.symm) hfinish rfl
    | cons freeze rest =>
        rw [hfreezes] at hanswers hsingle hunanswered hcareful
        have hrest : rest = [] := List.eq_nil_of_length_eq_zero (by
          rw [List.length_cons] at hsingle
          omega)
        subst hrest
        have hnone : state.entry.finishBinding = none := hunanswered (List.cons_ne_nil _ _)
        rw [List.map_cons, List.map_nil] at hanswers
        subst hanswers
        have hfinish : entry.finishBinding = some (answer freeze).2 := hfinish
        have hresult : Careful state (answer freeze).2 := by
          rcases (hnumber freeze).2 with hsame | herror
          · rw [hsame]
            exact hcareful freeze List.mem_cons_self
          · intro binding unrecorded heq
            rw [herror] at heq
            cases heq
        refine ⟨hcomposing, fun hnonempty => absurd hwaiting hnonempty, ?_, ?_, ?_, ?_⟩
        · show entry.waiting.length ≤ 1
          rw [hwaiting]
          exact Nat.zero_le _
        · intro other hmem
          have hmem : other ∈ entry.waiting := hmem
          rw [hwaiting] at hmem
          exact absurd hmem List.not_mem_nil
        · intro other heq
          have heq : entry.finishBinding = some other := heq
          rw [hfinish, Option.some.injEq] at heq
          rw [← heq]
          exact hresult
        · intro number other hmem
          rcases List.mem_append.1 hmem with hmem | hmem
          · rcases h.answered number other hmem with hscope | hbefore
            · exact Or.inl hscope
            · rw [hnone] at hbefore
              cases hbefore
          · rw [List.mem_singleton] at hmem
            right
            show entry.finishBinding = some other
            rw [hfinish, ← hmem]

theorem settled_freeze (h : Settled state) (hsound : Sound state) {bind : Bool}
    {expected : Option JsString} {page : EditorPage β} (halone : state.entry.waiting = [])
    (hnext : state.step (.freeze bind expected page) = some next) : Settled next := by
  obtain ⟨hsession, rfl⟩ := step_freeze hnext
  have hempty : ∀ freeze, freeze ∉ state.entry.waiting := by
    intro freeze hmem
    rw [halone] at hmem
    exact List.not_mem_nil hmem
  have hresult : state.entry.finishBinding = none →
      Careful state (state.entry.freezeResult bind page) := by
    intro hnone binding unrecorded heq
    obtain ⟨hopen, hcomposition⟩ := freezeResult_binding heq
    have hcaptures : state.entry.captures = true := by
      cases hstate : state.entry.state with
      | pending => rw [FieldEntry.captures, hstate]; rfl
      | recording => rw [FieldEntry.captures, hstate]; rfl
      | signed =>
          rcases hsound.signed hstate with hsome | hwaiting
          · rw [hnone] at hsome
            cases hsome
          · exact absurd halone hwaiting
      | error => exact absurd hstate hopen
    exact (h.composing hcaptures).symm.trans hcomposition
  have hbefore : state.entry.finishBinding = none → ∀ number answer,
      (number, answer) ∈ state.answers → ∃ preview, answer = .bindingScopeChanged preview := by
    intro hnone number answer hmem
    rcases h.answered number answer hmem with hscope | hfinish
    · exact hscope
    · rw [hnone] at hfinish
      cases hfinish
  rcases freezeSession_cases state.entry state.calls bind expected page with
    ⟨answer, heq, hsame⟩ | ⟨hnone, answer, heq, hcases⟩ | ⟨hnone, heq⟩
  · simp only [heq]
    refine ⟨h.composing, h.unanswered, h.single, h.waiting, h.result, ?_⟩
    intro number other hmem
    rcases List.mem_append.1 hmem with hmem | hmem
    · exact h.answered number other hmem
    · rw [List.mem_singleton, Prod.mk.injEq] at hmem
      rw [hmem.2]
      exact hsame.symm
  · simp only [heq]
    refine ⟨fun hcaptures => Bool.noConfusion hcaptures, fun hwaiting => absurd halone hwaiting,
      h.single, fun freeze hmem => absurd hmem (hempty freeze), ?_, ?_⟩
    · intro other hother
      cases hother
      rcases hcases with rfl | rfl
      · intro binding unrecorded hbinding
        cases hbinding
      · exact hresult hnone
    · intro number other hmem
      rcases List.mem_append.1 hmem with hmem | hmem
      · exact Or.inl (hbefore hnone number other hmem)
      · rw [List.mem_singleton, Prod.mk.injEq] at hmem
        exact Or.inr (congrArg some hmem.2.symm)
  · simp only [heq]
    refine ⟨fun hcaptures => Bool.noConfusion hcaptures, fun _ => hnone, ?_, ?_, ?_, ?_⟩
    · show (state.entry.waiting ++ [_]).length ≤ 1
      rw [halone]
      exact Nat.le_refl _
    · intro freeze hmem
      rcases List.mem_append.1 hmem with hmem | hmem
      · exact absurd hmem (hempty freeze)
      · rw [List.mem_singleton.1 hmem]
        exact hresult hnone
    · intro other hother
      have hother : state.entry.finishBinding = some other := hother
      rw [hnone] at hother
      cases hother
    · intro number other hmem
      rw [List.append_nil] at hmem
      exact Or.inl (hbefore hnone number other hmem)

theorem settled_step (h : Settled state) (hsound : Sound state) {action : Action β}
    (halone : Alone state action) (hnext : state.step action = some next) : Settled next := by
  cases action with
  | registered sessionId =>
      rw [step] at hnext
      split at hnext
      · rename_i hstart
        cases hnext
        obtain ⟨hwaiting, hfinish⟩ := registered_kept state.entry sessionId
        refine h.kept hwaiting hfinish rfl rfl ?_
        intro hcaptures
        cases sessionId with
        | none => exact Bool.noConfusion hcaptures
        | some sessionId =>
            by_cases herror : state.entry.state = .error
            · have hsame : (state.entry.registered (some sessionId)).state = .error := by
                unfold FieldEntry.registered
                simp only
                rw [if_pos herror]
                exact herror
              have hcaptures : (state.entry.registered (some sessionId)).captures = true :=
                hcaptures
              rw [FieldEntry.captures, hsame] at hcaptures
              cases hcaptures
            · obtain ⟨sends, queuedCount, heq, -⟩ :=
                hsound.registered_eq hstart herror sessionId
              have hpending : state.entry.captures = true := by
                obtain ⟨-, -, -, -, ⟨hpending, -⟩ | hfailed⟩ := hsound.starting hstart
                · rw [FieldEntry.captures, hpending]
                  rfl
                · exact absurd hfailed herror
              show (state.entry.registered (some sessionId)).composition = state.composing
              rw [heq]
              exact h.composing hpending
      · cases hnext
  | input mutation =>
      rw [step] at hnext
      split at hnext
      · rename_i hopen
        rw [Bool.and_eq_true] at hopen
        cases hnext
        obtain ⟨hwaiting, hfinish, -, hanswers, hsame⟩ := capture_kept state mutation
        refine h.kept hwaiting hfinish hanswers hsame fun hcaptures => ?_
        rw [capture_composition state mutation hcaptures, hsame]
        exact h.composing hopen.1
      · cases hnext
        exact h
  | compositionstart =>
      rw [step] at hnext
      split at hnext
      · cases hnext
        exact h.captured hsound ‹_› rfl rfl rfl fun _ => rfl
      · cases hnext
        exact h
  | compositionend mutation =>
      rw [step] at hnext
      split at hnext
      · rename_i hcaptures
        split at hnext
        · cases hnext
          obtain ⟨hwaiting, hfinish, -, hanswers, hsame⟩ := capture_kept { state with
            entry := { state.entry with composition := false }, composing := false } mutation
          refine h.captured hsound hcaptures hwaiting hfinish hanswers fun hstill => ?_
          rw [capture_composition _ mutation hstill, hsame]
        · rename_i hnone
          cases hnext
          exact h.captured hsound hcaptures rfl rfl rfl fun _ => by simpa using hnone
      · cases hnext
        exact h
  | respond ok => exact settled_respond h hnext
  | freeze bind expected page => exact settled_freeze h hsound halone hnext
  | earlierReleased => exact halone.elim

/-- Every freeze is answered once, or waits for a message that is out.  Unless one is
called while another waits, or an earlier entry for the element lets go of its numbers,
all of them are answered alike, and none with a binding where a composition was open. -/
theorem freezing_settles :
    (∀ state : EditorCapture β, Run step (fun _ _ => True) start state →
      (state.answers.map Prod.fst ++ state.entry.waiting.map WaitingFreeze.number).Perm
        (List.range state.calls) ∧
      (state.entry.waiting ≠ [] → state.entry.sends.waiting ≠ [])) ∧
    ∀ state : EditorCapture β, Run step Alone start state →
      (∀ number binding unrecorded,
        (number, .bindingResult binding unrecorded) ∈ state.answers → state.composing = false) ∧
      ∀ number answer other later, (number, answer) ∈ state.answers →
        (other, later) ∈ state.answers →
        (∃ preview, answer = .bindingScopeChanged preview) ∨
        (∃ preview, later = .bindingScopeChanged preview) ∨ answer = later := by
  refine ⟨?_, ?_⟩
  · intro state run
    have hcounted : Counted state :=
      run.invariant (fun _ _ _ h _ hnext => counted_step h hnext) (List.Perm.refl _)
    exact ⟨hcounted, fun hwaiting => ((sound_run run).waiting hwaiting).2.1⟩
  · intro state run
    have hboth : Sound state ∧ Settled state := by
      refine run.invariant (I := fun state => Sound state ∧ Settled state) ?_
        ⟨sound_start, settled_start⟩
      intro before action after h halone hnext
      exact ⟨sound_step h.1 hnext, settled_step h.2 h.1 halone hnext⟩
    obtain ⟨-, hsettled⟩ := hboth
    refine ⟨?_, ?_⟩
    · intro number binding unrecorded hmem
      rcases hsettled.answered number _ hmem with ⟨preview, hscope⟩ | hfinish
      · cases hscope
      · exact hsettled.result _ hfinish binding unrecorded rfl
    · intro number answer other later hmem hmem'
      rcases hsettled.answered number answer hmem with hscope | hfinish
      · exact Or.inl hscope
      · rcases hsettled.answered other later hmem' with hscope | hfinish'
        · exact Or.inr (Or.inl hscope)
        · rw [hfinish, Option.some.injEq] at hfinish'
          exact Or.inr (Or.inr hfinish')

/-- The page has changed at the first freeze.  The next two find a composition open, which
the second lets go of. -/
def frozenOpen : List (Action JsString) :=
  [.registered (some (js "session")), .input (some typedLetter), .compositionstart,
    .freeze true (some (js "another")) examplePage, .freeze true none examplePage,
    .respond true, .freeze true none examplePage]

theorem freezing_settles_inTime :
    (∃ state : EditorCapture JsString, runAll step Alone start frozenInTime = some state ∧
      state.answers = [(0, .bindingResult (some (js "binding")) false)] ∧
      state.composing = false) ∧
    ∃ state : EditorCapture JsString, runAll step Alone start frozenOpen = some state ∧
      state.answers.map Prod.fst = [0, 1, 2] ∧ ∀ number binding unrecorded,
        (number, .bindingResult binding unrecorded) ∉ state.answers := by
  refine ⟨?_, ?_⟩
  · have hrun : (runAll step Alone start frozenInTime).any (fun state =>
        decide (state.answers = [(0, .bindingResult (some (js "binding")) false)])) = true := by
      decide +kernel
    obtain ⟨state, hstate, hholds⟩ := (Option.any_eq_true _ _).1 hrun
    have hanswers := of_decide_eq_true hholds
    obtain ⟨hcareful, -⟩ := freezing_settles.2 state (Run.of_runAll hstate)
    refine ⟨state, hstate, hanswers, hcareful 0 (some (js "binding")) false ?_⟩
    rw [hanswers]
    exact List.mem_singleton.2 rfl
  · have hrun : (runAll step Alone start frozenOpen).any (fun state =>
        decide (state.composing = true ∧ state.answers.map Prod.fst = [0, 1, 2])) = true := by
      decide +kernel
    obtain ⟨state, hstate, hholds⟩ := (Option.any_eq_true _ _).1 hrun
    obtain ⟨hcomposing, hanswers⟩ := of_decide_eq_true hholds
    refine ⟨state, hstate, hanswers, fun number binding unrecorded hmem => ?_⟩
    obtain ⟨hcareful, -⟩ := freezing_settles.2 state (Run.of_runAll hstate)
    rw [hcareful number binding unrecorded hmem] at hcomposing
    cases hcomposing

/-- The first freeze finds a composition open, and lets go of it while it waits. -/
def frozenTwice : List (Action JsString) :=
  [.registered (some (js "session")), .input (some typedLetter), .compositionstart,
    .freeze true none examplePage, .freeze true none examplePage, .respond true]

/-- A freeze that is called while another one waits gives a binding over a composition. -/
theorem freezing_unsettled_twice : ∃ state : EditorCapture JsString,
    Run step (fun _ _ => True) start state ∧ state.composing = true ∧
      state.answers = [(0, .bindingError FieldEntry.incompleteReason),
        (1, .bindingResult (some (js "binding")) false)] := by
  have hrun : (runAll step (fun _ _ => True) start frozenTwice).any (fun state =>
      decide (state.composing = true ∧
        state.answers = [(0, .bindingError FieldEntry.incompleteReason),
          (1, .bindingResult (some (js "binding")) false)])) = true := by
    decide +kernel
  obtain ⟨state, hstate, hholds⟩ := (Option.any_eq_true _ _).1 hrun
  obtain ⟨hcomposing, hanswers⟩ := of_decide_eq_true hholds
  exact ⟨state, Run.of_runAll hstate, hcomposing, hanswers⟩

end EditorCapture

end Pmbah.Browser
